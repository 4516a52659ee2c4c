import Ngircd.MessageSafety
import Ngircd.Standing

/-!
# From a line to its handler

`Parse_Request` looks at a line, checks its prefix and finds its handler.  All
of this is a plain program (`dispatchLine`); what it finds is then carried out
(`Dispatch.finish`).
-/

namespace Ngircd

open Lib Prog

variable {α : Type} {i : ConnId}

/-- What becomes of a line. -/
inductive Dispatch where
  /-- It has been answered, or needs no answer. -/
  | answered (result : Bool)
  | numeric (client : ClientRef) (req : Request)
  /-- The handler of a command is to be called. -/
  | command (client : ClientRef) (type : ClientType) (cmd : Command) (req : Request)

/-- `Handle_Request` for a command of the table, up to the call of its handler. -/
def dispatchCommand (client : ClientRef) (type : ClientType) (cmd : Command) (req : Request) :
    Plain Dispatch := do
  if !cmd.mask.allows type then
    let msg :=
      if type = .user ∧ cmd.mask.allows .server then errNotregisteredserverMsg
      else errNotregisteredMsg
    return .answered (← ircWriteErrClient client (format msg [← clientID client]))
  else
    if cmd.penalty ≠ 0 then ircSetPenalty client cmd.penalty
    if req.argc < cmd.minArgc ∨ cmd.maxArgc.any (· < req.argc) then
      return .answered (← needMoreParams client req)
    else return .command client type cmd req

/-- `Handle_Request`, up to the call of a handler. -/
def dispatchRequest (i : ConnId) (req : Request) : Plain Dispatch := do
  let client ← clientOf i
  let type ← clientType client
  if (type = .server ∨ type = .unknownServer) ∧ req.command.length = 3 ∧
      atoi req.command > 1 then
    return .numeric client req
  else
    match findCommand req.command with
    | some cmd => dispatchCommand client type cmd req
    | none =>
      if type = .server then return .answered connected
      else
        return .answered (← ircWriteErrClient client (format errUnknowncommandMsg
          [← clientID client, req.command]))

/-- `Parse_Request`, up to the call of a handler. -/
def dispatchLine (i : ConnId) (line after : Str) : Plain Dispatch := do
  let text := trimStr line
  if text.isEmpty then return .answered true
  if (← getWorld).conf.scrubCTCP && scrubCTCP text then return .answered true
  match splitRequest text (trimmedRest line after) with
  | none => return .answered (← connWriteStr i "ERROR :Prefix without command")
  | some req =>
    match ← validatePrefix i req with
    | .error result => return .answered result
    | .ok req => dispatchRequest i req

/-- Carry out what has been found. -/
def Dispatch.finish : Dispatch → Full Bool
  | .answered result => pure result
  | .numeric client req => handleNumeric client req
  | .command client type cmd req => do
      let before := (← getWorld).sent.length
      let result ← callHandler client req cmd.handler
      countCommand cmd (type == .server) before
      return result

theorem Full.ofPlain_done (a : α) : Full.ofPlain (.done a) = .done a := rfl

theorem handleCommand_eq (client : ClientRef) (type : ClientType) (cmd : Command)
    (req : Request) :
    handleCommand client type cmd req =
      Full.ofPlain (dispatchCommand client type cmd req) >>= Dispatch.finish := by
  unfold handleCommand dispatchCommand
  split_ifs <;>
    simp [Full.ofPlain_bind, Full.ofPlain_done, Prog.bind_done, Dispatch.finish]

theorem handleRequest_eq (req : Request) :
    handleRequest i req = Full.ofPlain (dispatchRequest i req) >>= Dispatch.finish := by
  unfold handleRequest dispatchRequest
  simp only [Full.ofPlain_bind, Prog.bind_bind, liftM_msg_full, liftM_msg_plain]
  congr 1
  funext client
  congr 1
  funext type
  split_ifs
  · simp [Full.ofPlain_done, Dispatch.finish]
  · cases findCommand req.command with
    | none => simp [*, Full.ofPlain_done, Dispatch.finish]
    | some cmd => exact handleCommand_eq client type cmd req
  · cases findCommand req.command with
    | none =>
      simp [*, Full.ofPlain_bind, Full.ofPlain_done, Prog.bind_done, Dispatch.finish]
    | some cmd => exact handleCommand_eq client type cmd req

/-- `Parse_Request` finds out what to do and does it. -/
theorem parseRequest_eq (line after : Str) :
    parseRequest i line after = Full.ofPlain (dispatchLine i line after) >>= Dispatch.finish := by
  unfold parseRequest dispatchLine
  dsimp only
  split_ifs
  · simp [Full.ofPlain_done, Dispatch.finish]
  · simp only [Full.ofPlain_bind, Prog.bind_bind, liftM_msg_full, liftM_msg_plain]
    congr 1
    funext w
    split_ifs
    · simp [Full.ofPlain_done, Dispatch.finish]
    · cases splitRequest (trimStr line) (trimmedRest line after) with
      | none =>
        simp [Full.ofPlain_bind, Full.ofPlain_done, Prog.bind_done, Dispatch.finish]
      | some req =>
        simp only [Full.ofPlain_bind, Prog.bind_bind, liftM_plain_full]
        congr 1
        funext result
        cases result with
        | error result => simp [Full.ofPlain_done, Dispatch.finish]
        | ok req => exact handleRequest_eq req

/-- A line that has been dispatched is handled by what has been found. -/
theorem parseRequest_of_dispatch {n : Nat} {w w₁ : World} {line after : Str} {d : Dispatch}
    (hrun : execPlain n (dispatchLine i line after) w = .ok (d, w₁)) :
    exec n (parseRequest i line after) w = exec n d.finish w₁ := by
  have hline : exec n (Full.ofPlain (dispatchLine i line after)) w = .ok (d, w₁) := by
    rw [exec_ofPlain, hrun]
  rw [parseRequest_eq]
  simp only [exec] at hline ⊢
  rw [Prog.run_bind, Exec.bind_apply, hline]

/-! ## What is known about a request when its handler is called -/

/-- Plain programs settle, whatever goes wrong in them. -/
abbrev settledWp : Transformer PlainOp.Res World := plainWp (.within fun _ => Settled) anyFault

section

variable {w w' : World} {r : ClientRef} {c : Client} {req : Request}

theorem plain_settled (p : Plain α) {Q : α → World → Prop}
    (hQ : ∀ a w', Settled w w' → Q a w') : p.wp settledWp Q w :=
  settled_plainFrame.wp (fun _ => trivial) p hQ

theorem basic_settled (p : Basic α) {Q : α → World → Prop}
    (hQ : ∀ a w', Settled w w' → Q a w') : p.wp (basicWp (.within fun _ => Settled) anyFault) Q w :=
  settled_plainFrame.toBasicFrame.wp (fun _ => trivial) p hQ

theorem msg_settled (p : Msg α) {Q : α → World → Prop}
    (hQ : ∀ a w', Settled w w' → Q a w') : p.wp (msgWp (.within fun _ => Settled) anyFault) Q w :=
  settled_plainFrame.toMsgFrame.wp (fun _ => trivial) p hQ

/-- The client in a prefix is one that is behind the connection. -/
def PrefixFits (w : World) (r : ClientRef) (req : Request) : Prop :=
  ∀ p, req.pfx = some p → ∃ o, w.clientSearch p = some o ∧ w.nextHop o = .ok r

/-- The request in a line, as its handler gets it: only a registered client has a
prefix. -/
def Request.received (req : Request) : ClientType → Request
  | .user | .server | .service => req
  | _ => { req with pfx := none }

theorem Request.received_command (req : Request) (t : ClientType) :
    (req.received t).command = req.command := by
  cases t <;> rfl

theorem Request.received_of_pfx {t : ClientType} (hpfx : req.pfx = none) : req.received t = req := by
  obtain ⟨pfx, command, argv⟩ := req
  obtain rfl : pfx = none := hpfx
  cases t <;> rfl

/-- What a line on the connection of a server must look like to be handled. -/
structure ServerLine (w : World) (i : ConnId) (text after : Str) (req : Request) : Prop where
  nonempty : trimStr text ≠ []
  kept : (w.conf.scrubCTCP && scrubCTCP (trimStr text)) = false
  split : splitRequest (trimStr text) (trimmedRest text after) = some req
  prefixed : req.pfx = none → (w.conns i).rfc1459 = true ∨
    strcaseEq req.command "ERROR" = true ∨ strcaseEq req.command "PING" = true

theorem validatePrefix_checks (hi : w.Has i r c) :
    (validatePrefix i req).wp settledWp (fun a w' => ∀ req', a = .ok req' →
      w' = w ∧ req' = req.received c.type ∧ PrefixFits w r req' ∧
        (c.type = .server → req.pfx = none → (w.conns i).rfc1459 = true ∨
          strcaseEq req.command "ERROR" = true ∨ strcaseEq req.command "PING" = true)) w := by
  unfold validatePrefix
  simp only [wp_msg, wp_clientOf_of_some hi.client, wp_deref, onClient_of_some hi.cell, wp_getWorld]
  cases hpfx : req.pfx with
  | none =>
    dsimp only
    split_ifs with hmissing
    · simp only [wp_msg]
      exact msg_settled _ fun _ _ _ _ h => by cases h
    · rintro req' ⟨⟩
      refine ⟨rfl, (Request.received_of_pfx hpfx).symm, fun p hp => by simp [hpfx] at hp, ?_⟩
      intro hserver _
      simpa [hserver, or_iff_not_imp_left] using hmissing
  | some p =>
    dsimp only
    split
    case h_1 htype | h_2 htype | h_3 htype =>
      cases hsearch : w.clientSearch p with
      | none =>
        simp only [wp_msg]
        exact msg_settled _ fun _ _ _ _ h => by cases h
      | some origin =>
        simp only [wp_msg, wp_nextHop]
        refine ⟨fun hop hnext => ?_, fun _ _ => trivial⟩
        split_ifs with hhop
        · rintro req' ⟨⟩
          refine ⟨rfl, by rw [htype]; rfl, fun q hq => ⟨origin, ?_, hhop ▸ hnext⟩, by simp⟩
          rw [hpfx] at hq
          rw [← Option.some.inj hq, hsearch]
        · rw [wp_bind]
          exact plain_settled _ fun _ _ _ _ h => by cases h
    case h_4 huser hserver hservice =>
      rintro req' ⟨⟩
      refine ⟨rfl, ?_, by rintro _ ⟨⟩, by simp⟩
      cases htype : c.type with
      | user => exact absurd htype huser
      | server => exact absurd htype hserver
      | service => exact absurd htype hservice
      | _ => rfl

/-- A connection may have got a penalty. -/
inductive Penalised (w : World) (i : ConnId) : World → Prop where
  | none : Penalised w i w
  | edit (e : ConnEdit) : Penalised w i (w.setConn i (e.edit (w.conns i)))

/-- What is known when a handler is to be called. -/
def Dispatch.Known (w : World) (i : ConnId) (r : ClientRef) (c : Client) (argv : List Str) :
    Dispatch → World → Prop
  | .answered _, _ => True
  | .numeric client req, w' =>
    client = r ∧ w' = w ∧ (c.type = .server ∨ c.type = .unknownServer) ∧
      PrefixFits w r req ∧ req.argv = argv
  | .command client type cmd req, w' =>
    client = r ∧ type = c.type ∧ Penalised w i w' ∧ Dispatched w r c req cmd ∧
      PrefixFits w r req ∧ req.argv = argv

theorem ircSetPenalty_penalises (hw : Linked w) (hi : w.Has i r c) (seconds : Nat)
    {Q : Unit → World → Prop} (hQ : ∀ w', Penalised w i w' → Q () w') :
    (ircSetPenalty r seconds).wp (msgWp (.within fun _ => Settled) anyFault) Q w := by
  have hconn := hw.link i r c hi.client hi.cell
  unfold ircSetPenalty connSetPenalty
  simp only [wp_bind, wp_deref, onClient_of_some hi.cell, hconn]
  split_ifs
  · exact hQ w .none
  · exact hQ _ (.edit _)

/-- What has been found to do is about a request. -/
def Dispatch.Of (req : Request) : Dispatch → Prop
  | .answered _ => True
  | .numeric _ req' => req' = req ∧ req.command.length = 3
  | .command _ _ _ req' => req' = req

theorem answered_settles {Q : Dispatch → World → Prop} (hQ : ∀ b w', Q (.answered b) w')
    (p : Msg Str) (f : Str → Msg Bool) :
    (do return .answered (← f (← p)) : Plain Dispatch).wp settledWp Q w := by
  simp only [wp_msg]
  refine msg_settled _ fun text w₁ _ => ?_
  simp only [wp_msg]
  exact msg_settled _ fun b w₂ _ => hQ b w₂

section

variable (hw : Linked w) (hi : w.Has i r c)
include hw hi

theorem dispatchCommand_known {cmd : Command} (hcmd : findCommand req.command = some cmd)
    (hfits : PrefixFits w r req) :
    (dispatchCommand r c.type cmd req).wp settledWp
      (fun d w' => d.Known w i r c req.argv w' ∧ d.Of req) w := by
  unfold dispatchCommand
  by_cases hmask : cmd.mask.allows c.type = true
  swap
  · rw [if_pos (by simp [hmask])]
    exact answered_settles (fun _ _ => ⟨trivial, trivial⟩) _ _
  rw [if_neg (by simp [hmask])]
  have hw' := Penalised.none (w := w) (i := i)
  by_cases hpenalty : cmd.penalty ≠ 0
  on_goal 1 =>
    simp only [if_pos hpenalty, wp_msg]
    refine ircSetPenalty_penalises hw hi _ fun w' hpenalised => ?_
    replace hw' := hpenalised
  on_goal 2 => simp only [if_neg hpenalty]
  all_goals
    split_ifs with hargs
    · simp only [wp_msg]
      exact msg_settled _ fun _ _ _ => ⟨trivial, trivial⟩
    · simp only [not_or, Nat.not_lt, Option.any_eq_true, decide_eq_true_eq, not_exists,
        not_and] at hargs
      exact ⟨⟨rfl, rfl, hw', ⟨hi.cell, hcmd, hmask, hargs.1, fun m hm => hargs.2 m hm⟩, hfits, rfl⟩,
        rfl⟩

theorem dispatchRequest_known (hfits : PrefixFits w r req) :
    (dispatchRequest i req).wp settledWp (fun d w' => d.Known w i r c req.argv w' ∧ d.Of req) w := by
  unfold dispatchRequest
  simp only [wp_msg, wp_clientOf_of_some hi.client, wp_clientType, onClient_of_some hi.cell]
  split_ifs with hnumeric hserver
  · exact ⟨⟨rfl, rfl, hnumeric.1, hfits, rfl⟩, rfl, hnumeric.2.1⟩
  · cases hcmd : findCommand req.command with
    | none => exact ⟨trivial, trivial⟩
    | some cmd => exact dispatchCommand_known hw hi hcmd hfits
  · cases hcmd : findCommand req.command with
    | none => exact answered_settles (fun _ _ => ⟨trivial, trivial⟩) _ _
    | some cmd => exact dispatchCommand_known hw hi hcmd hfits

/-- What is found to do about a line is about the request in the line. -/
theorem dispatchLine_reads (text after : Str) :
    (dispatchLine i text after).wp settledWp (fun d w' => (∃ b, d = .answered b) ∨
      ∃ req, d.Known w i r c (req.received c.type).argv w' ∧ d.Of (req.received c.type) ∧
        splitRequest (trimStr text) (trimmedRest text after) = some req ∧
        (c.type = .server → ServerLine w i text after req)) w := by
  unfold dispatchLine
  dsimp only
  split_ifs with hempty
  · exact .inl ⟨_, rfl⟩
  simp only [wp_msg, wp_getWorld]
  split_ifs with hscrub
  · exact .inl ⟨_, rfl⟩
  cases hsplit : splitRequest (trimStr text) (trimmedRest text after) with
  | none =>
    simp only [wp_msg]
    exact msg_settled _ fun _ _ _ => .inl ⟨_, rfl⟩
  | some req =>
    rw [wp_bind]
    refine wp_mono (fun a w' hchecked => ?_) (validatePrefix_checks hi)
    cases a with
    | error result => exact .inl ⟨_, rfl⟩
    | ok req' =>
      obtain ⟨rfl, rfl, hfits, hprefixed⟩ := hchecked req' rfl
      refine wp_mono (fun d _ hd => ?_) (dispatchRequest_known hw hi hfits)
      exact .inr ⟨req, hd.1, hd.2, rfl, fun hserver =>
        ⟨by simpa using hempty, by simpa using hscrub, hsplit, hprefixed hserver⟩⟩

/-- What is known about a line when its handler is to be called. -/
theorem dispatchLine_known (line after : Str) :
    (dispatchLine i line after).wp settledWp (fun d w' => ∃ argv, d.Known w i r c argv w') w := by
  refine wp_mono (fun d w' hd => ?_) (dispatchLine_reads hw hi line after)
  rcases hd with ⟨b, rfl⟩ | ⟨req, hknown, -⟩
  · exact ⟨[], trivial⟩
  · exact ⟨_, hknown⟩

/-- A handler gets the request in the line. -/
theorem dispatchLine_received (text after : Str) :
    (dispatchLine i text after).wp settledWp (fun d _ => ∀ client type cmd req,
      d = .command client type cmd req →
        ∃ req₀, splitRequest (trimStr text) (trimmedRest text after) = some req₀ ∧
          req = req₀.received c.type) w := by
  refine wp_mono (fun d _ hd => ?_) (dispatchLine_reads hw hi text after)
  rintro client type cmd req rfl
  rcases hd with ⟨b, hb⟩ | ⟨req₀, -, hof, hsplit, -⟩
  · exact nomatch hb
  · exact ⟨req₀, hsplit, hof⟩

theorem dispatchLine_served (hserver : c.type = .server) (text after : Str) :
    (dispatchLine i text after).wp settledWp (fun d _ => (∃ b, d = .answered b) ∨
      ∃ req, ServerLine w i text after req ∧ d.Of req) w := by
  refine wp_mono (fun d _ hd => hd.imp_right ?_) (dispatchLine_reads hw hi text after)
  rintro ⟨req, -, hof, -, hline⟩
  rw [hserver] at hof
  exact ⟨req, hline hserver, hof⟩

theorem dispatchLine_of_server (hserver : c.type = .server) (text after : Str) :
    (dispatchLine i text after).wp settledWp (fun d _ => ∀ client type cmd req,
      d = .command client type cmd req → ServerLine w i text after req) w := by
  refine wp_mono (fun d _ hd => ?_) (dispatchLine_served hw hi hserver text after)
  rintro client type cmd req rfl
  rcases hd with ⟨b, hb⟩ | ⟨req', hline, hof⟩
  · exact nomatch hb
  · exact hof ▸ hline

end

/-- A line that a server may send is read as the request in it. -/
theorem dispatchLine_line (hi : w.Has i r c) (hserver : c.type = .server) {text after : Str}
    (hline : ServerLine w i text after req) (hfits : PrefixFits w r req) {K : Closing}
    {E : Fault → Prop} {Q : Dispatch → World → Prop}
    (hQ : (dispatchRequest i req).wp (plainWp K E) Q w) :
    (dispatchLine i text after).wp (plainWp K E) Q w := by
  have hcheck : (validatePrefix i req).wp (plainWp K E) (fun a w' => a = .ok req ∧ w' = w) w := by
    unfold validatePrefix
    simp only [wp_msg, wp_clientOf_of_some hi.client, wp_deref, onClient_of_some hi.cell,
      wp_getWorld, hserver]
    cases hpfx : req.pfx with
    | none =>
      have hallowed := hline.prefixed hpfx
      rw [if_neg (by simp only [true_and, Bool.not_eq_true']; grind)]
      exact ⟨rfl, rfl⟩
    | some p =>
      obtain ⟨o, ho, hnext⟩ := hfits p hpfx
      simp only [ho, wp_msg, wp_nextHop_of_ok hnext]
      exact ⟨rfl, rfl⟩
  unfold dispatchLine
  simp only [List.isEmpty_iff, hline.nonempty, if_false, wp_msg, wp_getWorld, hline.kept, hline.split]
  rw [if_neg Bool.false_ne_true, wp_bind]
  refine wp_mono (fun a w' hok => ?_) hcheck
  obtain ⟨rfl, rfl⟩ := hok
  exact hQ

end

end Ngircd
