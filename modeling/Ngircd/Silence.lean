import Ngircd.LineFormat
import Ngircd.Removal
import Ngircd.Standing

/-!
# Messages of clients that are not registered

What a client says with PRIVMSG or SQUERY before it has registered is answered
with an error and heard by nobody else.  With NOTICE it is heard.
-/

namespace Ngircd

open Lib Prog

variable {cmd : Command} {w w' w₁ w₂ w₃ : World} {i : ConnId} {r : ClientRef} {c : Client}

/-- What the command table says about PRIVMSG and SQUERY. -/
theorem findCommand_message {name : Str} (h : findCommand name = some cmd)
    (hsends : cmd.handler.sendsMessage = true) (hnotice : cmd.handler ≠ .notice) :
    name.length ≠ 3 ∧ ∀ t : ClientType, t.registered = false → cmd.mask.allows t = false := by
  have htable : ∀ cmd ∈ myCommands, cmd.handler.sendsMessage = true → cmd.handler ≠ .notice →
      cmd.name.length ≠ 3 ∧ cmd.mask = .userOrServer := by decide
  obtain ⟨hlength, hmask⟩ := htable cmd (List.mem_of_find?_eq_some h) hsends hnotice
  have hname : strcaseEq name cmd.name = true := by simpa using List.find?_some h
  refine ⟨by rw [← length_of_strcaseEq hname]; exact hlength, fun t ht => ?_⟩
  rw [hmask]
  cases t <;> simp [ClientType.registered, TypeMask.allows] at ht ⊢

/-- The answer to a command that asks for registration. -/
def answerNotRegistered (client : ClientRef) : Plain Bool :=
  answerError client fun name => format errNotregisteredMsg [name]

section

variable {req : Request}

/-- A prefix of a client that is not registered is dropped. -/
theorem validatePrefix_unregistered (hi : w.Has i r c) (hc : c.type.registered = false) :
    (validatePrefix i req).wp (plainWp .never noFault)
      (fun a w' => a = .ok { req with pfx := none } ∧ w' = w) w := by
  have hserver : c.type ≠ .server := fun h => by simp [h, ClientType.registered] at hc
  unfold validatePrefix
  simp only [wp_msg, wp_clientOf_of_some hi.client, wp_deref, onClient_of_some hi.cell, wp_getWorld]
  obtain ⟨pfx, command, argv, beyond⟩ := req
  cases pfx with
  | none => simp [hserver]
  | some p => cases ht : c.type <;> simp_all [ClientType.registered]

theorem handleRequest_unregistered (req : Request) (hi : w.Has i r c)
    (hc : c.type.registered = false)
    (hcmd : findCommand req.command = some cmd) (hsends : cmd.handler.sendsMessage = true)
    (hnotice : cmd.handler ≠ .notice) (n : Nat) :
    exec n (handleRequest i req) w = exec n (answerNotRegistered r) w := by
  obtain ⟨hlength, hmask⟩ := findCommand_message hcmd hsends hnotice
  have huser : c.type ≠ .user := fun h => by simp [h, ClientType.registered] at hc
  have hclient : (liftM (clientOf i) : Full _).wp (fullWp .never noFault)
      (fun a w' => a = r ∧ w' = w) w := by
    simp [wp_clientOf_of_some hi.client]
  have htype : (liftM (clientType r) : Full _).wp (fullWp .never noFault)
      (fun a w' => a = c.type ∧ w' = w) w := by
    simp [onClient_of_some hi.cell]
  unfold handleRequest
  rw [exec_bind_read _ n hclient, exec_bind_read _ n htype]
  simp only [hlength, false_and, and_false, if_false, hcmd, handleCommand, hmask c.type hc,
    Bool.not_false, if_true, huser, answerNotRegistered, answerError, liftM_plain_full,
    Full.ofPlain_bind, liftM_msg_plain, liftM_msg_full]

end

/-! ## Nobody else hears of it -/

/-- All lines that have been added are for one connection. -/
def OnlyTo (i : ConnId) (w w' : World) : Prop :=
  ∃ l, w'.sent = w.sent ++ l ∧ ∀ x ∈ l, x.1 = i

theorem OnlyTo.of_eq (h : w'.sent = w.sent) : OnlyTo i w w' :=
  ⟨[], by simpa using h, by simp⟩

theorem OnlyTo.trans (h₁ : OnlyTo i w₁ w₂)
    (h₂ : OnlyTo i w₂ w₃) : OnlyTo i w₁ w₃ := by
  obtain ⟨l₁, hl₁, hi₁⟩ := h₁
  obtain ⟨l₂, hl₂, hi₂⟩ := h₂
  refine ⟨l₁ ++ l₂, by rw [hl₂, hl₁, List.append_assoc], fun x hx => ?_⟩
  rcases List.mem_append.mp hx with h | h
  · exact hi₁ x h
  · exact hi₂ x h

/-- The client of a connection is not registered. -/
def Unregistered (w : World) (i : ConnId) : Prop :=
  ∃ r c, (w.conns i).client = some r ∧ w.heap r = some c ∧ c.type.registered = false

/-- Closing a connection that is being closed does nothing, and if its client is
not registered, nobody else hears of it. -/
def ClosesSilently (i : ConnId) (w w' : World) : Prop :=
  ((w.conns i).isClosing = true → w' = w) ∧
    ((w.conns i).isClosing = false → Unregistered w i → OnlyTo i w w')

/-- What a connection that is being closed is told. -/
structure Talks (i : ConnId) (w w' : World) : Prop where
  sent : OnlyTo i w w'
  heap : w'.heap = w.heap
  client : ∀ j, (w'.conns j).client = (w.conns j).client
  isClosing : ∀ j, (w'.conns j).isClosing = (w.conns j).isClosing

theorem Talks.refl (i : ConnId) (w : World) : Talks i w w :=
  ⟨.of_eq rfl, rfl, fun _ => rfl, fun _ => rfl⟩

theorem Talks.trans (h₁ : Talks i w₁ w₂) (h₂ : Talks i w₂ w₃) : Talks i w₁ w₃ :=
  ⟨h₁.sent.trans h₂.sent, h₂.heap.trans h₁.heap, fun j => (h₂.client j).trans (h₁.client j),
    fun j => (h₂.isClosing j).trans (h₁.isClosing j)⟩

theorem Talks.setConn {conn : Conn} (hclient : conn.client = (w.conns i).client)
    (hclosing : conn.isClosing = (w.conns i).isClosing) : Talks i w (w.setConn i conn) := by
  refine ⟨.of_eq rfl, rfl, fun j => ?_, fun j => ?_⟩ <;>
  · by_cases hj : j = i
    · subst hj
      simpa using by assumption
    · rw [World.setConn_conns_ne w hj]

theorem Talks.tickWrite (i : ConnId) (w : World) : Talks i w w.tickWrite :=
  ⟨.of_eq rfl, rfl, fun _ => rfl, fun _ => rfl⟩

theorem Talks.queue (i : ConnId) (w : World) (line : Str) : Talks i w (w.queue i line) := by
  have hslot : Talks i w (w.setConn i
      { w.conns i with bytesOut := (w.conns i).bytesOut + line.length + 2 }) := .setConn rfl rfl
  exact { hslot with sent := ⟨[(i, line)], rfl, by simp⟩ }

theorem connWriteStr_closing (hclosing : (w.conns i).isClosing = true) (text : Str) :
    (connWriteStr i text).wp (msgWp (.within ClosesSilently) anyFault)
      (fun _ w' => Talks i w w') w := by
  have hcount (w₁ : World) (h : Talks i w w₁) :
      Talks i w (w₁.setConn i { w₁.conns i with msgOut := (w₁.conns i).msgOut + 1 }) :=
    h.trans (.setConn rfl rfl)
  simp only [connWriteStr, wp_bind, wp_writeTo, wp_editConn, wp_pure, msgWp]
  split_ifs
  · exact hcount w (.refl i w)
  · exact hcount _ ((Talks.tickWrite i w).trans (.queue i _ _))
  · intro w' hw'
    obtain rfl : w' = w.tickWrite := hw'.1 hclosing
    exact hcount _ (.tickWrite i w)

theorem informClosing_talks (hclosing : (w.conns i).isClosing = true)
    (hclient : (w.conns i).client = some r) (hr : w.heap r = some c)
    (hc : c.type.registered = false) (fwdMsg : Option Str) :
    (informClosing i fwdMsg).wp (msgWp (.within ClosesSilently) anyFault)
      (fun _ w' => Talks i w w') w := by
  have huser : c.type ≠ .user := fun h => by simp [h, ClientType.registered] at hc
  simp only [informClosing, wp_bind, wp_getWorld, hclient, wp_deref, onClient_of_some hr,
    huser, if_false, wp_clientID]
  exact connWriteStr_closing hclosing _

/-- The structure of a client that is not registered just goes away. -/
theorem clientDestroy_unregistered (hr : w.heap r = some c) (hc : c.type.registered = false)
    (n : Nat) (logMsg fwdMsg : Option Str) (sendQuit : Bool) :
    (clientDestroy n r logMsg fwdMsg sendQuit).wp (shutWp (.within ClosesSilently) anyFault)
      (fun _ w' => w'.sent = w.sent) w := by
  cases n with
  | zero => exact trivial
  | succ n =>
    have hserver : (c.type == .server) = false := by
      cases ht : c.type <;> simp_all [ClientType.registered]
    simp only [clientDestroy, liftM_msg_shut, wp_msg, wp_shut_ofLeave, wp_getWorld, wp_deref,
      onClient_of_some hr, hserver]
    cases hstop : w.destroyStop r false with
    | none => simp
    | some s =>
      have hs : s = r := by
        simpa [World.destroyStop] using List.find?_some hstop
      subst hs
      cases ht : c.type <;> simp_all [ClientType.registered] <;> rfl

theorem connClose_onlyTo (l f : Option Str) (inf : Bool) (hclosing : (w.conns i).isClosing = false)
    (hun : Unregistered w i) :
    (connClose i l f inf).wp (shutWp (.within ClosesSilently) anyFault)
      (fun _ w' => OnlyTo i w w') w := by
  obtain ⟨r, c, hclient, hr, hc⟩ := hun
  let w₁ := w.setConn i { w.conns i with isClosing := true }
  -- What follows the messages to the client itself.
  have hrest (w₂ : World) (htalk : Talks i w₁ w₂) : (shutDown i l f).wp
      (shutWp (.within ClosesSilently) anyFault) (fun _ w' => OnlyTo i w w') w₂ := by
    have hclient₂ : (w₂.conns i).client = some r := by
      rw [htalk.client i]
      simpa [w₁] using hclient
    have hr₂ : w₂.heap r = some c := by
      rw [htalk.heap]
      exact hr
    refine wp_shutDown (fun s hs => ?_) fun hnone => nomatch hnone.symm.trans hclient₂
    obtain rfl : s = r := Option.mem_unique hs hclient₂
    refine wp_mono (fun _ w₃ h₃ => ?_)
      (clientDestroy_unregistered (by exact hr₂) hc w₂.destroyBound l f true)
    have hsent : OnlyTo i w w₃ := htalk.sent.trans (.of_eq h₃)
    exact hsent.trans (.of_eq rfl)
  refine wp_connClose (fun hbusy => absurd hbusy (by simp [hclosing])) fun _ => ?_
  cases inf with
  | false => exact hrest w₁ (.refl i w₁)
  | true =>
    have hclosing₁ : (w₁.conns i).isClosing = true := by simp [w₁]
    have hclient₁ : (w₁.conns i).client = some r := by simpa [w₁] using hclient
    exact wp_mono (fun _ w₂ h₂ => hrest w₂ h₂) (informClosing_talks hclosing₁ hclient₁ hr hc f)

/-- What `Conn_Close` does about it. -/
theorem connClose_silent (i : ConnId) (l f : Option Str) (inf : Bool) (w : World) :
    (connClose i l f inf).wp (shutWp (.within ClosesSilently) anyFault)
      (fun _ w' => ClosesSilently i w w') w := by
  cases hclosing : (w.conns i).isClosing with
  | true => simp [connClose, hclosing, ClosesSilently]
  | false =>
    by_cases hun : Unregistered w i
    · refine wp_mono (fun _ w' h => ⟨fun h' => ?_, fun _ _ => h⟩)
        (connClose_onlyTo l f inf hclosing hun)
      rw [hclosing] at h'
      cases h'
    · refine anyChange_shutFrame.wp (fun _ => trivial) _ fun _ w' _ =>
        ⟨fun h' => ?_, fun _ h' => ?_⟩
      · rw [hclosing] at h'
        cases h'
      · exact absurd h' hun

theorem closer_silent (n : Nat) : (Closing.within ClosesSilently).RightAbout anyFault (closer n) :=
  closer_sound trivial connClose_silent n

theorem connWriteStr_unregistered (hun : Unregistered w i) (text : Str) :
    (connWriteStr i text).wp (msgWp (.within ClosesSilently) anyFault)
      (fun _ w' => OnlyTo i w w') w := by
  cases hclosing : (w.conns i).isClosing with
  | true => exact wp_mono (fun _ _ h => h.sent) (connWriteStr_closing hclosing text)
  | false =>
    simp only [connWriteStr, wp_bind, wp_writeTo, wp_editConn, wp_pure, msgWp]
    split_ifs
    · exact .of_eq rfl
    · exact ⟨[(i, cutLine text)], rfl, by simp⟩
    · intro w' hw'
      have hsent : OnlyTo i w.tickWrite w' := hw'.2 hclosing hun
      exact hsent.trans (.of_eq rfl)

/-- This server does not hide its own host name. -/
def World.ShowsItself (w : World) : Prop :=
  ∀ c, w.heap w.thisServer = some c → c.hasMode 'x' = false

/-- The answer is for the connection the line came from. -/
theorem answerNotRegistered_onlyTo (hw : Linked w) (hshows : w.ShowsItself) (hi : w.Has i r c)
    (hc : c.type.registered = false) :
    (answerNotRegistered r).wp (plainWp (.within ClosesSilently) anyFault)
      (fun _ w' => OnlyTo i w w') w := by
  have hconn : c.connId = some i := hw.link i r c hi.client hi.cell
  have hserver : c.type ≠ .server := fun h => by simp [h, ClientType.registered] at hc
  have hwrite (conn : Conn) (hclient : conn.client = (w.conns i).client) (text : Str) :
      (ircWriteStrClientPrefix r w.thisServer text).wp (msgWp (.within ClosesSilently) anyFault)
        (fun _ w' => OnlyTo i w w') (w.setConn i conn) := by
    have hhop : (w.setConn i conn).nextHop r = .ok r :=
      ((Steady.setConn hclient).linked hw).nextHop_eq hi.cell hconn
    have hr : (w.setConn i conn).heap r = some c := hi.cell
    simp only [ircWriteStrClientPrefix, lineFor, wp_bind, wp_nextHop_of_ok hhop, wp_deref,
      onClient_of_some hr, hconn, wp_connOf_some, getPrefix, wp_clientType, hserver, if_false,
      clientMaskCloaked, onClient_anyFault]
    intro d hd
    simp only [hshows d hd, Bool.not_false, if_true, wp_pure]
    have hun : Unregistered (w.setConn i conn) i :=
      ⟨r, c, by simpa [hclient] using hi.client, hr, hc⟩
    exact wp_mono (fun _ w' h => (OnlyTo.of_eq rfl).trans h) (connWriteStr_unregistered hun _)
  simp only [answerNotRegistered, answerError, ircWriteErrClient, ircSetPenalty, connSetPenalty,
    wp_msg, wp_clientID, wp_deref, onClient_of_some hi.cell, hserver, if_false, hconn, wp_getWorld,
    wp_editConn, wp_thisServer]
  apply hwrite
  rfl

/-- A line that is handled has been parsed. -/
theorem Step.line_run {line after : Str}
    (h : Step w (.line i line after) w') :
    ∃ n b, exec n (parseRequest i line after) w = .ok (b, w') := by
  obtain ⟨-, n, hrun⟩ := h
  simp only [Event.handle, Event.program, exec, Prog.run_bind] at hrun
  obtain ⟨b, w₁, hparse, hdone⟩ := Exec.bind_eq_ok.mp hrun
  obtain ⟨-, rfl⟩ := Prod.mk.inj (Except.ok.inj hdone)
  exact ⟨n, b, hparse⟩

/-- Clients that are not registered stay silent, unless they use NOTICE.  A line
with another message command is dropped or answered with an error, whatever it
says; and as long as this server shows its own host name, no other connection
is written to. -/
theorem unregistered_unheard {w : World} {i : ConnId} {r : ClientRef} {c : Client}
    (hi : w.Has i r c) (hc : c.type.registered = false) {line after : Str} {req : Request}
    (hreq : requestOf line after = some req) {cmd : Command}
    (hcmd : findCommand req.command = some cmd) (hsends : cmd.handler.sendsMessage = true)
    (hnotice : cmd.handler ≠ .notice) :
    (∀ n, exec n (parseRequest i line after) w = .ok (true, w) ∨
      exec n (parseRequest i line after) w = exec n (answerNotRegistered r) w) ∧
    (Reachable w → w.ShowsItself → ∀ w', Step w (.line i line after) w' → OnlyTo i w w') := by
  have hrun (n : Nat) : exec n (parseRequest i line after) w = .ok (true, w) ∨
      exec n (parseRequest i line after) w = exec n (answerNotRegistered r) w := by
    have hworld : (liftM getWorld : Full _).wp (fullWp .never noFault)
        (fun a w' => a = w ∧ w' = w) w := by
      simp
    have hprefix : (liftM (validatePrefix i req) : Full _).wp (fullWp .never noFault)
        (fun a w' => a = .ok { req with pfx := none } ∧ w' = w) w := by
      simpa using validatePrefix_unregistered hi hc
    unfold parseRequest
    dsimp only
    split_ifs with hempty
    · exact .inl rfl
    · rw [exec_bind_read _ n hworld]
      split_ifs with hscrub
      · exact .inl rfl
      · rw [show splitRequest (trimStr line) (trimmedRest line after) = some req from hreq]
        dsimp only
        rw [exec_bind_read _ n hprefix]
        exact .inr (handleRequest_unregistered { req with pfx := none } hi hc hcmd hsends hnotice n)
  refine ⟨hrun, fun hw hshows w' hstep => ?_⟩
  obtain ⟨n, b, hline⟩ := hstep.line_run
  rcases hrun n with h | h
  · rw [h] at hline
    obtain ⟨-, rfl⟩ := Prod.mk.inj (Except.ok.inj hline)
    exact .of_eq rfl
  · rw [h, liftM_plain_full, exec_ofPlain] at hline
    exact (execPlain_ends (closer_silent n)
      (answerNotRegistered_onlyTo hw.linked hshows hi hc)).of_ok hline

theorem unregistered_unheard_accept : ∃ w w', Reachable w ∧
    Step w (.line 1 "PRIVMSG alice :hi" []) w' ∧ OnlyTo 1 w w' := by
  obtain ⟨w, hw, hsock, hclient, ⟨c, hc, htype⟩, ⟨d, hd, hmode⟩, hline⟩ :=
    Reachable.exists_runAll 1 [.accept 1 "127.0.0.1"] {} {} "localhost" (P := fun w =>
      (w.conns 1).sock = some 1 ∧ (w.conns 1).client = some 1 ∧
      (∃ c ∈ w.heap 1, c.type = .unknown) ∧ (∃ d ∈ w.heap w.thisServer, d.hasMode 'x' = false) ∧
      (Event.runAll 1 [.line 1 "PRIVMSG alice :hi" []] w).isSome = true) (by decide +kernel)
  obtain ⟨w', hrun⟩ := Option.isSome_iff_exists.mp hline
  have hstep := Event.step_of_runAll hrun
  have hi : w.Has 1 1 c := ⟨by simp [hsock], hclient, hc⟩
  have hreq : requestOf "PRIVMSG alice :hi" [] =
      some { pfx := none, command := "PRIVMSG", argv := ["alice", "hi"] } := by decide
  have hcmd : findCommand "PRIVMSG" =
      some ⟨"PRIVMSG", .privmsg, .userOrServer, 0, some 2, 0⟩ := by decide
  have hshows : w.ShowsItself := fun d' hd' => Option.mem_unique hd hd' ▸ hmode
  exact ⟨w, w', hw, hstep, (unregistered_unheard hi (by rw [htype]; rfl) hreq hcmd rfl
    (by decide)).2 hw hshows w' hstep⟩

/-- A client that has sent nothing else is heard with a NOTICE. -/
theorem unregistered_notice_heard :
    ∃ w w' r c, Reachable w ∧ w.Has 2 r c ∧ c.type = .unknown ∧
      Step w (.line 2 "NOTICE alice :hi" []) w' ∧
      w'.sent.drop w.sent.length = [(1, (":!@127.0.0.1 NOTICE alice :hi" : Str))] := by
  have hrun : (Event.runAll 1 [.accept 1 "127.0.0.1", .line 1 "NICK alice" [],
      .line 1 "USER a 0 * :A" [], .accept 2 "127.0.0.1"] (World.start {} {} "localhost")).any
      (fun w => (w.conns 2).sock.isSome && (w.conns 2).client == some 2 &&
        (w.heap 2).any (fun c => c.type == .unknown) &&
        (Event.runAll 1 [.line 2 "NOTICE alice :hi" []] w).any fun w' =>
          w'.sent.drop w.sent.length == [(1, (":!@127.0.0.1 NOTICE alice :hi" : Str))]) = true := by
    decide +kernel
  obtain ⟨w, hw, hcheck⟩ := (Option.any_eq_true _ _).mp hrun
  simp only [Bool.and_eq_true, Option.any_eq_true, beq_iff_eq] at hcheck
  obtain ⟨⟨⟨hsock, hclient⟩, c, hc, htype⟩, w', hline, hsent⟩ := hcheck
  have hi : w.Has 2 2 c := ⟨fun h => by simp [h] at hsock, hclient, hc⟩
  have hstep : Step w (.line 2 "NOTICE alice :hi" []) w' := Event.step_of_runAll hline
  exact ⟨w, w', 2, c, (Reachable.start {} {} "localhost").runAll hw, hi, htype, hstep, hsent⟩

end Ngircd
