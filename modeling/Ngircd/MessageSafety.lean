import Ngircd.Daemon
import Ngircd.Logic

/-!
# The message commands

PRIVMSG, NOTICE and SQUERY share `Send_Message`, which reads two parameters that
the command table does not ask for.
-/

namespace Ngircd

open Lib

variable {w : World} {r client : ClientRef} {c : Client} {req : Request}

/-! ## Absent parameters -/

/-- Faults other than the use of a parameter that is not there. -/
def Fault.NotAbsent (e : Fault) : Prop := ∀ k, e ≠ .absentParameter k

/-- Nothing is said about the states a program goes through. -/
abbrev anyChange : World → World → Prop := fun _ _ => True

section

variable {C : ConnId → World → World → Prop}

theorem anyChange_basicFrame : BasicFrame C anyChange where
  __ := BasicAside.of_rest (R := anyChange) fun _ _ _ _ _ => trivial
  refl _ := trivial
  trans _ _ _ _ _ := trivial
  queue _ _ _ _ _ := trivial
  fail _ _ _ _ _ _ := trivial
  editConn _ _ _ := trivial
  cloak _ _ _ _ _ := trivial
  editClient _ _ _ _ _ := trivial

theorem anyChange_shutFrame : ShutFrame C anyChange :=
  { anyChange_basicFrame.toLeaveFrame with
    unlink := fun _ _ => trivial
    free := fun _ _ => trivial
    startClosing := fun _ _ => trivial
    closeSocket := fun _ _ => trivial
    initConn := fun _ _ _ => trivial }

end

section NotAbsent

variable {α : Type}

@[simp] theorem notAbsent_data (f : DataFault) : (Fault.data f).NotAbsent := fun _ h => nomatch h

/-- Closing and running out of fuel use no parameter. -/
abbrev notAbsentWp : Transformer PlainOp.Res World :=
  plainWp (.within fun _ => anyChange) Fault.NotAbsent

@[simp] theorem onClient_notAbsent {P : Client → Prop} :
    OnClient Fault.NotAbsent w r P ↔ ∀ c, w.heap r = some c → P c := by
  simp [OnClient]

/-- Parameters are read by plain programs only: no basic program ends with the
use of an absent one. -/
@[simp] theorem basic_notAbsent (p : Basic α) :
    p.wp (basicWp (.within fun _ => anyChange) Fault.NotAbsent) (fun _ _ => True) w :=
  anyChange_basicFrame.wp notAbsent_data p fun _ _ _ => trivial

@[simp] theorem msg_notAbsent (p : Msg α) :
    p.wp (msgWp (.within fun _ => anyChange) Fault.NotAbsent) (fun _ _ => True) w :=
  anyChange_basicFrame.toMsgFrame.wp notAbsent_data p fun _ _ _ => trivial

/-- A program whose weakest precondition allows no absent parameter uses none. -/
theorem execPlain_ne_absent {p : Plain α} (h : p.wp notAbsentWp (fun _ _ => True) w)
    (n k : Nat) : execPlain n p w ≠ .error (.absentParameter k) := by
  intro hrun
  have hfuel : Fault.NotAbsent .outOfFuel := fun _ h => nomatch h
  have hclose := anyChange_shutFrame.rightAbout hfuel notAbsent_data n
  have hends := execPlain_ends hclose h
  rw [Exec.Ends, hrun] at hends
  exact hends k rfl

end NotAbsent

/-! ## Dispatched requests -/

/-- A request that `Handle_Request` gives to the handler of a command. -/
structure Dispatched (w : World) (client : ClientRef) (c : Client) (req : Request)
    (cmd : Command) : Prop where
  alive : w.heap client = some c
  found : findCommand req.command = some cmd
  allowed : cmd.mask.allows c.type = true
  enough : cmd.minArgc ≤ req.argc
  notMore : ∀ m ∈ cmd.maxArgc, req.argc ≤ m

/-- The handlers that are calls of `Send_Message`. -/
def Handler.sendsMessage : Handler → Bool
  | .privmsg | .notice | .squery => true
  | _ => false

/-- One error for the client, with a text made from its name, and nothing else. -/
def answerError (client : ClientRef) (text : Str → Str) : Plain Bool := do
  ircWriteErrClient client (text (← clientID client))

section SendMessage

theorem wp_param_of_lt {K : Closing} {E : Fault → Prop} {i : Nat} {Q : Str → World → Prop}
    (h : i < req.argc) : (param req i).wp (plainWp K E) Q w ↔ Q (req.arg i) w := by
  have harg : req.argv[i]? = some (req.arg i) := by
    simp [Request.arg, List.getD, List.getElem?_eq_getElem h]
  simp [param, harg]

/-- With two parameters nothing that is used can be absent. -/
theorem sendMessage_of_two_le (h : 2 ≤ req.argc) (type : ClientType) (sendErrors : Bool) :
    (sendMessage client req type sendErrors).wp notAbsentWp (fun _ _ => True) w := by
  unfold sendMessage
  cases messageCheckSend req sendErrors with
  | noRecipient => simp
  | noText => simp
  | needMoreParams => simp
  | ok =>
    simp only [wp_msg, wp_clientType, wp_getWorld, onClient_notAbsent]
    intro c hc
    cases w.messageFrom client c.type req.pfx with
    | none => simp
    | some source =>
      simp [wp_param_of_lt (show 0 < req.argc by omega),
        wp_param_of_lt (show 1 < req.argc by omega)]

/-- The commands that report errors answer a request with too few parameters. -/
theorem sendMessage_of_lt_two (h : req.argc < 2) (client : ClientRef) (type : ClientType) :
    ∃ text, sendMessage client req type true = answerError client text := by
  have hargc : req.argc = 0 ∨ req.argc = 1 := by omega
  rcases hargc with h0 | h1
  · refine ⟨fun name => format errNorecipientMsg [name, req.command], ?_⟩
    simp [sendMessage, messageCheckSend, h0, answerError]
  · refine ⟨fun name => format errNotexttosendMsg [name], ?_⟩
    simp [sendMessage, messageCheckSend, h1, answerError]

/-- NOTICE reports no errors, so its check lets such a request pass. -/
theorem messageCheckSend_silent : messageCheckSend req false = .ok := by
  simp [messageCheckSend]

/-- NOTICE with too few parameters is answered if there is nobody it could be
from; otherwise it uses the text that is not there. -/
theorem sendMessage_silent_of_lt_two (h : req.argc < 2) (hc : w.heap client = some c)
    (type : ClientType) (n : Nat) :
    execPlain n (sendMessage client req type false) w =
      match w.messageFrom client c.type req.pfx with
      | none => execPlain n (answerError client fun name =>
        format errNosuchnickMsg [name, req.pfx.getD []]) w
      | some _ => .error (.absentParameter 1) := by
  have hreadType : (liftM (clientType client) : Plain _).wp (plainWp .never noFault)
      (fun a w' => a = c.type ∧ w' = w) w := by
    simp [onClient_of_some hc]
  have hreadWorld : (liftM getWorld : Plain _).wp (plainWp .never noFault)
      (fun a w' => a = w ∧ w' = w) w := by
    simp
  have habsent : req.argv[1]? = none := by
    simpa [Request.argc] using Nat.le_of_lt_succ h
  unfold sendMessage
  rw [messageCheckSend_silent]
  dsimp only
  rw [execPlain_bind_read _ n hreadType, execPlain_bind_read _ n hreadWorld]
  cases w.messageFrom client c.type req.pfx with
  | none => rfl
  | some source =>
    simp only [param, habsent]
    rfl

end SendMessage

/-- No run of a message command ends in the use of an absent parameter, and one
with too few parameters does nothing but answer the client. -/
def UsesParametersSafely (w : World) (client : ClientRef) (req : Request) (h : Handler) : Prop :=
  (∀ n k, exec n (callHandler client req h) w ≠ .error (.absentParameter k)) ∧
    (req.argc < 2 → ∃ text, ∀ n,
      exec n (callHandler client req h) w = exec n (answerError client text) w)

/-- PRIVMSG and SQUERY, which report errors, are safe. -/
theorem usesParametersSafely_of_errors {h : Handler} (type : ClientType)
    (hcall : callHandler client req h = sendMessage client req type true) :
    UsesParametersSafely w client req h := by
  unfold UsesParametersSafely
  simp only [hcall, liftM_plain_full, exec_ofPlain]
  by_cases hargc : 2 ≤ req.argc
  · exact ⟨execPlain_ne_absent (sendMessage_of_two_le hargc type true),
      fun hlt => absurd hlt (by omega)⟩
  · obtain ⟨text, htext⟩ := sendMessage_of_lt_two (show req.argc < 2 by omega) client type
    rw [htext]
    exact ⟨execPlain_ne_absent (by simp [answerError]), fun _ => ⟨text, fun _ => rfl⟩⟩

/-- NOTICE is safe exactly if there are two parameters or nobody it is from. -/
theorem usesParametersSafely_notice_iff (hc : w.heap client = some c) :
    UsesParametersSafely w client req .notice ↔
      2 ≤ req.argc ∨ w.messageFrom client c.type req.pfx = none := by
  have hcall : callHandler client req .notice = sendMessage client req .user false := rfl
  unfold UsesParametersSafely
  simp only [hcall, liftM_plain_full, exec_ofPlain]
  by_cases hargc : 2 ≤ req.argc
  · have hsafe : ∀ n k, execPlain n (sendMessage client req .user false) w ≠ _ :=
      execPlain_ne_absent (sendMessage_of_two_le hargc .user false)
    exact ⟨fun _ => .inl hargc, fun _ => ⟨hsafe, fun hlt => absurd hlt (by omega)⟩⟩
  · have hrun := sendMessage_silent_of_lt_two (show req.argc < 2 by omega) hc .user
    cases hfrom : w.messageFrom client c.type req.pfx with
    | none =>
      simp only [hfrom] at hrun
      simp only [hrun, or_true, iff_true]
      exact ⟨execPlain_ne_absent (by simp [answerError]), fun _ => ⟨_, fun _ => rfl⟩⟩
    | some source =>
      simp only [hfrom] at hrun
      simp only [hargc, reduceCtorEq, or_self, iff_false]
      rintro ⟨hsafe, -⟩
      exact hsafe 0 1 (hrun 0)

/-- The parameters of the message commands: a dispatched request is handled
without the use of an absent parameter, and delivers nothing if it has too few,
unless it is a NOTICE with too few parameters from somebody who is known. -/
theorem messageParameters_iff {c : Client} {req : Request} {cmd : Command}
    (hd : Dispatched w client c req cmd) (hcmd : cmd.handler.sendsMessage = true) :
    UsesParametersSafely w client req cmd.handler ↔
      (cmd.handler = .notice → 2 ≤ req.argc ∨ w.messageFrom client c.type req.pfx = none) := by
  cases hh : cmd.handler with
  | privmsg =>
    exact iff_of_true (usesParametersSafely_of_errors .user rfl) (fun h => nomatch h)
  | squery =>
    exact iff_of_true (usesParametersSafely_of_errors .service rfl) (fun h => nomatch h)
  | notice => simpa using usesParametersSafely_notice_iff hd.alive
  | _ => simp [hh, Handler.sendsMessage] at hcmd

/-- One connection that has been accepted and has sent nothing yet. -/
def lobby : World :=
  (World.start {} {} "localhost").openConn 1 { introducer := 0 } (newConn 0)

theorem messageParameters_lobby :
    UsesParametersSafely lobby 1 { pfx := none, command := "notice", argv := ["alice", "hi"] }
        .notice ↔
      (Handler.notice = .notice → 2 ≤ 2 ∨ lobby.messageFrom 1 .unknown none = none) := by
  have hd : Dispatched lobby 1 { introducer := 0, connId := some 1, hops := 0, token := 0 }
      { pfx := none, command := "notice", argv := ["alice", "hi"] }
      ⟨"NOTICE", .notice, .any, 0, none, 0⟩ :=
    ⟨rfl, by decide, rfl, by decide, by simp⟩
  exact messageParameters_iff hd rfl

/-- A client that has just connected stops the daemon with the line `NOTICE`. -/
theorem notice_uses_absent_text :
    Event.handleAll 1 [.accept 1 "127.0.0.1", .line 1 "NOTICE" []]
      (World.start {} {} "localhost") = .error (.absentParameter 1) := rfl

end Ngircd
