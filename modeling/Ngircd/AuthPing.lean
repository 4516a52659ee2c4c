import Ngircd.Logic
import Ngircd.Daemon

/-!
# PONG after a failed login

`IRC_PONG` logs in a client that has only been waiting for this line.  It does not look at
the result of `Login_User`, which may have closed the connection.
-/

namespace Ngircd

open Lib

variable {w : World} {client : ClientRef} {c : Client} {i : ConnId} {req : Request}

/-- The state in which `IRC_PONG` calls `Login_User`. -/
def World.pongReceived (w : World) (i : ConnId) : World :=
  w.setConn i { w.conns i with authPing := 0 }

/-- `Login_User` closes the connection, and the structure of the client is gone. -/
def World.LoginCloses (w : World) (n : Nat) (client : ClientRef) : Prop :=
  ∃ b w', exec n (loginUser client) w = .ok (b, w') ∧ w'.heap client = none

theorem exec_ircPong (hc : w.heap client = some c) (htype : c.type = .waitAuthPing)
    (hconn : c.connId = some i) (hargc : 1 ≤ req.argc) (hping : (w.conns i).authPing ≠ 0)
    (htoken : (w.conns i).authPing = atoi (req.arg 0)) (n : Nat) :
    exec n (ircPong client req) w = exec n (loginUser client >>= fun _ => do
      let _ ← clientType client
      editConn i noPongPending
      return connected) (w.pongReceived i) := by
  unfold ircPong
  rw [exec_bind_read (v := c.type) _ _ (by simp [onClient_of_some hc]), if_neg (by omega),
    if_neg (by simp [htype]), if_neg (by simp [htype])]
  unfold receivePong
  rw [exec_bind_read (v := c) _ _ (by simp [onClient_of_some hc]), hconn,
    exec_bind_read (v := i) _ _ (by simp [connOf]), exec_bind_read (v := w) _ _ (by simp)]
  simp only [hping, htoken.symm, if_false, if_true]
  change exec n (liftM (clientType client) >>= _) (w.pongReceived i) = _
  have hread : (liftM (clientType client) : Full ClientType).wp (fullWp .never noFault)
      (fun a w' => a = .waitAuthPing ∧ w' = w.pongReceived i) (w.pongReceived i) := by
    have hc' : (w.pongReceived i).heap client = some c := hc
    simp [onClient_of_some hc', htype]
  rw [exec_bind_read _ _ hread]
  rfl

/-- Whoever reads the type of a client that is gone fails. -/
theorem exec_clientType_of_none {α : Type} (hgone : w.heap client = none)
    (f : ClientType → Full α) (n : Nat) :
    exec n ((clientType client : Full ClientType) >>= f) w = .error (.data (.freedClient client)) := by
  have hwp : ((clientType client : Full ClientType) >>= f).wp
      (fullWp .never (· = .data (.freedClient client))) (fun _ _ => False) w := by
    simp [OnClient, hgone]
  exact (exec_ends (Closing.never_rightAbout _) hwp).error_eq

/-- Whenever the login closes the connection, `IRC_PONG` goes on with the client that is gone,
and it does not answer `DISCONNECTED`. -/
theorem pong_after_login (hc : w.heap client = some c) (htype : c.type = .waitAuthPing)
    (hconn : c.connId = some i) (hargc : 1 ≤ req.argc) (hping : (w.conns i).authPing ≠ 0)
    (htoken : (w.conns i).authPing = atoi (req.arg 0)) (n : Nat) :
    ((w.pongReceived i).LoginCloses n client →
      exec n (ircPong client req) w = .error (.data (.freedClient client))) ∧
    (((w.pongReceived i).LoginCloses n client →
      ∃ w', exec n (ircPong client req) w = .ok (disconnected, w')) ↔
        ¬(w.pongReceived i).LoginCloses n client) := by
  have hfault : (w.pongReceived i).LoginCloses n client →
      exec n (ircPong client req) w = .error (.data (.freedClient client)) := by
    rintro ⟨b, w', hrun, hgone⟩
    have hrest := exec_clientType_of_none hgone (fun _ => do
      editConn i noPongPending
      return connected) n
    rw [exec_ircPong hc htype hconn hargc hping htoken]
    simp only [exec] at hrun hrest ⊢
    rw [Prog.run_bind, Exec.bind_apply, hrun]
    exact hrest
  refine ⟨hfault, fun hstops hcloses => ?_, fun hopen hcloses => absurd hcloses hopen⟩
  obtain ⟨w', hrun⟩ := hstops hcloses
  cases (hfault hcloses).symm.trans hrun

/-- A client without the password that waits for the PONG line on the connection 1. -/
def waiting : World where
  conns i := if i = 1 then { sock := some 1, client := some 1, authPing := 7 } else {}
  poolSize := 2
  heap r := if r = 0 then some { type := .server, id := "irc.a", introducer := 0 }
    else if r = 1 then some { type := .waitAuthPing, id := "ann", connId := some 1, introducer := 0 }
    else none
  order := [1, 0]
  nextRef := 2
  conf := { authPing := true, serverPwd := "secret" }

theorem pong_after_login_waiting :
    exec 1 (ircPong 1 { pfx := none, command := "PONG", argv := ["7"] }) waiting =
      .error (.data (.freedClient 1)) := by
  have hgone : (exec 1 (loginUser 1) (waiting.pongReceived 1)).toOption.any
      (fun r => (r.2.heap 1).isNone) = true := by decide +kernel
  refine (pong_after_login rfl rfl rfl (by decide) (by decide) (by decide) 1).1 ?_
  cases hrun : exec 1 (loginUser 1) (waiting.pongReceived 1) with
  | error e =>
    rw [hrun] at hgone
    exact absurd hgone Bool.false_ne_true
  | ok r =>
    rw [hrun, Except.toOption, Option.any_some] at hgone
    exact ⟨r.1, r.2, hrun, Option.isNone_iff_eq_none.mp hgone⟩

/-- With a password that the client has not sent, the line reads the type of a client that is
gone. -/
theorem pong_reads_freed_client :
    ∃ w, Reachable w ∧ w.conf.authPing = true ∧
      exec 1 (parseRequest 1 "PONG 1" []) w = .error (.data (.freedClient 1)) := by
  refine Reachable.exists_runAll 1 [.accept 1 "127.0.0.1", .line 1 "CAP LS" [], .line 1 "NICK ann" [],
    .line 1 "USER a 0 * :A" [], .line 1 "CAP END" []] { authPing := true, serverPwd := "secret" } {}
    "localhost" ?_
  decide +kernel

end Ngircd
