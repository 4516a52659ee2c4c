import Ngircd.Daemon
import Ngircd.Logic

/-!
# Which sockets are read

The main loop tells the io layer from which sockets it wants to read.  The wish
is a bit in a table of the io layer that stays as it is until it is changed.
This module models the table, the part of the main loop that sets the bits, and
reading itself, which happens where a bit is set.
-/

namespace Ngircd

open Lib

variable {w w' : World} {t fd : Nat}

/-! ## The io layer -/

/-- `what` of an `io_event`: `IO_WANTREAD` and `IO_WANTWRITE`. -/
structure Interest where
  read : Bool := false
  write : Bool := false
  deriving DecidableEq, Repr

/-- `io_events`, by descriptor. -/
abbrev IoEvents := Nat → Interest

/-- `io_event_create`. -/
def ioEventCreate (io : IoEvents) (fd : Nat) (what : Interest) : IoEvents :=
  Function.update io fd what

/-- `io_event_add`. -/
def ioEventAdd (io : IoEvents) (fd : Nat) (what : Interest) : IoEvents :=
  Function.update io fd ⟨(io fd).read || what.read, (io fd).write || what.write⟩

/-- `io_event_del`. -/
def ioEventDel (io : IoEvents) (fd : Nat) (what : Interest) : IoEvents :=
  Function.update io fd ⟨(io fd).read && !what.read, (io fd).write && !what.write⟩

/-- `IO_WANTREAD`. -/
def wantRead : Interest := { read := true }

/-! ## The main loop -/

/-- `Conn_IsReadableClient`. -/
def connIsReadableClient (conn : Conn) (t : Nat) : Bool :=
  conn.sock.isSome && !conn.resolving && !conn.isConnecting && decide (conn.delaytime ≤ t)

/-- One turn of the loop in `Conn_Update_Read_Interest`; the second component is
`command_available`. -/
def updateReadInterestOf (conns : ConnId → Conn) (t : Nat) (st : IoEvents × Bool) (i : ConnId) :
    IoEvents × Bool :=
  if !connIsReadableClient (conns i) t then st
  else
    let fd := (conns i).sock.getD 0
    if (conns i).rbuf.length ≥ commandLen then (ioEventDel st.1 fd wantRead, true)
    else (ioEventAdd st.1 fd wantRead, st.2)

/-- `Conn_Update_Read_Interest`. -/
def connUpdateReadInterest (w : World) (t : Nat) (io : IoEvents) : IoEvents × Bool :=
  (List.range w.poolSize).foldl (updateReadInterestOf w.conns t) (io, false)

/-- `Read_Request`: bytes are appended to the read buffer. -/
def World.received (w : World) (i : ConnId) (bytes : Str) : World :=
  w.setConn i { w.conns i with rbuf := (w.conns i).rbuf ++ bytes }

/-- The daemon with its io layer. -/
structure Loop where
  world : World
  io : IoEvents := fun _ => {}

namespace Loop

/-- The descriptors an event opens, with what is wanted of them first. -/
def opened (io : IoEvents) : Event → IoEvents
  | .accept i _ => ioEventCreate io i { read := true }
  | .connect _ i _ => ioEventCreate io i { write := true }
  | .linked i => ioEventAdd io i { read := true, write := true }
  | _ => io

/-- The table after an event that led to `w'`: descriptors of connections that
have been closed are out of it. -/
def ioAfter (io : IoEvents) (e : Event) (prepared w' : World) : IoEvents := fun fd =>
  if (prepared.conns fd).sock ≠ none ∧ (w'.conns fd).sock = none then {} else opened io e fd

/-- What can happen in the main loop. -/
inductive Next : Loop → Loop → Prop where
  /-- Something is handled. -/
  | event {l : Loop} {w' : World} {e : Event} : Step l.world e w' →
      Next l ⟨w', ioAfter l.io e (e.prepare l.world) w'⟩
  /-- `Conn_Update_Write_Interest` and `Handle_Write` change what is to be written. -/
  | writeInterest {l : Loop} {io : IoEvents} : (∀ fd, (io fd).read = (l.io fd).read) →
      Next l { l with io }
  /-- `Conn_Update_Read_Interest` runs, with the time the loop has started at. -/
  | readInterest {l : Loop} (t : Nat) :
      Next l { l with io := (connUpdateReadInterest l.world t l.io).1 }
  /-- `Read_Request` takes bytes from a socket that is wanted. -/
  | receive {l : Loop} (i : ConnId) (bytes : Str) : (l.world.conns i).sock ≠ none →
      (l.io i).read = true → Next l { l with world := l.world.received i bytes }

/-- The states of the main loop. -/
inductive Reachable : Loop → Prop where
  | start (conf : Conf) (env : Env) (host : Str) : Reachable ⟨World.start conf env host, fun _ => {}⟩
  | next {l l' : Loop} : Reachable l → Next l l' → Reachable l'

end Loop

/-! ## Sockets are indices -/

/-- The socket of a slot is the index of that slot. -/
def SocketsAreIndices (w : World) : Prop :=
  ∀ i fd, (w.conns i).sock = some fd → fd = i

/-- No slot has a socket that it did not have before. -/
def NoNewSockets : World → World → Prop :=
  EachSlot fun c c' => c'.sock = none ∨ c'.sock = c.sock

theorem noNewSockets_order :
    SlotOrder fun c c' => c'.sock = none ∨ c'.sock = c.sock where
  refl _ := .inr rfl
  trans _ _ _ h₁ h₂ := by
    rcases h₂ with h | h
    · exact .inl h
    · rw [h]
      exact h₁
  bytesOut _ _ := .inr rfl
  edit _ e := .inr (e.sock_eq _)
  startClosing _ := .inr rfl
  closeSocket _ := .inl rfl
  initConn _ _ := .inl rfl
  pwd _ _ := .inr rfl
  authPing _ _ := .inr rfl

theorem SocketsAreIndices.of_noNewSockets (hw : SocketsAreIndices w)
    (h : NoNewSockets w w') : SocketsAreIndices w' := by
  intro i fd hfd
  rcases h i with hnone | heq
  · rw [hnone] at hfd
    exact nomatch hfd
  · exact hw i fd (by rw [← heq, hfd])

theorem SocketsAreIndices.openConn (hw : SocketsAreIndices w) (i : ConnId) (c : Client)
    (conn : Conn) : SocketsAreIndices (w.openConn i c conn) := by
  intro j fd hfd
  by_cases hj : j = i
  · subst hj
    simp only [World.openConn, World.setConn_conns_self, Option.some.injEq] at hfd
    exact hfd.symm
  · simp only [World.openConn, World.setConn_conns_ne _ hj] at hfd
    -- The other slots are those of the pool, which may just have been cleared.
    change ((w.growPool i).conns j).sock = some fd at hfd
    simp only [World.growPool] at hfd
    split_ifs at hfd
    · exact nomatch hfd
    · exact hw j fd hfd

theorem SocketsAreIndices.step {e : Event} (hw : SocketsAreIndices w)
    (h : Step w e w') : SocketsAreIndices w' := by
  obtain ⟨-, n, hrun⟩ := h
  have hprepared : SocketsAreIndices (e.prepare w) := by
    cases e with
    | accept i ip => exact hw.openConn i _ _
    | connect k i ip => exact hw.openConn i _ _
    | ping i => exact hw.of_noNewSockets (noNewSockets_order.setConn (.inr rfl))
    | _ => exact hw
  exact hprepared.of_noNewSockets (noNewSockets_order.frame.exec_ok hrun)

theorem Loop.Reachable.socketsAreIndices {l : Loop} (hl : l.Reachable) :
    SocketsAreIndices l.world := by
  induction hl with
  | start conf env host => exact fun i fd h => nomatch h
  | next _ hnext ih =>
    cases hnext with
    | event hstep => exact ih.step hstep
    | writeInterest _ => exact ih
    | readInterest t => exact ih
    | receive i bytes _ _ => exact ih.of_noNewSockets (noNewSockets_order.setConn (.inr rfl))

/-! ## Connections that have to wait -/

/-- A penalty is running, or the resolver is. -/
def Conn.Waiting (conn : Conn) (t : Nat) : Prop := t < conn.delaytime ∨ conn.resolving = true

theorem Conn.Waiting.not_readable {conn : Conn} (h : conn.Waiting t) :
    connIsReadableClient conn t = false := by
  rcases h with hdelay | hresolving
  · have hlate : ¬conn.delaytime ≤ t := by omega
    simp [connIsReadableClient, hlate]
  · simp [connIsReadableClient, hresolving]

/-- One turn of the loop leaves the other descriptors alone, and all of them if
the connection is not readable. -/
theorem updateReadInterestOf_apply {conns : ConnId → Conn} {i : ConnId}
    (h : connIsReadableClient (conns i) t = false ∨ (conns i).sock ≠ some fd)
    (st : IoEvents × Bool) : (updateReadInterestOf conns t st i).1 fd = st.1 fd := by
  unfold updateReadInterestOf
  split_ifs with hreadable hfull
  · rfl
  all_goals
    have hsome : (conns i).sock.isSome = true := by
      simp only [connIsReadableClient, Bool.not_eq_true', Bool.not_eq_false, Bool.and_eq_true]
        at hreadable
      exact hreadable.1.1.1
    obtain ⟨fd', hfd'⟩ := Option.isSome_iff_exists.mp hsome
    have hne : fd ≠ fd' := by
      rcases h with hnot | hother
      · simp [hnot] at hreadable
      · rintro rfl
        exact hother hfd'
    simp [ioEventDel, ioEventAdd, hfd', hne]

/-- A descriptor that no readable connection has keeps its interest. -/
theorem connUpdateReadInterest_apply
    (h : ∀ i, connIsReadableClient (w.conns i) t = false ∨ (w.conns i).sock ≠ some fd)
    (io : IoEvents) : (connUpdateReadInterest w t io).1 fd = io fd := by
  -- Induction on the slots that are still to be visited.
  have hfold (l : List ConnId) (st : IoEvents × Bool) :
      (l.foldl (updateReadInterestOf w.conns t) st).1 fd = st.1 fd := by
    induction l generalizing st with
    | nil => rfl
    | cons i l ih => rw [List.foldl_cons, ih, updateReadInterestOf_apply (h i)]
  exact hfold _ _

/-- A connection that has to wait is read from after `Conn_Update_Read_Interest`
exactly if it was before: the call does not look at it. -/
theorem waiting_not_read_iff {l : Loop} (hl : l.Reachable) {t fd : Nat} {i : ConnId}
    (hsock : (l.world.conns i).sock = some fd) (hwait : (l.world.conns i).Waiting t) :
    ((connUpdateReadInterest l.world t l.io).1 fd).read = false ↔ (l.io fd).read = false := by
  have hindices := hl.socketsAreIndices
  rw [connUpdateReadInterest_apply]
  intro j
  by_cases hj : j = i
  · subst hj
    exact .inl hwait.not_readable
  · right
    intro hsock'
    have hfd := hindices i fd hsock
    have hfd' := hindices j fd hsock'
    exact hj (hfd'.symm.trans hfd)

/-- The daemon right after it has accepted a connection: the resolver is running. -/
def justAccepted : Loop :=
  let e : Event := .accept 1 "127.0.0.1"
  let w := World.start {} {} "localhost"
  match e.handle 1 w with
  | .ok (_, w') => ⟨w', Loop.ioAfter (fun _ => {}) e (e.prepare w) w'⟩
  | .error _ => ⟨w, fun _ => {}⟩

theorem justAccepted_reachable : justAccepted.Reachable :=
  .next (.start {} {} "localhost") (.event (e := .accept 1 "127.0.0.1") ⟨rfl, 1, rfl⟩)

theorem waiting_not_read_iff_justAccepted :
    ((connUpdateReadInterest justAccepted.world 0 justAccepted.io).1 1).read = false ↔
      (justAccepted.io 1).read = false :=
  waiting_not_read_iff justAccepted_reachable (i := 1) rfl (.inr rfl)

/-- The socket of a connection whose resolver is running is read from. -/
theorem resolving_connection_is_read :
    justAccepted.Reachable ∧ (justAccepted.world.conns 1).sock = some 1 ∧
      (justAccepted.world.conns 1).Waiting 0 ∧
      ((connUpdateReadInterest justAccepted.world 0 justAccepted.io).1 1).read = true :=
  ⟨justAccepted_reachable, rfl, .inr rfl, rfl⟩

end Ngircd
