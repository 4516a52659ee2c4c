import Ngircd.ReadInterest
import Ngircd.Reloads
import Ngircd.Senders

/-!
# Ping timeouts

A registered client that is silent for `PingTimeout` seconds is sent a PING, and if it stays
silent for `PongTimeout` more seconds, its connection is closed.  The decision rests on two
time stamps: `lastdata`, which the reader writes, and `lastping`, which the checker, the
reader and the PONG handler write.  Here `lastping` may be 0, for a new connection, or 1, when
no PONG is pending.  This module follows one connection through the runs of the daemon and
keeps the history that the stamps stand for.
-/

namespace Ngircd

open Lib

/-! ## Reading from a connection -/

/-- `maxbps` of `Read_Request`. -/
def maxbps : Nat := commandLen / 2

/-- `Throttle_Connection`. -/
def World.throttleConnection (w : World) (i : ConnId) (c : Client) : World :=
  match c.type with
  | .server | .unknownServer | .service => w
  | _ =>
    if c.hasMode 'F' then w
    else
      -- `Conn_SetPenalty` with one second
      let limit := w.conf.maxPenaltyTime
      let seconds := if 0 ≤ limit ∧ limit < 1 then limit.toNat else 1
      w.setConn i { w.conns i with delaytime := max (w.conns i).delaytime w.now + seconds }

/-- `Conn_Update_Read_Accounting` notes the time of a read from a registered client. -/
def World.noteRead (w : World) (i : ConnId) : World :=
  if w.hasRegistered i then
    let conn := w.conns i
    w.setConn i { conn with
      bps := if conn.lastdata ≠ w.now then 0 else conn.bps
      lastdata := w.now
      lastping := if conn.lastping > w.now then w.now else conn.lastping }
  else w

/-- `Conn_Update_Read_Accounting`, if there is still a client. -/
def World.updateReadAccounting (w : World) (i : ConnId) : World :=
  match (w.conns i).client.bind w.heap with
  | none => w
  | some c =>
    let w := w.noteRead i
    if (w.conns i).bps ≥ maxbps then w.throttleConnection i c else w

/-- The end of `Read_Request`: so many bytes have been handled. -/
def World.readDone (w : World) (i : ConnId) (processed : Nat) : World :=
  (w.setConn i { w.conns i with bps := (w.conns i).bps + processed }).updateReadAccounting i

/-! ## Runs -/

/-- What the main loop does. -/
inductive Turn where
  | event (e : Event)
  /-- `Read_Request`: bytes are read, lines are handled, and the read is accounted for. -/
  | read (i : ConnId) (bytes : Str) (lines : List Event) (processed : Nat)
  | reload (new : Conf) (valid : Bool)

/-- Lines of a connection are handled, and time passes. -/
def Event.during (i : ConnId) : Event → Bool
  | .line j _ _ => j == i
  | .clock _ => true
  | _ => false

/-- What is left of a run that has ended. -/
def finalWorld : Except Fault (Unit × World) → Option World
  | .ok ((), w) => some w
  | .error _ => none

namespace Turn

/-- The state after a turn; `n` bounds how deep closes nest. -/
def perform (n : Nat) : Turn → World → Option World
  | event e, w => Event.runAll n [e] w
  | read i bytes lines processed, w =>
    if (w.conns i).sock ≠ none ∧ lines.all (Event.during i) then
      (Event.runAll n lines (w.received i bytes)).map (·.readDone i processed)
    else none
  | reload new valid, w => finalWorld (rehash n new valid w)

end Turn

/-- The times at which data was read from a connection, and those at which PINGs were sent. -/
structure LinkHistory where
  reads : List Nat := []
  pings : List Nat := []
  deriving DecidableEq, Repr

/-- The history of the connection `i` after a turn: it starts anew with a new connection. -/
def Turn.history (i : ConnId) (w : World) (h : LinkHistory) : Turn → LinkHistory
  | .event (.accept j _) | .event (.connect _ j _) => if j = i then {} else h
  | .event (.ping j) => if j = i then { h with pings := w.now :: h.pings } else h
  | .read j _ _ _ => if j = i then { h with reads := w.now :: h.reads } else h
  | _ => h

/-- The clock does not show 0 when the connection is opened; its client is not pinged in a
second in which data was read; and data that is read while a PONG is pending is read from a
client that is registered after that, or gone. -/
def Turn.Noted (i : ConnId) (w : World) (h : LinkHistory) (w' : World) : Turn → Prop
  | .event (.accept j _) | .event (.connect _ j _) => j = i → 0 < w.now
  | .event (.ping j) => j = i → ∀ r ∈ h.reads, r < w.now
  | .read j _ _ _ => j = i → (w.conns i).lastdata < (w.conns i).lastping →
      w'.hasRegistered i = true ∨ (w'.conns i).sock = none
  | _ => True

/-- The runs of the daemon all of whose turns meet a condition, with the history of the
connection `i`. -/
inductive LinkRun (i : ConnId) (P : World → LinkHistory → World → Turn → Prop) :
    World → LinkHistory → Prop where
  | start (conf : Conf) (env : Env) (host : Str) : LinkRun i P (World.start conf env host) {}
  | turn {w w' : World} {h : LinkHistory} {n : Nat} (t : Turn) : LinkRun i P w h →
      P w h w' t → t.perform n w = some w' → LinkRun i P w' (t.history i w h)

/-! ## What a turn does to the stamps -/

section

variable {w w' : World} {i j : ConnId} {n : Nat} {h : LinkHistory}

theorem sameNow_frame :
    FullFrame (fun _ w w' => w'.now = w.now) fun w w' : World => w'.now = w.now where
  refl _ := rfl
  trans _ _ _ h₁ h₂ := h₂.trans h₁
  queue _ _ _ _ _ := rfl
  fail _ _ _ _ _ h := h
  editConn _ _ _ := rfl
  cloak _ _ _ _ _ := rfl
  __ := BasicAside.of_rest (R := fun w w' => w'.now = w.now) fun _ _ _ _ _ => rfl
  editClient _ _ _ _ _ := rfl
  unlink _ _ := rfl
  free _ _ := rfl
  startClosing _ _ := rfl
  closeSocket _ _ := rfl
  initConn _ _ _ := rfl
  close _ _ _ h := h
  newRemote _ _ _ := rfl
  setType _ _ _ _ _ := rfl
  setId _ _ _ _ _ := rfl
  setCaps _ _ _ _ _ := rfl
  ownIntroducer _ _ _ _ := rfl
  setPwd _ _ _ := rfl
  setAuthPing _ _ _ := rfl

/-- A connection that stays open keeps its stamps, but a PONG may be taken as received. -/
def Conn.KeepsStamps (c c' : Conn) : Prop :=
  c'.sock = none ∨ c'.sock = c.sock ∧ c'.lastdata = c.lastdata ∧
    (c'.lastping = c.lastping ∨ c'.lastping = 1)

theorem keepsStamps_order : SlotOrder Conn.KeepsStamps where
  refl _ := .inr ⟨rfl, rfl, .inl rfl⟩
  trans c₁ c₂ c₃ h₁ h₂ := by
    rcases h₂ with hclosed | ⟨hsock, hdata, hping⟩
    · exact .inl hclosed
    · rcases h₁ with hclosed | ⟨hsock₁, hdata₁, hping₁⟩
      · exact .inl (hsock.trans hclosed)
      · refine .inr ⟨hsock.trans hsock₁, hdata.trans hdata₁, ?_⟩
        rcases hping with hping | hping
        · rw [hping]
          exact hping₁
        · exact .inr hping
  bytesOut _ _ := .inr ⟨rfl, rfl, .inl rfl⟩
  edit c e := .inr ⟨e.sock_eq c, e.lastdata_eq c, e.lastping_eq c⟩
  startClosing _ := .inr ⟨rfl, rfl, .inl rfl⟩
  closeSocket _ := .inl rfl
  initConn _ _ := .inl rfl
  pwd _ _ := .inr ⟨rfl, rfl, .inl rfl⟩
  authPing _ _ := .inr ⟨rfl, rfl, .inl rfl⟩

/-- Time passes, and the stamps of the connection are kept. -/
structure World.KeepsStamps (i : ConnId) (w w' : World) : Prop where
  now : w.now ≤ w'.now
  conn : (w.conns i).KeepsStamps (w'.conns i)

@[refl] theorem World.KeepsStamps.refl (w : World) : w.KeepsStamps i w :=
  ⟨Nat.le_refl _, keepsStamps_order.refl _⟩

theorem World.KeepsStamps.trans {w'' : World} (h₁ : w.KeepsStamps i w')
    (h₂ : w'.KeepsStamps i w'') : w.KeepsStamps i w'' :=
  ⟨h₁.now.trans h₂.now, keepsStamps_order.trans _ _ _ h₁.conn h₂.conn⟩

/-- What handling an event does after its preparation. -/
theorem Step.keepsStamps {e : Event} (hstep : Step w e w') : (e.prepare w).KeepsStamps i w' := by
  obtain ⟨-, n, hrun⟩ := hstep
  exact ⟨(sameNow_frame.exec_ok hrun).ge, keepsStamps_order.frame.exec_ok hrun i⟩

theorem execBasic_keepsStamps {p : Basic Unit} (hrun : execBasic n p w = .ok ((), w')) :
    w.KeepsStamps i w' := by
  have hframe := keepsStamps_order.frame
  have hnow := (execBasic_ends (sameNow_frame.toShutFrame.rightAbout trivial (fun _ => trivial) n)
    (sameNow_frame.toBasicFrame.wp (E := anyFault) (fun _ => trivial) p fun _ _ h => h)).of_ok hrun
  exact ⟨hnow.ge, (execBasic_ends (hframe.toShutFrame.rightAbout trivial (fun _ => trivial) n)
    (hframe.toBasicFrame.wp (E := anyFault) (fun _ => trivial) p fun _ _ h => h)).of_ok hrun i⟩

/-- Lines that are handled and the clock keep the stamps of all connections. -/
theorem runAll_keepsStamps {es : List Event} (hes : es.all (Event.during j) = true)
    (hrun : Event.runAll n es w = some w') : w.KeepsStamps i w' := by
  induction es generalizing w with
  | nil =>
    obtain rfl : w = w' := Option.some.inj hrun
    rfl
  | cons e es ih =>
    obtain ⟨w₁, hstep, hrest⟩ := Event.runAll_cons hrun
    rw [List.all_cons, Bool.and_eq_true] at hes
    have hprepared : w.KeepsStamps i (e.prepare w) := by
      cases e with
      | line => rfl
      | clock now => exact ⟨hstep.1, keepsStamps_order.refl _⟩
      | _ => exact nomatch hes.1
    exact (hprepared.trans hstep.keepsStamps).trans (ih hes.2 hrest)

/-- A change of another connection, or of this one that keeps its stamps. -/
theorem World.KeepsStamps.setConn {conn : Conn} (hconn : i = j → (w.conns i).KeepsStamps conn) :
    w.KeepsStamps i (w.setConn j conn) := by
  refine ⟨Nat.le_refl _, ?_⟩
  by_cases hj : i = j
  · subst hj
    rw [World.setConn_conns_self]
    exact hconn rfl
  · rw [World.setConn_conns_ne _ hj]
    exact keepsStamps_order.refl _

theorem World.hasRegistered_setConn {conn : Conn} (hconn : conn.client = (w.conns i).client) :
    (w.setConn i conn).hasRegistered i = w.hasRegistered i := by
  change (((w.setConn i conn).conns i).client.bind w.heap).any _ = _
  rw [World.setConn_conns_self, hconn]
  rfl

theorem World.throttleConnection_stamps (w : World) (i j : ConnId) (c : Client) :
    w.KeepsStamps i (w.throttleConnection j c) := by
  unfold World.throttleConnection
  split
  · rfl
  · rfl
  · rfl
  · split_ifs
    · rfl
    · exact .setConn fun hj => hj ▸ .inr ⟨rfl, rfl, .inl rfl⟩

theorem World.throttleConnection_registered (w : World) (i : ConnId) (c : Client) :
    (w.throttleConnection i c).hasRegistered i = w.hasRegistered i := by
  unfold World.throttleConnection
  split
  · rfl
  · rfl
  · rfl
  · split_ifs
    · rfl
    · exact World.hasRegistered_setConn rfl

/-- The end of a read keeps the stamps apart from noting the read. -/
theorem World.readDone_keepsStamps (w : World) (i : ConnId) (processed : Nat) :
    ∃ v : World, w.KeepsStamps i v ∧
      ((v.noteRead i).KeepsStamps i (w.readDone i processed) ∧
        (w.readDone i processed).hasRegistered i = v.hasRegistered i) := by
  let v := w.setConn i { w.conns i with bps := (w.conns i).bps + processed }
  have hnoted : (v.noteRead i).hasRegistered i = v.hasRegistered i := by
    unfold World.noteRead
    split_ifs
    · exact World.hasRegistered_setConn rfl
    · rfl
  refine ⟨v, .setConn fun _ => .inr ⟨rfl, rfl, .inl rfl⟩, ?_⟩
  cases hclient : (v.conns i).client.bind v.heap with
  | none =>
    have hnobody : v.noteRead i = v := by
      rw [World.noteRead, if_neg]
      simp [World.hasRegistered, hclient]
    have hdone : w.readDone i processed = v := by
      unfold World.readDone World.updateReadAccounting
      simp only [v] at hclient ⊢
      simp only [hclient]
    rw [hnobody, hdone]
    exact ⟨.refl v, rfl⟩
  | some c =>
    have hdone : w.readDone i processed = if ((v.noteRead i).conns i).bps ≥ maxbps then
        (v.noteRead i).throttleConnection i c else v.noteRead i := by
      unfold World.readDone World.updateReadAccounting
      simp only [v] at hclient ⊢
      simp only [hclient]
    rw [hdone]
    split_ifs
    · exact ⟨World.throttleConnection_stamps _ i i c,
        (World.throttleConnection_registered _ i c).trans hnoted⟩
    · exact ⟨.refl _, hnoted⟩

/-- A read leaves the other connections alone. -/
theorem World.readDone_other (hj : i ≠ j) (w : World) (processed : Nat) :
    w.KeepsStamps i (w.readDone j processed) := by
  have hnoted (w : World) : w.KeepsStamps i (w.noteRead j) := by
    unfold World.noteRead
    split_ifs
    · exact .setConn fun h => absurd h hj
    · rfl
  have hbps : w.KeepsStamps i (w.setConn j { w.conns j with bps := (w.conns j).bps + processed }) :=
    .setConn fun h => absurd h hj
  refine hbps.trans ?_
  unfold World.readDone World.updateReadAccounting
  split
  · rfl
  · refine (hnoted _).trans ?_
    dsimp only
    split_ifs
    · exact World.throttleConnection_stamps _ i j _
    · rfl

/-! ## What the stamps stand for -/

/-- While the connection is open, the stamps are past times; and `lastping` is a special value,
or a PING was sent at that time and no data was read since, or `lastdata` shows it. -/
structure World.Stamped (w : World) (i : ConnId) (h : LinkHistory) : Prop where
  lastdata_pos : 0 < (w.conns i).lastdata
  lastdata_le : (w.conns i).lastdata ≤ w.now
  lastping : (w.conns i).lastping ≤ 1 ∨
    ((w.conns i).lastping ∈ h.pings ∧ (w.conns i).lastping ≤ w.now ∧
      ∀ r ∈ h.reads, r < (w.conns i).lastping ∨ (w.conns i).lastping ≤ (w.conns i).lastdata)

theorem World.Stamped.kept (hs : w.Stamped i h) (hkeeps : w.KeepsStamps i w')
    (hopen : (w'.conns i).sock ≠ none) : w'.Stamped i h := by
  obtain ⟨-, hdata, hping⟩ := hkeeps.conn.resolve_left hopen
  have hnow := hkeeps.now
  refine ⟨by rw [hdata]; exact hs.lastdata_pos, by rw [hdata]; exact hs.lastdata_le.trans hnow, ?_⟩
  rcases hping with hsame | hone
  · rw [hsame, hdata]
    exact hs.lastping.imp_right fun ⟨hsent, hpast, hreads⟩ => ⟨hsent, hpast.trans hnow, hreads⟩
  · exact .inl (Nat.le_of_eq hone)

theorem World.noteRead_sock (w : World) (i : ConnId) :
    ((w.noteRead i).conns i).sock = (w.conns i).sock := by
  unfold World.noteRead
  split_ifs
  · rw [World.setConn_conns_self]
  · rfl

/-- Data that is read while a PONG is pending shows in `lastdata`. -/
theorem World.Stamped.noteRead {time : Nat} (hs : w.Stamped i h)
    (hread : w.hasRegistered i = true ∨ (w.conns i).lastping ≤ (w.conns i).lastdata) :
    (w.noteRead i).Stamped i { h with reads := time :: h.reads } := by
  have hpos := hs.lastdata_pos
  have hpast := hs.lastdata_le
  unfold World.noteRead
  split_ifs with hregistered
  · constructor
    · rw [World.setConn_conns_self]
      exact hpos.trans_le hpast
    · rw [World.setConn_conns_self]
      exact Nat.le_refl w.now
    · rw [World.setConn_conns_self]
      dsimp only
      rcases hs.lastping with hspecial | ⟨hsent, hle, -⟩
      · left
        split_ifs <;> omega
      · rw [if_neg (by omega)]
        exact .inr ⟨hsent, hle, fun _ _ => .inr hle⟩
  · refine ⟨hpos, hpast, hs.lastping.imp_right fun ⟨hsent, hle, _⟩ => ?_⟩
    exact ⟨hsent, hle, fun _ _ => .inr (hread.resolve_left hregistered)⟩

/-- A connection that is open after an event was open before it was handled. -/
theorem World.Stamped.event {e : Event} (hstep : Step w e w') (hopen : (w'.conns i).sock ≠ none)
    (hs : ((e.prepare w).conns i).sock ≠ none → (e.prepare w).Stamped i h) : w'.Stamped i h := by
  have hkeeps : (e.prepare w).KeepsStamps i w' := hstep.keepsStamps
  obtain ⟨hsock, -⟩ := hkeeps.conn.resolve_left hopen
  exact (hs (hsock ▸ hopen)).kept hkeeps hopen

/-- A new connection has no history yet. -/
theorem World.openConn_stamped {j : ConnId} {c : Client} {conn : Conn}
    (hs : (w.conns i).sock ≠ none → w.Stamped i h) (hclock : j = i → 0 < w.now)
    (hdata : conn.lastdata = w.now) (hping : conn.lastping = 0)
    (hopen : ((w.openConn j c conn).conns i).sock ≠ none) :
    (w.openConn j c conn).Stamped i (if j = i then {} else h) := by
  by_cases hj : i = j
  · subst hj
    have hconn : (w.openConn i c conn).conns i =
        { conn with sock := some i, client := some w.nextRef } := World.setConn_conns_self ..
    rw [if_pos rfl]
    refine ⟨?_, ?_, .inl ?_⟩
    · rw [hconn]
      exact hdata ▸ hclock rfl
    · rw [hconn]
      exact Nat.le_of_eq hdata
    · rw [hconn]
      exact hping ▸ Nat.zero_le 1
  · have hconn : (w.openConn j c conn).conns i = (w.growPool j).conns i :=
      World.setConn_conns_ne _ hj _
    rw [if_neg (Ne.symm hj)]
    rw [hconn] at hopen
    unfold World.growPool at hconn hopen
    dsimp only at hconn hopen
    split_ifs at hconn hopen
    · exact absurd rfl hopen
    · have hold := hs hopen
      exact ⟨hconn ▸ hold.lastdata_pos, hconn ▸ hold.lastdata_le, hconn ▸ hold.lastping⟩

theorem Event.stamped {e : Event} (hs : (w.conns i).sock ≠ none → w.Stamped i h)
    (hnoted : (Turn.event e).Noted i w h w') (hstep : Step w e w')
    (hopen : (w'.conns i).sock ≠ none) : w'.Stamped i ((Turn.event e).history i w h) := by
  cases e with
  | accept j ip =>
    exact .event hstep hopen (World.openConn_stamped hs hnoted rfl rfl)
  | connect k j ip =>
    exact .event hstep hopen (World.openConn_stamped hs hnoted rfl rfl)
  | clock now =>
    refine .event hstep hopen fun hopen => ?_
    exact (hs hopen).kept ⟨hstep.1, keepsStamps_order.refl _⟩ hopen
  | ping j =>
    refine .event hstep hopen fun hopen => ?_
    by_cases hj : i = j
    · subst hj
      simp only [Event.prepare, World.setConn_conns_self] at hopen
      have hold := hs hopen
      rw [Turn.history, if_pos rfl]
      have hconn : ((Event.ping i).prepare w).conns i = { w.conns i with lastping := w.now } :=
        World.setConn_conns_self ..
      constructor
      · rw [hconn]
        exact hold.lastdata_pos
      · rw [hconn]
        exact hold.lastdata_le
      · right
        rw [hconn]
        exact ⟨.head _, Nat.le_refl _, fun r hr => .inl (hnoted rfl r hr)⟩
    · simp only [Event.prepare, World.setConn_conns_ne _ hj] at hopen
      have hold := hs hopen
      rw [Turn.history, if_neg (Ne.symm hj)]
      have hconn : ((Event.ping j).prepare w).conns i = w.conns i := World.setConn_conns_ne _ hj _
      exact ⟨hconn ▸ hold.lastdata_pos, hconn ▸ hold.lastdata_le, hconn ▸ hold.lastping⟩
  | resolved | linked | line | close | expire => exact .event hstep hopen hs

/-- A read of any connection keeps the stamps in order. -/
theorem Turn.read_stamped {j : ConnId} {bytes : Str} {lines : List Event} {processed : Nat}
    (hs : (w.conns i).sock ≠ none → w.Stamped i h)
    (hnoted : (Turn.read j bytes lines processed).Noted i w h w')
    (hrun : (Turn.read j bytes lines processed).perform n w = some w')
    (hopen : (w'.conns i).sock ≠ none) :
    w'.Stamped i ((Turn.read j bytes lines processed).history i w h) := by
  simp only [Turn.perform] at hrun
  split_ifs at hrun with hread
  obtain ⟨w₁, hlines, rfl⟩ := Option.map_eq_some_iff.mp hrun
  have hkeeps : w.KeepsStamps i w₁ := by
    have hreceived : w.KeepsStamps i (w.received j bytes) :=
      .setConn fun hj => hj ▸ .inr ⟨rfl, rfl, .inl rfl⟩
    exact hreceived.trans (runAll_keepsStamps hread.2 hlines)
  by_cases hj : i = j
  · subst hj
    obtain ⟨v, hv, hdone, hsame⟩ := w₁.readDone_keepsStamps i processed
    obtain ⟨hsockv, -⟩ := hdone.conn.resolve_left hopen
    have hopenv : (v.conns i).sock ≠ none := by
      rw [← World.noteRead_sock v i, ← hsockv]
      exact hopen
    have hvs : v.Stamped i h := by
      obtain ⟨hsock, -⟩ := (hkeeps.trans hv).conn.resolve_left hopenv
      exact (hs (hsock ▸ hopenv)).kept (hkeeps.trans hv) hopenv
    rw [Turn.history, if_pos rfl]
    refine (hvs.noteRead ?_).kept hdone hopen
    by_cases hpending : (w.conns i).lastdata < (w.conns i).lastping
    · left
      rw [← hsame]
      exact (hnoted rfl hpending).resolve_right hopen
    · right
      obtain ⟨-, hdata, hping⟩ := (hkeeps.trans hv).conn.resolve_left hopenv
      have hpos := hvs.lastdata_pos
      omega
  · have hother := hkeeps.trans (World.readDone_other hj w₁ processed)
    obtain ⟨hsock, -⟩ := hother.conn.resolve_left hopen
    rw [Turn.history, if_neg (Ne.symm hj)]
    exact (hs (hsock ▸ hopen)).kept hother hopen

theorem LinkRun.stamped (hrun : LinkRun i (Turn.Noted i) w h) (hopen : (w.conns i).sock ≠ none) :
    w.Stamped i h := by
  induction hrun with
  | start conf env host => exact absurd rfl hopen
  | @turn w w' h n t _ hnoted hturn ih =>
    cases t with
    | event e => exact Event.stamped ih hnoted (Event.step_of_runAll hturn) hopen
    | read j bytes lines processed => exact Turn.read_stamped ih hnoted hturn hopen
    | reload new valid =>
      simp only [Turn.perform] at hturn
      have hrehash : rehash n new valid w = .ok ((), w') := by
        cases hresult : rehash n new valid w with
        | error f => simp [hresult, finalWorld] at hturn
        | ok a =>
          simp only [hresult, finalWorld, Option.some.injEq] at hturn
          rw [← hturn]
      have hkeeps : w.KeepsStamps i w' :=
        rehash_keeps (J := fun v => w.KeepsStamps i v)
          (fun _ _ _ _ hbasic hv => hv.trans (execBasic_keepsStamps hbasic))
          (fun v conf hv => ⟨hv.now, hv.conn⟩) hrehash (.refl w)
      obtain ⟨hsock, -⟩ := hkeeps.conn.resolve_left hopen
      exact (ih (hsock ▸ hopen)).kept hkeeps hopen

/-- In every run in which the clock does not show 0 when the connection is opened, its client is
not pinged in a second in which data was read, and the client stays registered when data is
read while a PONG is pending: a registered client is closed with a ping timeout only if it was
sent a PING more than `PongTimeout` seconds ago and no data was read from then on. -/
theorem ping_timeout_silent (hrun : LinkRun i (Turn.Noted i) w h)
    (hopen : (w.conns i).sock ≠ none) (hclosed : w.checkConnectionStatus i = .pingTimeout) :
    ∃ p ∈ h.pings, (p : Int) < w.now - w.conf.pongTimeout ∧ ∀ r ∈ h.reads, r < p := by
  obtain ⟨hpending, hlate⟩ : (w.conns i).lastdata < (w.conns i).lastping ∧
      ((w.conns i).lastping : Int) < w.now - w.conf.pongTimeout := by
    unfold World.checkConnectionStatus at hclosed
    dsimp only at hclosed
    split_ifs at hclosed
    exact ⟨by assumption, by assumption⟩
  have hs := hrun.stamped hopen
  have hpos := hs.lastdata_pos
  rcases hs.lastping with hspecial | ⟨hsent, -, hreads⟩
  · omega
  · refine ⟨(w.conns i).lastping, hsent, hlate, fun r hr => ?_⟩
    exact (hreads r hr).resolve_right (by omega)

/-! ## Runs that can be computed -/

instance (i : ConnId) (w : World) (h : LinkHistory) (w' : World) : DecidablePred (Turn.Noted i w h w')
  | .event (.accept j _) | .event (.connect _ j _) => inferInstanceAs (Decidable (j = i → 0 < w.now))
  | .event (.ping j) => inferInstanceAs (Decidable (j = i → ∀ r ∈ h.reads, r < w.now))
  | .read j _ _ _ => inferInstanceAs (Decidable (j = i →
      (w.conns i).lastdata < (w.conns i).lastping →
        w'.hasRegistered i = true ∨ (w'.conns i).sock = none))
  | .event (.resolved ..) | .event (.linked ..) | .event (.line ..) | .event (.close ..)
  | .event .expire | .event (.clock ..) | .reload .. => inferInstanceAs (Decidable True)

/-- Turns one after the other, if each meets the condition. -/
def Turn.runAll (P : World → LinkHistory → World → Turn → Bool) (n : Nat) (i : ConnId) :
    List Turn → World → LinkHistory → Option (World × LinkHistory)
  | [], w, h => some (w, h)
  | t :: ts, w, h => (t.perform n w).bind fun w' =>
    if P w h w' t then runAll P n i ts w' (t.history i w h) else none

theorem LinkRun.runAll {Q : World → LinkHistory → World → Turn → Prop}
    {P : World → LinkHistory → World → Turn → Bool} {ts : List Turn} {h' : LinkHistory}
    (hP : ∀ w h w' t, P w h w' t = true → Q w h w' t) (hw : LinkRun i Q w h)
    (hrun : Turn.runAll P n i ts w h = some (w', h')) : LinkRun i Q w' h' := by
  induction ts generalizing w h with
  | nil =>
    obtain ⟨rfl, rfl⟩ := Prod.mk.inj (Option.some.inj hrun)
    exact hw
  | cons t ts ih =>
    obtain ⟨w₁, hturn, hrest⟩ := Option.bind_eq_some_iff.mp hrun
    split_ifs at hrest with hcond
    exact ih (hw.turn t (hP _ _ _ _ hcond) hturn) hrest

end

/-- A client registers in its first packet, is silent for two minutes and does not answer the
PING. -/
def silentClient : List Turn :=
  [.event (.clock 100), .event (.accept 1 "127.0.0.1"),
    .read 1 [] [.line 1 "NICK ann" [], .line 1 "USER a 0 * :A" []] 24,
    .event (.clock 221), .event (.ping 1), .event (.clock 242)]

theorem ping_timeout_silent_minutes : ∃ w h, LinkRun 1 (Turn.Noted 1) w h ∧
    w.checkConnectionStatus 1 = .pingTimeout ∧ w.now = 242 ∧
    ∃ p ∈ h.pings, (p : Int) < w.now - w.conf.pongTimeout ∧ ∀ r ∈ h.reads, r < p := by
  obtain ⟨⟨w, h⟩, hrun, hopen, hclosed, hnow⟩ :
      ∃ a ∈ Turn.runAll (fun w h w' t => decide (t.Noted 1 w h w')) 1 1 silentClient
        (World.start {} {} "localhost") {}, (a.1.conns 1).sock ≠ none ∧
          a.1.checkConnectionStatus 1 = .pingTimeout ∧ a.1.now = 242 := by
    decide +kernel
  have hlink := (LinkRun.start (i := 1) (P := Turn.Noted 1) {} {} "localhost").runAll
    (fun _ _ _ _ h => of_decide_eq_true h) hrun
  exact ⟨w, h, hlink, hclosed, hnow, ping_timeout_silent hlink hopen hclosed⟩

/-- A client connects when the clock shows 0 and sends a PONG that nobody has asked for. -/
def clockAtZero : List Turn :=
  [.event (.accept 1 "127.0.0.1"),
    .read 1 [] [.line 1 "NICK ann" [], .line 1 "USER a 0 * :A" [], .line 1 "WHO" []] 29,
    .event (.line 1 "PONG x" []), .event (.clock 30)]

/-- The end of a registration is handled from the read buffer, in the second of the read. -/
def registersLate : List Turn :=
  [.event (.clock 100), .event (.accept 1 "127.0.0.1"), .event (.clock 110),
    .read 1 [] [.line 1 "CAP LS" [], .line 1 "NICK ann" [], .line 1 "USER a 0 * :A" []] 33,
    .event (.line 1 "CAP END" []), .event (.ping 1), .event (.clock 180)]

/-- A linked server that has sent a nickname is registered no more after `CAP END`, and is
registered again, as a user, when a second one is handled after a reload. -/
def capByServer : List Turn :=
  .event (.clock 100) :: peerLink.map .event ++
    [.read 1 [] [.line 1 ":irc.b NICK ghost 1" [], .line 1 ":ghost NICK ghost2" []] 41,
      .event (.clock 106), .event (.ping 1), .event (.clock 110),
      .read 1 [] [.line 1 ":irc.b CAP END" []] 16,
      .reload { peerConf with pingTimeout := 5, pongTimeout := 60 } true,
      .event (.line 1 ":irc.b CAP END" []), .event (.clock 167)]

/-- A ping timeout without a PING, one after a PING in the second of a read, and one after data
was read that came after the PING. -/
theorem ping_timeout_not_silent :
    (∃ w h, LinkRun 1 (fun _ _ _ _ => True) w h ∧ w.checkConnectionStatus 1 = .pingTimeout ∧
      h.pings = []) ∧
    (∃ w h, LinkRun 1 (fun _ _ _ _ => True) w h ∧ w.checkConnectionStatus 1 = .pingTimeout ∧
      h = { pings := [110], reads := [110] }) ∧
    ∃ w h, LinkRun 1 (fun _ _ _ _ => True) w h ∧ w.checkConnectionStatus 1 = .pingTimeout ∧
      h = { pings := [106], reads := [110, 100] } := by
  have hturns (conf : Conf) (ts : List Turn) (Q : World × LinkHistory → Prop)
      (hrun : ∃ a ∈ Turn.runAll (fun _ _ _ _ => true) 1 1 ts (World.start conf {} "localhost") {},
        Q a) : ∃ w h, LinkRun 1 (fun _ _ _ _ => True) w h ∧ Q (w, h) := by
    obtain ⟨⟨w, h⟩, ha, hQ⟩ := hrun
    exact ⟨w, h, (LinkRun.start conf {} "localhost").runAll (fun _ _ _ _ _ => trivial) ha, hQ⟩
  refine ⟨hturns {} clockAtZero (fun a => a.1.checkConnectionStatus 1 = .pingTimeout ∧
      a.2.pings = []) ?_,
    hturns { pingTimeout := 5, pongTimeout := 60, maxPenaltyTime := 0 } registersLate
      (fun a => a.1.checkConnectionStatus 1 = .pingTimeout ∧
        a.2 = { pings := [110], reads := [110] }) ?_,
    hturns { peerConf with pingTimeout := 5, pongTimeout := 60, authPing := true } capByServer
      (fun a => a.1.checkConnectionStatus 1 = .pingTimeout ∧
        a.2 = { pings := [106], reads := [110, 100] }) ?_⟩
  all_goals decide +kernel

end Ngircd
