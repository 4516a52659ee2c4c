import Ngircd.LocalServer

/-!
# Clients and their connections

A client on the list that has a connection is the client of that connection, and between
events that connection is open.  While a connection is being closed its socket is gone
before its client is; the mark `CONN_ISCLOSING` tells that apart from a slot that is free.
-/

namespace Ngircd

open Lib Prog

variable {w w' : World} {i : ConnId} {r : ClientRef} {c c' : Client} {conn : Conn} {e : Event}

/-! ## Clients in their places -/

/-- The slot `i` of the pool belongs to the client `r`, and is open or being closed. -/
structure World.Seats (w : World) (i : ConnId) (r : ClientRef) : Prop where
  client : (w.conns i).client = some r
  busy : (w.conns i).sock ≠ none ∨ (w.conns i).isClosing = true
  pool : i < w.poolSize

/-- A client on the list that has a connection is the client of that connection. -/
structure Seated (w : World) : Prop extends Listed w where
  slot : ∀ r ∈ w.order, ∀ c i, w.heap r = some c → c.connId = some i → w.Seats i r

/-- No connection is being closed. -/
def Idle (w : World) : Prop := ∀ i, (w.conns i).isClosing = false

/-- No connection has begun to be closed. -/
def BeginsNone (w w' : World) : Prop :=
  ∀ i, (w'.conns i).isClosing = true → (w.conns i).isClosing = true

theorem BeginsNone.idle (h : BeginsNone w w') (hw : Idle w) : Idle w' := by
  intro i
  cases hi : (w'.conns i).isClosing with
  | false => rfl
  | true =>
    have hbefore := h i hi
    rw [hw i] at hbefore
    exact nomatch hbefore

/-- The slot has the same client, and is open or being closed if it was before. -/
structure Conn.Seats (c c' : Conn) : Prop where
  client : c'.client = c.client
  busy : c.sock ≠ none ∨ c.isClosing = true → c'.sock ≠ none ∨ c'.isClosing = true

/-- Opening a connection leaves the other slots in use alone. -/
theorem World.openConn_conns_ne {j : ConnId} (hne : j ≠ i) (hj : j < w.poolSize)
    (c : Client) (conn : Conn) : (w.openConn i c conn).conns j = w.conns j := by
  have hgrown : (w.growPool i).conns j = w.conns j := if_neg fun h => absurd h.1 (Nat.not_le.mpr hj)
  exact (World.setConn_conns_ne _ hne _).trans hgrown

namespace Seated

/-- Nobody has come to the list, and nobody on it has moved. -/
theorem of_kept (h : Seated w) (hlisted : Listed w') (horder : ∀ r ∈ w'.order, r ∈ w.order)
    (hcell : ∀ r c', w'.heap r = some c' → ∃ c, w.heap r = some c ∧ c'.connId = c.connId)
    (hslot : ∀ i, (w.conns i).Seats (w'.conns i)) (hpool : w'.poolSize = w.poolSize) :
    Seated w' where
  toListed := hlisted
  slot r hr c' i hc' hi := by
    obtain ⟨c, hc, hconn⟩ := hcell r c' hc'
    have hseat := h.slot r (horder r hr) c i hc (hconn.symm.trans hi)
    exact ⟨(hslot i).client.trans hseat.client, (hslot i).busy hseat.busy,
      hseat.pool.trans_eq hpool.symm⟩

theorem of_same (h : Seated w) (horder : w'.order = w.order) (hnext : w'.nextRef = w.nextRef)
    (hheap : w'.heap = w.heap) (hconns : w'.conns = w.conns) (hpool : w'.poolSize = w.poolSize) :
    Seated w' := by
  refine h.of_kept (h.toListed.of_same horder hnext) (fun r hr => by rwa [horder] at hr) ?_ ?_ hpool
  · intro r c hc
    rw [hheap] at hc
    exact ⟨c, hc, rfl⟩
  · intro i
    rw [hconns]
    exact ⟨rfl, fun hbusy => hbusy⟩

theorem setConn (h : Seated w) (hconn : (w.conns i).Seats conn) :
    Seated (w.setConn i conn) := by
  refine h.of_kept (h.toListed.of_same rfl rfl) (fun _ hr => hr) (fun _ c hc => ⟨c, hc, rfl⟩)
    (fun j => ?_) rfl
  by_cases hj : j = i
  · subst hj
    rw [World.setConn_conns_self]
    exact hconn
  · rw [World.setConn_conns_ne w hj]
    exact ⟨rfl, fun hbusy => hbusy⟩

variable (h : Seated w)
include h

theorem setHeap (hc : w.heap r = some c) (hconn : c'.connId = c.connId) :
    Seated (w.setHeap r (some c')) := by
  refine h.of_kept (h.toListed.of_same rfl rfl) (fun _ hr => hr) (fun s d hd => ?_)
    (fun _ => ⟨rfl, fun hbusy => hbusy⟩) rfl
  rcases World.setHeap_heap_cases hd with ⟨rfl, rfl⟩ | ⟨-, hd⟩
  · exact ⟨c, hc, hconn⟩
  · exact ⟨d, hd, rfl⟩

theorem free (r : ClientRef) : Seated (w.setHeap r none) := by
  refine h.of_kept (h.toListed.of_same rfl rfl) (fun _ hr => hr) (fun s d hd => ?_)
    (fun _ => ⟨rfl, fun hbusy => hbusy⟩) rfl
  exact ⟨d, World.heap_of_free hd, rfl⟩

theorem unlink (r : ClientRef) : Seated { w with order := w.order.erase r } :=
  h.of_kept (h.toListed.erase r) (fun _ hr => List.mem_of_mem_erase hr)
    (fun _ c hc => ⟨c, hc, rfl⟩) (fun _ => ⟨rfl, fun hbusy => hbusy⟩) rfl

theorem queue (i : ConnId) (line : Str) : Seated (w.tickWrite.queue i line) :=
  have htick : Seated w.tickWrite := h.of_same rfl rfl rfl rfl rfl
  have hslot : Seated (w.tickWrite.setConn i
      { w.tickWrite.conns i with bytesOut := (w.tickWrite.conns i).bytesOut + line.length + 2 }) :=
    htick.setConn ⟨rfl, fun hbusy => hbusy⟩
  hslot.of_same rfl rfl rfl rfl rfl

theorem editConn (i : ConnId) (e : ConnEdit) : Seated (w.setConn i (e.edit (w.conns i))) := by
  refine h.setConn ⟨e.client_eq _, fun hbusy => ?_⟩
  rw [e.sock_eq, e.isClosing_eq]
  exact hbusy

/-- A client without a connection comes to the list. -/
theorem addClient (hc : c.connId = none) : Seated (w.addClient c) where
  toListed := h.toListed.addClient c
  slot s hs d j hd hj := by
    by_cases hnew : s = w.nextRef
    · subst hnew
      obtain rfl : c = d := by simpa [World.addClient] using hd
      rw [hc] at hj
      cases hj
    · have hbefore : s ∈ w.order := (List.mem_cons.mp hs).resolve_left hnew
      have hseat := h.slot s hbefore d j ((World.setHeap_heap_ne w hnew _).symm.trans hd) hj
      exact ⟨hseat.client, hseat.busy, hseat.pool⟩

/-- A slot can be released when its client is off the list. -/
theorem released (hfree : ∀ r ∈ w.order, (w.conns i).client ≠ some r) (now : Nat) :
    Seated (w.released i now) where
  toListed := h.toListed.of_same rfl rfl
  slot r hr c j hc hj := by
    have hseat := h.slot r hr c j hc hj
    have hne : j ≠ i := by
      rintro rfl
      exact hfree r hr hseat.client
    have hkept : (w.released i now).conns j = w.conns j := World.setConn_conns_ne w hne _
    refine ⟨?_, ?_, hseat.pool⟩
    · rw [hkept]
      exact hseat.client
    · rw [hkept]
      exact hseat.busy

/-- A connection is opened in a slot that is free. -/
theorem openConn (hidle : Idle w) (hsock : (w.conns i).sock = none) (c : Client) (conn : Conn) :
    Seated (w.openConn i c conn) := by
  have hgrown : Listed (w.growPool i) := h.toListed.of_same rfl rfl
  refine ⟨(hgrown.addClient c).of_same rfl rfl, fun r hr d j hd hj => ?_⟩
  by_cases hnew : r = w.nextRef
  · subst hnew
    have hconn : d.connId = some i := by
      rw [← Option.some.inj ((World.setHeap_heap_self (w.growPool i) _ _).symm.trans hd)]
    obtain rfl : i = j := Option.mem_unique hconn hj
    have hslot : (w.openConn i c conn).conns i =
        { conn with sock := some i, client := some w.nextRef } := World.setConn_conns_self _ _ _
    refine ⟨?_, ?_, ?_⟩
    · rw [hslot]
    · rw [hslot]
      exact .inl nofun
    · exact Nat.lt_of_lt_of_le (Nat.lt_succ_self i) (Nat.le_max_right _ _)
  · have hbefore : r ∈ w.order := (List.mem_cons.mp hr).resolve_left hnew
    have hcell : w.heap r = some d := (World.setHeap_heap_ne (w.growPool i) hnew _).symm.trans hd
    have hseat := h.slot r hbefore d j hcell hj
    have hne : j ≠ i := by
      rintro rfl
      rcases hseat.busy with hopen | hclosing
      · exact hopen hsock
      · rw [hidle j] at hclosing
        exact nomatch hclosing
    have hkept := World.openConn_conns_ne hne hseat.pool c conn
    refine ⟨?_, ?_, Nat.lt_of_lt_of_le hseat.pool (Nat.le_max_left _ _)⟩
    · rw [hkept]
      exact hseat.client
    · rw [hkept]
      exact hseat.busy

end Seated

/-! ## Closing connections -/

/-- What closing a connection does to the places of clients. -/
structure Vacates (w w' : World) : Prop where
  none : BeginsNone w w'
  seated : Seated w → Seated w'

theorem Vacates.trans {w₁ w₂ w₃ : World} (h₁ : Vacates w₁ w₂) (h₂ : Vacates w₂ w₃) :
    Vacates w₁ w₃ :=
  ⟨fun i hi => h₁.none i (h₂.none i hi), fun h => h₂.seated (h₁.seated h)⟩

/-- The same connections are being closed. -/
theorem Vacates.of_closing
    (hclosing : ∀ i, (w'.conns i).isClosing = (w.conns i).isClosing) (h : Seated w → Seated w') :
    Vacates w w' :=
  ⟨fun i hi => (hclosing i).symm.trans hi, h⟩

theorem World.setConn_isClosing
    (h : conn.isClosing = (w.conns i).isClosing) (j : ConnId) :
    ((w.setConn i conn).conns j).isClosing = (w.conns j).isClosing := by
  by_cases hj : j = i
  · subst hj
    rw [World.setConn_conns_self]
    exact h
  · rw [World.setConn_conns_ne w hj]

/-- Clients leave the list and keep their places, if closes do that. -/
theorem vacates_frame : DropFrame (fun _ => Vacates) Vacates where
  refl _ := .of_closing (fun _ => rfl) fun h => h
  trans _ _ _ := .trans
  queue _ i line _ _ := .of_closing (World.setConn_isClosing rfl) fun h => h.queue i line
  fail _ _ _ _ _ hk := ⟨hk.none, fun h => hk.seated (h.of_same rfl rfl rfl rfl rfl)⟩
  editConn _ i e := .of_closing (World.setConn_isClosing (e.isClosing_eq _)) fun h => h.editConn i e
  cloak _ _ _ _ hc := .of_closing (fun _ => rfl) fun h => h.setHeap hc rfl
  __ := BasicAside.of_rest fun _ _ _ _ _ =>
    .of_closing (fun _ => rfl) fun h => h.of_same rfl rfl rfl rfl rfl
  unlink _ r := .of_closing (fun _ => rfl) fun h => h.unlink r
  free _ r := .of_closing (fun _ => rfl) fun h => h.free r

/-- What is known about closes: the client of the connection leaves the list, and all
others keep their places. -/
abbrev leaving : Closing := .within fun i w w' => Unlists i w w' ∧ Vacates w w'

theorem leaving_frame : DropFrame (fun i w w' => Unlists i w w' ∧ Vacates w w')
    fun w w' => Thins w w' ∧ Vacates w w' :=
  { Thins.frame.toLeaveFrame.and vacates_frame.toLeaveFrame with
    unlink := fun w r => ⟨Thins.frame.unlink w r, vacates_frame.unlink w r⟩
    free := fun w r => ⟨Thins.frame.free w r, vacates_frame.free w r⟩ }

/-- `Client_Destroy` under these closes: the client is off the list afterwards. -/
theorem clientDestroy_leaving (w : World) (n : Nat) (r : ClientRef) (l f : Option Str) (q : Bool) :
    (clientDestroy n r l f q).wp (shutWp leaving anyFault)
      (fun _ w' => (Thins w w' ∧ Vacates w w') ∧ (w.order.Nodup → r ∉ w'.order)) w := by
  have hkept := DropFrame.destroys leaving_frame (E := anyFault) (fun _ => trivial) n r l f q w
  have hgone : (clientDestroy n r l f q).wp (shutWp leaving anyFault)
      (fun _ w' => Thins w w' ∧ (w.order.Nodup → r ∉ w'.order)) w :=
    Prog.wp_weaken (shutWp_narrow fun _ _ _ h => h.1) (clientDestroy_unlists w n r l f q)
  exact wp_mono (fun _ _ h => ⟨h.1, h.2.2⟩) (Prog.wp_and shutWp_and hkept hgone)

/-- The body of `Conn_Close`: the socket goes first, then the client, then the slot. -/
theorem connClose_vacates (i : ConnId) (l f : Option Str) (inf : Bool) (w : World) :
    (connClose i l f inf).wp (shutWp leaving anyFault) (fun _ => Vacates w) w := by
  refine wp_connClose (fun _ => vacates_frame.refl w) fun hidle => ?_
  have hmark : (w.conns i).Seats { w.conns i with isClosing := true } := ⟨rfl, fun _ => .inr rfl⟩
  -- From here on the slot is marked, so it keeps its client.
  refine leaving_frame.toLeaveFrame.toMsgFrame.wp (fun _ => trivial) _ fun _ w₁ h₁ => ?_
  obtain ⟨hclosing₁, -⟩ := h₁.1.closing i (by simp)
  have hnone (w₂ : World) (now : Nat)
      (h₂ : BeginsNone (w.setConn i { w.conns i with isClosing := true }) w₂) :
      BeginsNone w (w₂.released i now) := by
    intro j hj
    by_cases hji : j = i
    · subst hji
      have hfresh : (w₂.released j now).conns j = newConn now := World.setConn_conns_self _ _ _
      rw [hfresh] at hj
      exact nomatch hj
    · have hkept : (w₂.released i now).conns j = w₂.conns j := World.setConn_conns_ne w₂ hji _
      rw [hkept] at hj
      have hbefore := h₂ j hj
      rwa [World.setConn_conns_ne w hji] at hbefore
  have hshut : Vacates w₁ (w₁.setConn i { w₁.conns i with sock := none }) :=
    .of_closing (World.setConn_isClosing rfl) fun h => h.setConn ⟨rfl, fun _ => .inr hclosing₁⟩
  refine wp_shutDown (fun r hr => ?_) fun hr => ?_
  · refine wp_mono (fun _ w₂ h₂ => ?_) (clientDestroy_leaving _ _ r l f true)
    obtain ⟨⟨hthin, hvacates⟩, hgone⟩ := h₂
    have hall := h₁.2.trans (hshut.trans hvacates)
    refine ⟨hnone w₂ _ hall.none, fun hw => ?_⟩
    have hw₁ := hshut.seated (h₁.2.seated (hw.setConn hmark))
    refine (hall.seated (hw.setConn hmark)).released (fun s hs hclient => ?_) _
    obtain ⟨-, hkept⟩ := hthin.closing i (by simpa using hclosing₁)
    have hsr : s = r := by simpa [hkept, hr] using hclient.symm
    exact hgone hw₁.toListed.nodup (hsr ▸ hs)
  · have hall := h₁.2.trans hshut
    refine ⟨hnone _ _ hall.none, fun hw => ?_⟩
    refine (hall.seated (hw.setConn hmark)).released (fun s _ hclient => ?_) _
    simp [hr] at hclient

/-- What `Conn_Close` does to the places of clients. -/
theorem closer_vacates (n : Nat) : leaving.RightAbout anyFault (closer n) :=
  closer_adding closer_unlists connClose_vacates n

/-! ## Reachable states -/

/-- What closing a connection does. -/
def ClosesSeats (w w' : World) : Prop := Persists w w' ∧ Vacates w w'

theorem closer_closesSeats (n : Nat) : (closing ClosesSeats).RightAbout anyFault (closer n) := by
  have hpersists : (closing Persists).RightAbout anyFault (closer n) :=
    persists_frame.toShutFrame.rightAbout trivial (fun _ => trivial) n
  intro i l f inf P w hP
  exact Exec.Ends.mono (fun _ w' h => hP w' ⟨h.1, h.2.2⟩)
    ((hpersists i l f inf (Persists w) w fun _ h => h).and
      (closer_vacates n i l f inf (fun w' => Unlists i w w' ∧ Vacates w w') w fun _ h => h))

/-- Clients are in their places, and nothing is being closed. -/
structure Parked (w : World) : Prop extends Seated w where
  idle : Idle w

theorem Vacates.parked (h : Vacates w w') (hw : Parked w) : Parked w' :=
  ⟨h.seated hw.toSeated, h.none.idle hw.idle⟩

namespace Parked

variable {client : ClientRef}

theorem setHeap (hw : Parked w) (hc : w.heap r = some c) (hconn : c'.connId = c.connId) :
    Parked (w.setHeap r (some c')) :=
  ⟨hw.toSeated.setHeap hc hconn, hw.idle⟩

theorem addClient (hw : Parked w) (hc : c.connId = none) : Parked (w.addClient c) :=
  ⟨hw.toSeated.addClient hc, hw.idle⟩

theorem of_same (hw : Parked w) (horder : w'.order = w.order) (hnext : w'.nextRef = w.nextRef)
    (hheap : w'.heap = w.heap) (hconns : w'.conns = w.conns) (hpool : w'.poolSize = w.poolSize) :
    Parked w' where
  toSeated := hw.toSeated.of_same horder hnext hheap hconns hpool
  idle j := by
    rw [hconns]
    exact hw.idle j

theorem setConn (hw : Parked w) (hconn : (w.conns i).Seats conn)
    (hclosing : conn.isClosing = (w.conns i).isClosing) : Parked (w.setConn i conn) where
  toSeated := hw.toSeated.setConn hconn
  idle j := (World.setConn_isClosing hclosing j).trans (hw.idle j)

theorem frame : BasicFrame (fun _ => ClosesSeats) fun w w' => Parked w → Parked w' where
  refl _ h := h
  trans _ _ _ h₁ h₂ h := h₂ (h₁ h)
  queue w i line hs ho h := (vacates_frame.queue w i line hs ho).parked h
  fail w w' i hs ho hk h := (vacates_frame.fail w w' i hs ho hk.2).parked h
  editConn w i e h := (vacates_frame.editConn w i e).parked h
  cloak _ _ _ _ hc h := h.setHeap hc rfl
  __ := BasicAside.of_rest (R := fun w w' => Parked w → Parked w') fun _ _ _ _ _ h =>
    h.of_same rfl rfl rfl rfl rfl
  editClient _ _ e _ hc h := h.setHeap hc (e.connId_eq _)

theorem indifferent : Indifferent Parked ClosesSeats :=
  .of_frame (fun _ _ hk => ⟨hk.1, hk.2.parked⟩) frame (fun _ _ _ _ hc hw => hw.setHeap hc rfl)
    (fun _ _ _ hw => hw.setConn ⟨rfl, fun h => h⟩ rfl)
    fun _ _ _ hw => hw.setConn ⟨rfl, fun h => h⟩ rfl

theorem personal (client : ClientRef) : Personal Parked client ClosesSeats where
  upkeep := Indifferent.toUpkeep indifferent
  setType _ _ _ hc hw := hw.setHeap hc rfl
  setId _ _ _ _ _ hc hw := hw.setHeap hc rfl
  ownIntroducer _ _ hc hw := hw.setHeap hc rfl
  greet := Indifferent.greetUser indifferent client

/-- Any client may be removed. -/
theorem removing : Removing Parked (fun _ => False) ClosesSeats where
  toUpkeep := Indifferent.toUpkeep indifferent
  destroy r l f q _ w hw := by
    have hframe : DropFrame (fun _ => ClosesSeats) Vacates :=
      { vacates_frame with
        fail := fun w w' i hs ho hk => vacates_frame.fail w w' i hs ho hk.2 }
    unfold Ngircd.destroyClient
    simp only [wp_msg, liftM_shut_plain, wp_getWorld, wp_ofShut]
    exact wp_mono (fun _ _ h => h.parked hw) (hframe.destroys (fun _ => trivial) _ r l f q w)
  spare _ _ _ _ := nofun

theorem prepare (hw : Parked w) (henabled : e.Enabled w) : Parked (e.prepare w) := by
  have hopen (i : ConnId) (hsock : (w.conns i).sock = none) (c : Client) (conn : Conn)
      (hconn : conn.isClosing = false) : Parked (w.openConn i c conn) := by
    refine ⟨hw.toSeated.openConn hw.idle hsock c conn, fun j => ?_⟩
    by_cases hj : j = i
    · subst hj
      have hslot : (w.openConn j c conn).conns j =
          { conn with sock := some j, client := some w.nextRef } := World.setConn_conns_self _ _ _
      rw [hslot]
      exact hconn
    · have hkept : (w.openConn i c conn).conns j = (w.growPool i).conns j :=
        World.setConn_conns_ne _ hj _
      rw [hkept]
      unfold World.growPool
      dsimp only
      split_ifs
      · rfl
      · exact hw.idle j
  cases e with
  | accept i ip => exact hopen i henabled _ _ rfl
  | connect k i ip => exact hopen i henabled.1 _ _ rfl
  | ping i => exact hw.setConn ⟨rfl, fun h => h⟩ rfl
  | clock now => exact hw.of_same rfl rfl rfl rfl rfl
  | resolved | linked | line | close | expire => exact hw

/-- After every event clients are in their places. -/
theorem step (hl : Linked w) (hw : Parked w) (hstep : Step w e w') : Parked w' :=
  Indifferent.step_of_personal indifferent personal removing closer_closesSeats hl hw
    (hw.prepare hstep.1) (fun _ _ _ _ h hnew => h.addClient hnew.connId)
    (fun _ _ _ h hnew => h.addClient hnew.connId) (fun _ _ _ _ h hc _ _ => h.setHeap hc rfl) hstep

theorem start (conf : Conf) (env : Env) (host : Str) : Parked (World.start conf env host) where
  toListed := (Reachable.start conf env host).inListOrder
  slot r hr c i hc hi := by
    obtain rfl := List.mem_singleton.mp hr
    simp [World.start] at hc
    rw [← hc] at hi
    cases hi
  idle _ := rfl

end Parked

theorem Reachable.parked (h : Reachable w) : Parked w := by
  induction h with
  | start conf env host => exact .start conf env host
  | step hreach hstep ih => exact ih.step hreach.linked hstep

/-! ## Between two events -/

/-- The client list holds every client structure, newest first and none twice. -/
theorem client_list_complete (h : Reachable w) :
    w.order.Pairwise (· > ·) ∧ ∀ r c, w.heap r = some c → r ∈ w.order :=
  ⟨h.inListOrder.desc, h.tidy⟩

theorem client_list_complete_accept : ∃ w, Reachable w ∧ w.order = [1, 0] ∧
    ∀ r c, w.heap r = some c → r ∈ w.order := by
  obtain ⟨w, hw, horder⟩ := Reachable.exists_runAll 1 [.accept 1 "127.0.0.1"] {} {} "localhost"
    (P := fun w => w.order = [1, 0]) (by decide +kernel)
  exact ⟨w, hw, horder, (client_list_complete hw).2⟩

/-- No connection is being closed, and a client structure has a connection exactly if it is
the client of that connection, which is open then. -/
theorem connections_match_clients (h : Reachable w) :
    (∀ i, (w.conns i).isClosing = false) ∧ ∀ i r c, w.heap r = some c →
      (c.connId = some i ↔ (w.conns i).client = some r ∧ (w.conns i).sock ≠ none) := by
  have hidle := h.parked.idle
  refine ⟨hidle, fun i r c hc => ⟨fun hi => ?_, fun hi => h.linked.link i r c hi.1 hc⟩⟩
  obtain ⟨hclient, hbusy, -⟩ := h.parked.slot r (h.tidy r c hc) c i hc hi
  exact ⟨hclient, hbusy.resolve_right (by simp [hidle i])⟩

theorem connections_match_clients_accept : ∃ w c, Reachable w ∧ w.heap 1 = some c ∧
    c.connId = some 1 := by
  obtain ⟨w, hw, hclient, hsock, c, hc, -⟩ := Reachable.exists_runAll 1 [.accept 1 "127.0.0.1"] {} {}
    "localhost" (P := fun w => (w.conns 1).client = some 1 ∧ (w.conns 1).sock = some 1 ∧
      ∃ c ∈ w.heap 1, c.type = .unknown) (by decide +kernel)
  refine ⟨w, c, hw, hc, ((connections_match_clients hw).2 1 1 c hc).mpr ⟨hclient, ?_⟩⟩
  simp [hsock]

end Ngircd
