import Ngircd.ServerTable

/-!
# Counting connections

`New_Connection` and `New_Server` fill a slot of the connection pool and count it, each at
another point of a long function with many early exits, and `Conn_Close` clears the slot and
counts it off at its end.  In between it writes to clients and destroys one, which may close
further connections, and may ask once more to close one that is closing already.  This module
models the pool with its counters.  A close is a tree of closes, of any shape.
-/

namespace Ngircd

open Lib

variable {A : Type} {memory : Bool}

/-! ## The pool -/

/-- The part of a `CONNECTION` that counting is about: its socket, the flag `CONN_ISCLOSING`,
and the address of the peer. -/
structure Slot (A : Type) where
  sock : Option ConnId := none
  closing : Bool := false
  addr : Option A := none

/-- `sock > NONE`. -/
def Slot.isOpen {A : Type} (s : Slot A) : Bool := s.sock.isSome

/-- `My_Connections`, the counters, and the connection ids of the configured servers.
`history` has all values that `NumConnections` ever had, the latest one last. -/
structure ConnPool (A : Type) where
  slots : List (Slot A) := []
  numConnections : Nat := 0
  numConnectionsMax : Nat := 0
  numConnectionsAccepted : Nat := 0
  servers : List LinkId := []
  history : List Nat := [0]

/-- What can go wrong in `Conn_Close`: there is no connection to count off, or the connection
that is to be closed is not open. -/
inductive CloseFault where
  | assertion
  | notOpen
  deriving DecidableEq, Repr

/-- Calls of `Conn_Close`, one after the other: each with the calls that are made while its
socket is still open, and those that are made after that. -/
inductive CloseCalls where
  | done
  | call (idx : ConnId) (during after next : CloseCalls)

namespace ConnPool

variable [DecidableEq A]

/-- A change of one slot. -/
def edit (p : ConnPool A) (i : ConnId) (f : Slot A → Slot A) : ConnPool A :=
  { p with slots := p.slots.modify i f }

/-- `Count_Connections`. -/
def countConnections (p : ConnPool A) (a : A) : Nat :=
  p.slots.countP fun s => s.isOpen && s.addr == some a

/-- `Account_Connection`. -/
def accountConnection (p : ConnPool A) : ConnPool A :=
  { p with
    numConnections := p.numConnections + 1
    numConnectionsMax :=
      if p.numConnections + 1 > p.numConnectionsMax then p.numConnections + 1
      else p.numConnectionsMax
    history := p.history ++ [p.numConnections + 1] }

/-- `Socket2Index`; `memory` tells whether the pool can grow. -/
def socket2Index (memory : Bool) (p : ConnPool A) (sock : ConnId) : Option (ConnPool A) :=
  if sock < p.slots.length then some p
  else if memory then
    some { p with slots := p.slots ++ List.replicate (sock + 1 - p.slots.length) {} }
  else none

/-- `Conf_UnsetServer`. -/
def unsetServer (p : ConnPool A) (idx : ConnId) : ConnPool A :=
  { p with servers := p.servers.map fun c => if c = .connection idx then .none else c }

/-- The end of `Conn_Close`. -/
def countDown (p : ConnPool A) : ConnPool A :=
  { p with
    numConnections := p.numConnections - 1, history := p.history ++ [p.numConnections - 1] }

/-- `Conn_Close`, for calls one after the other. -/
def closeAll : CloseCalls → ConnPool A → Except CloseFault (ConnPool A)
  | .done, p => .ok p
  | .call idx during after next, p =>
    match p.slots[idx]? with
    | none => .error .notOpen
    | some s =>
      if s.closing then closeAll next p
      else if s.sock = none then .error .notOpen
      else do
        let p ← closeAll during (p.edit idx fun s => { s with closing := true })
        let p ← closeAll after (p.edit idx fun s => { s with sock := none })
        let p := (p.unsetServer idx).edit idx fun _ => {}
        if p.numConnections = 0 then .error .assertion else closeAll next p.countDown

end ConnPool

/-- What the system answers to the calls of `New_Connection` and `New_Server`: the new socket,
and whether the address can be written, the socket be set up, the peer be reached, the pool
grow, the socket be watched, and a client be made. -/
structure SocketAnswers where
  sock : Option ConnId
  named : Bool := true
  ready : Bool := true
  reached : Bool := true
  memory : Bool := true
  watched : Bool := true
  client : Bool := true

namespace ConnPool

variable [DecidableEq A]

/-- The part of `New_Connection` that fills a slot, up to `Account_Connection`. -/
def fillSlot (a : SocketAnswers) (sock : ConnId) (addr : A) (p : ConnPool A) : ConnPool A × Bool :=
  match p.socket2Index a.memory sock with
  | none => (p, false)
  | some p =>
    if !a.watched then (p, false)
    else if !a.client then (p, false)
    else
      ((p.edit sock fun _ => { sock := some sock, addr := some addr }).accountConnection, true)

/-- `New_Connection` up to `Account_Connection`, and whether the connection is accepted. -/
def accept (maxConnections maxConnectionsIP : Int) (a : SocketAnswers) (addr : A)
    (p : ConnPool A) : ConnPool A × Bool :=
  match a.sock with
  | none => (p, false)
  | some sock =>
    let p := { p with numConnectionsAccepted := p.numConnectionsAccepted + 1 }
    if !a.named then (p, false)
    else if !a.ready then (p, false)
    else if maxConnections > 0 ∧ (p.numConnections : Int) ≥ maxConnections then (p, false)
    else if maxConnectionsIP > 0 ∧ (p.countConnections addr : Int) ≥ maxConnectionsIP then
      (p, false)
    else p.fillSlot a sock addr

/-- `New_Connection`; `login` are the closes while `Conn_StartLogin` runs. -/
def newConnection (maxConnections maxConnectionsIP : Int) (a : SocketAnswers) (addr : A)
    (login : CloseCalls) (p : ConnPool A) : Except CloseFault (ConnPool A) :=
  let (p, accepted) := p.accept maxConnections maxConnectionsIP a addr
  if accepted then closeAll login p else .ok p

/-- A link to the configured server `k` is given up. -/
def giveUp (p : ConnPool A) (k : Nat) : ConnPool A := { p with servers := p.servers.set k .none }

/-- `Conf_SetServer`; `none` if the server has another connection. -/
def setServer (p : ConnPool A) (k : Nat) (idx : ConnId) : Option (ConnPool A) :=
  match p.servers[k]? with
  | some (.connection other) =>
    if other ≠ idx then none else some { p with servers := p.servers.set k (.connection idx) }
  | _ => some { p with servers := p.servers.set k (.connection idx) }

/-- `Conf_Server[k].conn_id > NONE`. -/
def serverLinked (p : ConnPool A) (k : Nat) : Bool :=
  match p.servers[k]? with
  | some (.connection _) => true
  | _ => false

/-- The part of `New_Server` that fills a slot. -/
def linkSlot (k : Nat) (a : SocketAnswers) (sock : ConnId) (addr : A) (p : ConnPool A) :
    Except CloseFault (ConnPool A) :=
  match p.socket2Index a.memory sock with
  | none => .ok (p.giveUp k)
  | some p =>
    if !a.watched then .ok (p.giveUp k)
    else if !a.client then .ok ((p.edit sock fun _ => {}).giveUp k)
    else
      match (p.edit sock fun _ => {}).accountConnection.setServer k sock with
      | none => closeAll (.call sock .done .done .done) (p.edit sock fun _ => {}).accountConnection
      | some p => .ok (p.edit sock fun s => { s with sock := some sock, addr := some addr })

/-- `New_Server` for the configured server `k`. -/
def newServer (k : Nat) (a : SocketAnswers) (addr : A) (p : ConnPool A) :
    Except CloseFault (ConnPool A) :=
  if p.serverLinked k then .ok p
  else
    match a.sock with
    | none => .ok (p.giveUp k)
    | some sock =>
      if !a.named then .ok (p.giveUp k)
      else if !a.ready then .ok (p.giveUp k)
      else if !a.reached then .ok (p.giveUp k)
      else p.linkSlot k a sock addr

end ConnPool

/-! ## The counter -/

/-- The slots that are counted: those that are open, and those that are closed but whose
`Conn_Close` has not ended. -/
def Slot.counted {A : Type} (s : Slot A) : Bool := s.isOpen || s.closing

/-- The counters are right while closes may be in progress. -/
structure ConnPool.Counted {A : Type} (p : ConnPool A) : Prop where
  number : p.numConnections = p.slots.countP Slot.counted
  last : p.history.getLast? = some p.numConnections
  max_mem : p.numConnectionsMax ∈ p.history
  le_max : ∀ v ∈ p.history, v ≤ p.numConnectionsMax

/-- The same slots are closing, and nothing else is known about the others. -/
structure ConnPool.SameClosing {A : Type} (p p' : ConnPool A) : Prop where
  keeps : ∀ (i : ConnId) (s : Slot A), p.slots[i]? = some s → s.closing = true → p'.slots[i]? = some s
  adds : ∀ (i : ConnId) (s : Slot A), p'.slots[i]? = some s → s.closing = true → p.slots[i]? = some s

namespace ConnPool

variable {p p' p₁ p₂ : ConnPool A} {i idx : ConnId} {s : Slot A} {f : Slot A → Slot A}

theorem SameClosing.refl (p : ConnPool A) : p.SameClosing p := ⟨fun _ _ h _ => h, fun _ _ h _ => h⟩

theorem SameClosing.trans (h₁ : p.SameClosing p₁) (h₂ : p₁.SameClosing p₂) :
    p.SameClosing p₂ where
  keeps i s hs hc := h₂.keeps i s (h₁.keeps i s hs hc) hc
  adds i s hs hc := h₁.adds i s (h₂.adds i s hs hc) hc

theorem getElem?_edit_ne (h : i ≠ idx) : (p.edit idx f).slots[i]? = p.slots[i]? := by
  unfold edit
  simp [Ne.symm h]

theorem getElem?_edit_self : (p.edit idx f).slots[idx]? = p.slots[idx]?.map f := by
  unfold edit
  simp

/-- Changing a slot changes a count by that slot. -/
theorem countP_edit (P : Slot A → Bool) (hs : p.slots[idx]? = some s) :
    (p.edit idx f).slots.countP P + (P s).toNat = p.slots.countP P + (P (f s)).toNat := by
  obtain ⟨hlt, rfl⟩ := List.getElem?_eq_some_iff.mp hs
  have hset : p.slots.modify idx f = p.slots.set idx (f p.slots[idx]) := by
    refine List.ext_getElem? fun j => ?_
    by_cases hj : idx = j
    · subst hj
      simp [hlt]
    · simp [hj]
  have hcount := List.countP_set (p := P) (a := f p.slots[idx]) hlt
  unfold edit
  rw [hset, hcount]
  have hpos : P p.slots[idx] = true → 0 < p.slots.countP P := fun h =>
    List.countP_pos_iff.mpr ⟨_, List.getElem_mem hlt, h⟩
  cases hb : P p.slots[idx] with
  | true =>
    have := hpos hb
    cases P (f p.slots[idx]) <;> simp <;> omega
  | false => cases P (f p.slots[idx]) <;> simp

/-- An edit that keeps whether the slot is counted keeps the count. -/
theorem Counted.edit (hp : p.Counted) (hs : p.slots[idx]? = some s)
    (hsame : (f s).counted = s.counted) : (p.edit idx f).Counted where
  number := by
    have hcount := countP_edit (f := f) Slot.counted hs
    rw [hsame] at hcount
    exact hp.number.trans (Nat.add_right_cancel hcount).symm
  last := hp.last
  max_mem := hp.max_mem
  le_max := hp.le_max

theorem Counted.unsetServer (hp : p.Counted) (idx : ConnId) : (p.unsetServer idx).Counted :=
  ⟨hp.number, hp.last, hp.max_mem, hp.le_max⟩

section

variable (hp : p.Counted) (hs : p.slots[idx]? = some s) (hcounted : s.counted = true)
include hp hs hcounted

/-- A slot that is counted is there to be counted off. -/
theorem Counted.pos :
    0 < p.numConnections := by
  rw [hp.number]
  exact List.countP_pos_iff.mpr ⟨s, List.mem_of_getElem? hs, hcounted⟩

/-- Clearing a counted slot and counting it off. -/
theorem Counted.countDown : (p.edit idx fun _ => {}).countDown.Counted where
  number := by
    have hcount := countP_edit (f := fun _ => {}) Slot.counted hs
    rw [hcounted] at hcount
    have hnumber := hp.number
    simp only [Bool.toNat_true, show (({} : Slot A).counted).toNat = 0 from rfl] at hcount
    simp only [ConnPool.countDown]
    have hsame : (p.edit idx fun _ => {}).numConnections = p.numConnections := rfl
    omega
  last := by simp [ConnPool.countDown]
  max_mem := List.mem_append_left _ hp.max_mem
  le_max v hv := by
    rcases List.mem_append.mp hv with hv | hv
    · exact hp.le_max v hv
    · obtain rfl := List.mem_singleton.mp hv
      have hle := hp.le_max _ (List.mem_of_getLast? hp.last)
      exact Nat.le_trans (Nat.sub_le _ _) hle

end

/-- What a sequence of closes may come to. -/
def CloseRight (p : ConnPool A) : Except CloseFault (ConnPool A) → Prop
  | .ok p' => p'.Counted ∧ p.SameClosing p'
  | .error fault => fault = .notOpen

theorem CloseRight.of_same {r : Except CloseFault (ConnPool A)} (h : p'.CloseRight r)
    (hsame : p.SameClosing p') : p.CloseRight r := by
  cases r with
  | error fault => exact h
  | ok p'' => exact ⟨h.1, hsame.trans h.2⟩

/-- The slot is marked as closing, and its socket is closed: it stays counted. -/
theorem Counted.startClosing (hp : p.Counted) (hs : p.slots[idx]? = some s)
    (hopen : s.sock ≠ none) : (p.edit idx fun s => { s with closing := true }).Counted := by
  refine hp.edit hs ?_
  have hcounted : s.counted = true := by
    simp [Slot.counted, Slot.isOpen, Option.isSome_iff_ne_none, hopen]
  rw [hcounted]
  simp [Slot.counted]

@[inherit_doc Counted.startClosing]
theorem Counted.closeSocket (hp : p.Counted) (hs : p.slots[idx]? = some s)
    (hclosing : s.closing = true) : (p.edit idx fun s => { s with sock := none }).Counted := by
  refine hp.edit hs ?_
  simp [Slot.counted, hclosing]

/-- Outside the slot that is closed, the parts of a close keep the slots that are closing. -/
theorem SameClosing.around {p₀ p₃ p₄ p₅ : ConnPool A}
    (h₀ : ∀ i, i ≠ idx → p₀.slots[i]? = p.slots[i]?) (h₁ : p₀.SameClosing p₁)
    (h₂ : ∀ i, i ≠ idx → p₃.slots[i]? = p₁.slots[i]?) (h₃ : p₃.SameClosing p₄)
    (h₄ : ∀ i, i ≠ idx → p₅.slots[i]? = p₄.slots[i]?)
    (hbefore : ∀ s : Slot A, p.slots[idx]? = some s → s.closing = false)
    (hafter : ∀ s : Slot A, p₅.slots[idx]? = some s → s.closing = false) : p.SameClosing p₅ where
  keeps i s hs hc := by
    have hi : i ≠ idx := by
      rintro rfl
      exact absurd hc (by simp [hbefore s hs])
    rw [h₄ i hi]
    refine h₃.keeps i s ?_ hc
    rw [h₂ i hi]
    refine h₁.keeps i s ?_ hc
    rwa [h₀ i hi]
  adds i s hs hc := by
    have hi : i ≠ idx := by
      rintro rfl
      exact absurd hc (by simp [hafter s hs])
    rw [← h₀ i hi]
    refine h₁.adds i s ?_ hc
    rw [← h₂ i hi]
    refine h₃.adds i s ?_ hc
    rwa [← h₄ i hi]

/-- One close, given what the closes within it come to: the counters are right at its end, and
there is a connection to count off. -/
theorem SameClosing.close (hs : p.slots[idx]? = some s) (hclosing : s.closing = false)
    (hduring : (p.edit idx fun s => { s with closing := true }).SameClosing p₁)
    (hp₂ : p₂.Counted)
    (hafter : (p₁.edit idx fun s => { s with sock := none }).SameClosing p₂) :
    let p₃ := (p₂.unsetServer idx).edit idx fun _ => {}
    0 < p₃.numConnections ∧ p₃.countDown.Counted ∧ p.SameClosing p₃.countDown := by
  have hs₁ : p₁.slots[idx]? = some { s with closing := true } := by
    refine hduring.keeps idx _ ?_ rfl
    rw [getElem?_edit_self, hs]
    rfl
  have hs₂ : p₂.slots[idx]? = some { s with closing := true, sock := none } := by
    refine hafter.keeps idx _ ?_ rfl
    rw [getElem?_edit_self, hs₁]
    rfl
  have hunset := hp₂.unsetServer idx
  refine ⟨hunset.pos hs₂ rfl, hunset.countDown hs₂ rfl, ?_⟩
  refine .around (fun i hi => getElem?_edit_ne hi) hduring (fun i hi => getElem?_edit_ne hi) hafter
    (fun i hi => ?_) ?_ ?_
  · exact getElem?_edit_ne (p := p₂.unsetServer idx) hi
  · intro s' hs'
    rw [hs] at hs'
    obtain rfl := Option.some.inj hs'
    exact hclosing
  · intro s' hs'
    have hself : ((p₂.unsetServer idx).edit idx fun _ => {}).slots[idx]? =
        (p₂.slots[idx]?).map fun _ => {} := getElem?_edit_self
    rw [hs₂] at hself
    obtain rfl := Option.mem_unique hs' hself
    rfl

/-- Closes keep the counters right: there is always a connection to count off. -/
theorem Counted.closeAll (calls : CloseCalls) (hp : p.Counted) :
    p.CloseRight (ConnPool.closeAll calls p) := by
  induction calls generalizing p with
  | done => exact ⟨hp, .refl p⟩
  | call idx during after next ihDuring ihAfter ihNext =>
    unfold ConnPool.closeAll
    cases hs : p.slots[idx]? with
    | none => exact rfl
    | some s =>
      simp only
      cases hclosing : s.closing with
      | true =>
        rw [if_pos rfl]
        exact ihNext hp
      | false =>
        simp only [Bool.false_eq_true, if_false]
        by_cases hsock : s.sock = none
        · rw [if_pos hsock]
          exact rfl
        rw [if_neg hsock]
        have hduring := ihDuring (hp.startClosing hs hsock)
        cases hr₁ : ConnPool.closeAll during (p.edit idx fun s => { s with closing := true }) with
        | error fault =>
          rw [hr₁] at hduring
          exact hduring
        | ok p₁ =>
          rw [hr₁] at hduring
          obtain ⟨hp₁, hsame₁⟩ := hduring
          have hs₁ : p₁.slots[idx]? = some { s with closing := true } := by
            refine hsame₁.keeps idx _ ?_ rfl
            rw [getElem?_edit_self, hs]
            rfl
          have hafter := ihAfter (hp₁.closeSocket hs₁ rfl)
          cases hr₂ : ConnPool.closeAll after (p₁.edit idx fun s => { s with sock := none }) with
          | error fault =>
            rw [hr₂] at hafter
            simp only [bind, Except.bind, hr₂]
            exact hafter
          | ok p₂ =>
            rw [hr₂] at hafter
            obtain ⟨hpos, hp₃, hsame₃⟩ :=
              SameClosing.close hs hclosing hsame₁ hafter.1 hafter.2
            simp only [bind, Except.bind, hr₂]
            rw [if_neg (Nat.ne_of_gt hpos)]
            exact (ihNext hp₃).of_same hsame₃

/-! ## Between events -/

/-- Between two events no close is in progress. -/
structure Exact (p : ConnPool A) : Prop extends p.Counted where
  settled : ∀ s ∈ p.slots, s.closing = false

theorem Exact.number_open (hp : p.Exact) : p.numConnections = p.slots.countP Slot.isOpen := by
  rw [hp.number]
  refine List.countP_congr fun s hs => ?_
  simp [Slot.counted, hp.settled s hs]

theorem Exact.of_sameClosing (hp : p.Exact) (hp' : p'.Counted) (hsame : p.SameClosing p') :
    p'.Exact where
  toCounted := hp'
  settled s hs := by
    obtain ⟨i, hi⟩ := List.getElem?_of_mem hs
    by_contra hclosing
    have hbefore := hsame.adds i s hi (by simpa using hclosing)
    exact hclosing (hp.settled s (List.mem_of_getElem? hbefore))

/-- What an event may come to. -/
def EventRight : Except CloseFault (ConnPool A) → Prop
  | .ok p' => p'.Exact
  | .error fault => fault = .notOpen

theorem Exact.closeAll (hp : p.Exact) (calls : CloseCalls) :
    EventRight (ConnPool.closeAll calls p) := by
  have hright := hp.toCounted.closeAll calls
  cases hr : ConnPool.closeAll calls p with
  | error fault =>
    rw [hr] at hright
    exact hright
  | ok p' =>
    rw [hr] at hright
    exact hp.of_sameClosing hright.1 hright.2

/-- Nothing that is counted has changed. -/
theorem Exact.of_same (hp : p.Exact) (hslots : p'.slots = p.slots)
    (hnumber : p'.numConnections = p.numConnections)
    (hmax : p'.numConnectionsMax = p.numConnectionsMax) (hhistory : p'.history = p.history) :
    p'.Exact where
  number := by rw [hnumber, hslots, hp.number]
  last := by rw [hhistory, hnumber, hp.last]
  max_mem := by
    rw [hmax, hhistory]
    exact hp.max_mem
  le_max := by
    rw [hmax, hhistory]
    exact hp.le_max
  settled := by
    rw [hslots]
    exact hp.settled

/-- A bigger pool has more slots that are not open. -/
theorem socket2Index_spec (h : p.socket2Index memory idx = some p') :
    idx < p'.slots.length ∧ p'.numConnections = p.numConnections ∧
      p'.numConnectionsMax = p.numConnectionsMax ∧ p'.history = p.history ∧
      p'.servers = p.servers ∧ ∃ k, p'.slots = p.slots ++ List.replicate k ({} : Slot A) := by
  unfold socket2Index at h
  split_ifs at h with hlt hmemory
  · obtain rfl := Option.some.inj h
    exact ⟨hlt, rfl, rfl, rfl, rfl, 0, by simp⟩
  · obtain rfl := Option.some.inj h
    refine ⟨?_, rfl, rfl, rfl, rfl, _, rfl⟩
    simp only [List.length_append, List.length_replicate]
    rw [Nat.add_comm]
    exact Nat.lt_of_succ_le (Nat.le_add_of_sub_le (Nat.le_refl _))

theorem countP_socket2Index (h : p.socket2Index memory idx = some p')
    {P : Slot A → Bool} (hP : P {} = false) : p'.slots.countP P = p.slots.countP P := by
  obtain ⟨-, -, -, -, -, k, hslots⟩ := socket2Index_spec h
  rw [hslots, List.countP_append, List.countP_replicate]
  simp [hP]

theorem Exact.socket2Index (hp : p.Exact)
    (h : p.socket2Index memory idx = some p') : p'.Exact := by
  obtain ⟨-, hnumber, hmax, hhistory, -, k, hslots⟩ := socket2Index_spec h
  refine ⟨⟨?_, ?_, ?_, ?_⟩, ?_⟩
  · rw [hnumber, hp.number, countP_socket2Index h rfl]
  · rw [hhistory, hnumber]
    exact hp.last
  · rw [hhistory, hmax]
    exact hp.max_mem
  · rw [hhistory, hmax]
    exact hp.le_max
  · rw [hslots]
    intro s hs
    rcases List.mem_append.mp hs with hs | hs
    · exact hp.settled s hs
    · rw [List.eq_of_mem_replicate hs]

/-- The system gives out sockets that are not in use. -/
def Fresh (p : ConnPool A) (a : SocketAnswers) : Prop :=
  ∀ sock (s : Slot A), a.sock = some sock → p.slots[sock]? = some s → s.isOpen = false

/-- A slot that was closed is opened and counted. -/
theorem Exact.opened (hp : p.Exact) (hs : p.slots[idx]? = some s) (hclosed : s.isOpen = false)
    (hopen : (f s).isOpen = true) (hsettled : (f s).closing = false) :
    (p.edit idx f).accountConnection.Exact where
  number := by
    have hbefore : s.counted = false := by
      simp [Slot.counted, hclosed, hp.settled s (List.mem_of_getElem? hs)]
    have hafter : (f s).counted = true := by simp [Slot.counted, hopen]
    have hcount := countP_edit (f := f) Slot.counted hs
    rw [hbefore, hafter] at hcount
    have hnumber := hp.number
    simp only [Bool.toNat_false, Bool.toNat_true] at hcount
    simp only [accountConnection]
    have hsame : (p.edit idx f).numConnections = p.numConnections := rfl
    omega
  last := by simp [accountConnection]
  max_mem := by
    simp only [accountConnection]
    split_ifs
    · exact List.mem_append_right _ (.head _)
    · exact List.mem_append_left _ hp.max_mem
  le_max v hv := by
    have hle : v ≤ p.numConnectionsMax ∨ v = p.numConnections + 1 := by
      rcases List.mem_append.mp hv with hv | hv
      · exact .inl (hp.le_max v hv)
      · exact .inr (List.mem_singleton.mp hv)
    have hnumber : (p.edit idx f).numConnections = p.numConnections := rfl
    have hmax : (p.edit idx f).numConnectionsMax = p.numConnectionsMax := rfl
    simp only [accountConnection]
    split_ifs <;> omega
  settled s' hs' := by
    obtain ⟨i, hi⟩ := List.getElem?_of_mem hs'
    have hslots : (p.edit idx f).slots[i]? = some s' := hi
    by_cases heq : i = idx
    · subst heq
      rw [getElem?_edit_self, hs] at hslots
      obtain rfl := Option.some.inj hslots
      exact hsettled
    · rw [getElem?_edit_ne heq] at hslots
      exact hp.settled s' (List.mem_of_getElem? hslots)

/-- A slot that is not open is cleared. -/
theorem Exact.cleared (hp : p.Exact) (hs : p.slots[idx]? = some s) (hclosed : s.isOpen = false) :
    (p.edit idx fun _ => {}).Exact := by
  have hsettled := hp.settled s (List.mem_of_getElem? hs)
  refine ⟨hp.toCounted.edit hs (by simp [Slot.counted, Slot.isOpen, hsettled, ← hclosed]), ?_⟩
  intro s' hs'
  obtain ⟨i, hi⟩ := List.getElem?_of_mem hs'
  by_cases heq : i = idx
  · subst heq
    rw [getElem?_edit_self, hs] at hi
    obtain rfl := Option.some.inj hi
    rfl
  · rw [getElem?_edit_ne heq] at hi
    exact hp.settled s' (List.mem_of_getElem? hi)

/-- In the pool that has room for a fresh socket, its slot is not open. -/
theorem slot_of_fresh (hfresh : ∀ s, p.slots[idx]? = some s → s.isOpen = false)
    (h : p.socket2Index memory idx = some p') :
    ∃ s, p'.slots[idx]? = some s ∧ s.isOpen = false := by
  obtain ⟨hlt, -, -, -, -, k, hslots⟩ := socket2Index_spec h
  obtain ⟨s, hs⟩ : ∃ s, p'.slots[idx]? = some s := ⟨_, List.getElem?_eq_getElem hlt⟩
  refine ⟨s, hs, ?_⟩
  have hget := hs
  rw [hslots] at hget
  by_cases hin : idx < p.slots.length
  · rw [List.getElem?_append_left hin] at hget
    exact hfresh _ hget
  · rw [List.getElem?_append_right (Nat.le_of_not_lt hin)] at hget
    rw [List.eq_of_mem_replicate (List.mem_of_getElem? hget)]
    rfl

section

variable [DecidableEq A] {a : SocketAnswers}

/-- The slot is filled and one connection more is counted, also for the address, or nothing
has changed. -/
theorem Exact.fillSlot (addr : A) (hp : p.Exact)
    (hfresh : ∀ s, p.slots[idx]? = some s → s.isOpen = false) :
    (p.fillSlot a idx addr).1.Exact ∧
      ((p.fillSlot a idx addr).2 = true →
        (p.fillSlot a idx addr).1.numConnections = p.numConnections + 1 ∧
          (p.fillSlot a idx addr).1.countConnections addr = p.countConnections addr + 1) := by
  unfold ConnPool.fillSlot
  cases hpool : p.socket2Index a.memory idx with
  | none => exact ⟨hp, fun h => nomatch h⟩
  | some p₂ =>
    have hp₂ := hp.socket2Index hpool
    simp only
    split_ifs with hwatched hclient
    · exact ⟨hp₂, fun h => nomatch h⟩
    · exact ⟨hp₂, fun h => nomatch h⟩
    · obtain ⟨s, hs, hclosed⟩ := slot_of_fresh hfresh hpool
      refine ⟨hp₂.opened hs hclosed rfl rfl, fun _ => ⟨?_, ?_⟩⟩
      · have hnumber : p₂.numConnections = p.numConnections := (socket2Index_spec hpool).2.1
        exact congrArg (· + 1) hnumber
      · have hcount := countP_edit
          (f := fun _ : Slot A => { sock := some idx, addr := some addr })
          (fun s => s.isOpen && s.addr == some addr) hs
        have hbefore : p₂.slots.countP (fun s => s.isOpen && s.addr == some addr) =
            p.slots.countP (fun s => s.isOpen && s.addr == some addr) :=
          countP_socket2Index hpool rfl
        have hnew : (Slot.isOpen ({ sock := some idx, addr := some addr } : Slot A) &&
            some addr == some addr) = true := by simp [Slot.isOpen]
        rw [hbefore, hnew] at hcount
        simp only [hclosed, Bool.false_and, Bool.toNat_false, Nat.add_zero] at hcount
        exact hcount

/-- A connection is refused and nothing is counted, or it is accepted within the limits. -/
theorem Exact.accept (maxConnections maxConnectionsIP : Int) (addr : A) (hp : p.Exact)
    (hfresh : p.Fresh a) :
    (p.accept maxConnections maxConnectionsIP a addr).1.Exact ∧
      ((p.accept maxConnections maxConnectionsIP a addr).2 = true →
        (0 < maxConnections →
          ((p.accept maxConnections maxConnectionsIP a addr).1.numConnections : Int) ≤
            maxConnections) ∧
        (0 < maxConnectionsIP →
          ((p.accept maxConnections maxConnectionsIP a addr).1.countConnections addr : Int) ≤
            maxConnectionsIP)) := by
  unfold ConnPool.accept
  cases hsock : a.sock with
  | none => exact ⟨hp, fun h => nomatch h⟩
  | some sock =>
    have hp₁ : { p with numConnectionsAccepted := p.numConnectionsAccepted + 1 }.Exact :=
      hp.of_same rfl rfl rfl rfl
    simp only
    split_ifs with hnamed hready hfull hfullIP
    · exact ⟨hp₁, fun h => nomatch h⟩
    · exact ⟨hp₁, fun h => nomatch h⟩
    · exact ⟨hp₁, fun h => nomatch h⟩
    · exact ⟨hp₁, fun h => nomatch h⟩
    · obtain ⟨hfilled, haccepted⟩ := hp₁.fillSlot addr fun s hs => hfresh sock s hsock hs
      refine ⟨hfilled, fun h => ?_⟩
      obtain ⟨hnumber, hcount⟩ := haccepted h
      rw [hnumber, hcount]
      constructor
      · intro hlimit
        push_cast
        omega
      · intro hlimit
        push_cast
        omega

omit [DecidableEq A] in
/-- A server without a connection gets one. -/
theorem setServer_of_not_linked {k : Nat} (h : p.serverLinked k = false) (idx : ConnId) :
    p.setServer k idx = some { p with servers := p.servers.set k (.connection idx) } := by
  unfold serverLinked at h
  unfold setServer
  split
  · rename_i other hother
    rw [hother] at h
    cases h
  · rfl

omit [DecidableEq A] in
/-- `New_Server` counts the connection that it opens. -/
theorem Exact.newServer (addr : A) (hp : p.Exact) (hfresh : p.Fresh a) (k : Nat) :
    EventRight (p.newServer k a addr) := by
  have hgiveUp : ∀ {q : ConnPool A}, q.Exact → (q.giveUp k).Exact := fun hq =>
    hq.of_same rfl rfl rfl rfl
  unfold ConnPool.newServer
  cases hlinked : p.serverLinked k with
  | true => exact hp
  | false =>
    simp only [Bool.false_eq_true, if_false]
    cases hsock : a.sock with
    | none => exact hgiveUp hp
    | some sock =>
      simp only
      split_ifs with hnamed hready hreached
      · exact hgiveUp hp
      · exact hgiveUp hp
      · exact hgiveUp hp
      unfold linkSlot
      cases hpool : p.socket2Index a.memory sock with
      | none => exact hgiveUp hp
      | some p₂ =>
        have hp₂ := hp.socket2Index hpool
        obtain ⟨s, hs, hclosed⟩ := slot_of_fresh (fun s hs => hfresh sock s hsock hs) hpool
        have hp₃ := hp₂.cleared hs hclosed
        have hs₃ : (p₂.edit sock fun _ => {}).slots[sock]? = some {} := by
          rw [getElem?_edit_self, hs]
          rfl
        have hlinked₃ : (p₂.edit sock fun _ => {}).accountConnection.serverLinked k = false := by
          have hservers := (socket2Index_spec hpool).2.2.2.2.1
          unfold serverLinked at hlinked ⊢
          change (match p₂.servers[k]? with
            | some (.connection _) => true
            | _ => false) = false
          rw [hservers]
          exact hlinked
        simp only [setServer_of_not_linked hlinked₃]
        split_ifs with hwatched hclient
        · exact hgiveUp hp₂
        · exact hgiveUp hp₃
        · refine (hp₃.opened (f := fun s => { s with sock := some sock, addr := some addr })
            hs₃ rfl rfl rfl).of_same rfl rfl rfl rfl

end

end ConnPool

/-! ## Runs -/

/-- The events that change the pool: a connection is accepted or refused, a link to a
configured server is opened, connections are closed, and the ids of the configured servers
change for other reasons. -/
inductive PoolEvent (A : Type) where
  | accept (a : SocketAnswers) (addr : A) (login : CloseCalls)
  | connect (k : Nat) (a : SocketAnswers) (addr : A)
  | close (calls : CloseCalls)
  | servers (ids : List LinkId)

section

variable [DecidableEq A]

/-- The system gives out sockets that are not in use. -/
def PoolEvent.Possible (p : ConnPool A) : PoolEvent A → Prop
  | accept a _ _ => p.Fresh a
  | connect _ a _ => p.Fresh a
  | _ => True

/-- What an event does. -/
def PoolEvent.handle (maxConnections maxConnectionsIP : Int) (p : ConnPool A) :
    PoolEvent A → Except CloseFault (ConnPool A)
  | accept a addr login => p.newConnection maxConnections maxConnectionsIP a addr login
  | connect k a addr => p.newServer k a addr
  | close calls => p.closeAll calls
  | servers ids => .ok { p with servers := ids }

/-- The states between two events, with constant limits. -/
inductive PoolRun (maxConnections maxConnectionsIP : Int) : ConnPool A → Prop where
  | start (servers : List LinkId) : PoolRun maxConnections maxConnectionsIP { servers }
  | event {p p' : ConnPool A} {e : PoolEvent A} : PoolRun maxConnections maxConnectionsIP p →
      e.Possible p → e.handle maxConnections maxConnectionsIP p = .ok p' →
      PoolRun maxConnections maxConnectionsIP p'

variable {maxConnections maxConnectionsIP : Int} {p p' : ConnPool A}

theorem ConnPool.Exact.event (maxConnections maxConnectionsIP : Int) (hp : p.Exact)
    {e : PoolEvent A} (hpossible : e.Possible p) :
    ConnPool.EventRight (e.handle maxConnections maxConnectionsIP p) := by
  cases e with
  | accept a addr login =>
    have haccept := (hp.accept maxConnections maxConnectionsIP addr hpossible).1
    simp only [PoolEvent.handle, ConnPool.newConnection]
    split_ifs
    · exact haccept.closeAll login
    · exact haccept
  | connect k a addr => exact hp.newServer addr hpossible k
  | close calls => exact hp.closeAll calls
  | servers ids => exact hp.of_same rfl rfl rfl rfl

theorem PoolRun.exact (h : PoolRun maxConnections maxConnectionsIP p) : p.Exact := by
  induction h with
  | start servers =>
    refine ⟨⟨rfl, rfl, List.mem_singleton.mpr rfl, fun v hv => ?_⟩, fun s hs => nomatch hs⟩
    exact Nat.le_of_eq (List.mem_singleton.mp hv)
  | event _ hpossible hrun ih =>
    have hright := ih.event maxConnections maxConnectionsIP hpossible
    rw [hrun] at hright
    exact hright

/-- Connection accounting is exact: between two events `NumConnections` is the number of open
slots, `NumConnectionsMax` is the maximum that it ever had, no event makes the assertion of
`Conn_Close` fail, and an accepted connection stays within the limits. -/
theorem connection_accounting_exact (h : PoolRun maxConnections maxConnectionsIP p) :
    p.numConnections = p.slots.countP Slot.isOpen ∧
    (p.history.getLast? = some p.numConnections ∧ p.numConnectionsMax ∈ p.history ∧
      ∀ v ∈ p.history, v ≤ p.numConnectionsMax) ∧
    ∀ e : PoolEvent A, e.Possible p →
      e.handle maxConnections maxConnectionsIP p ≠ .error .assertion ∧
      ∀ a addr login p', e = .accept a addr login →
        p.accept maxConnections maxConnectionsIP a addr = (p', true) →
        (0 < maxConnections → (p'.numConnections : Int) ≤ maxConnections) ∧
        (0 < maxConnectionsIP → (p'.countConnections addr : Int) ≤ maxConnectionsIP) := by
  have hp := h.exact
  refine ⟨hp.number_open, ⟨hp.last, hp.max_mem, hp.le_max⟩, fun e hpossible => ⟨?_, ?_⟩⟩
  · intro hfails
    have hright := hp.event maxConnections maxConnectionsIP hpossible
    rw [hfails] at hright
    cases hright
  · rintro a addr login p' rfl haccept
    have hlimits := (hp.accept maxConnections maxConnectionsIP addr hpossible).2
    rw [haccept] at hlimits
    exact hlimits rfl

end

/-- A connection is accepted and closed, and its close is asked for once more on the way. -/
theorem connection_accounting_exact_once : ∃ p : ConnPool Nat, PoolRun 2 1 p ∧
    p.numConnections = p.slots.countP Slot.isOpen ∧ p.numConnections = 0 ∧
    p.numConnectionsMax = 1 := by
  have haccept : PoolEvent.handle 2 1 ({} : ConnPool Nat) (.accept { sock := some 3 } 7 .done) =
      .ok _ := rfl
  have hfresh : (PoolEvent.accept { sock := some 3 } 7 .done).Possible ({} : ConnPool Nat) :=
    fun _ _ _ hs => nomatch hs
  have hopen := PoolRun.event (.start []) hfresh haccept
  have hrun := hopen.event (e := .close (.call 3 .done (.call 3 .done .done .done) .done))
    trivial rfl
  exact ⟨_, hrun, (connection_accounting_exact hrun).1, rfl, rfl⟩

end Ngircd
