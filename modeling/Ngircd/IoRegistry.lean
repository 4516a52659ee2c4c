import Mathlib

/-!
# The registry of the select backend

`io.c` keeps an entry for each descriptor and, for `select`, the two sets of
descriptors that are wanted and the largest of them.  Callbacks change all three
while a result of `select` is worked off.  Entries the array has not grown to are
modelled as cleared ones.
-/

namespace Ngircd

/-- What can be wanted of a descriptor. -/
inductive IoWant
  | read
  | write

/-- The bits of `IO_WANTREAD` and `IO_WANTWRITE`, which are 1 and 2. -/
def IoWant.bit : IoWant → Nat
  | .read => 0
  | .write => 1

/-- `IO_ERROR`. -/
def ioError : BitVec 16 := 4

/-- `what & IO_WANTREAD` or `what & IO_WANTWRITE`. -/
def wants (what : BitVec 16) (k : IoWant) : Bool := what.getLsbD k.bit

variable {n : Nat} {Cb : Type}

/-- `io_event` of a descriptor, and whether it is in `readers` and in `writers`. -/
structure IoEvent (Cb : Type) where
  callback : Option Cb := none
  what : BitVec 16 := 0
  sets : IoWant → Bool := fun _ => false

/-- Something else is wanted, and the sets with a flag in `what` change. -/
def IoEvent.change (e : IoEvent Cb) (what new : BitVec 16) (on : Bool) : IoEvent Cb :=
  { e with what := new, sets := fun k => if wants what k then on else e.sets k }

/-- `io_events` with the two sets, and `select_maxfd`; `n` is `FD_SETSIZE`. -/
structure Registry (n : Nat) (Cb : Type) where
  events : Fin n → IoEvent Cb
  maxfd : Fin n

namespace Registry

variable {s : Registry n Cb} {fd j : Fin n} {what : BitVec 16} {ready : IoWant → Fin n → Bool}

/-- The registry of a new process. -/
def start (n : Nat) (Cb : Type) : Registry (n + 1) Cb := ⟨fun _ => {}, 0⟩

section

variable (s : Registry n Cb) (fd : Fin n) (what : BitVec 16)

/-- The entry of a descriptor is written. -/
def put (e : IoEvent Cb) : Registry n Cb := { s with events := Function.update s.events fd e }

/-- `io_event_add`. -/
def ioEventAdd : Registry n Cb :=
  let e := s.events fd
  if e.what &&& what = what then s
  else { s.put fd (e.change what (e.what ||| what) true) with maxfd := max fd s.maxfd }

/-- `io_event_create`, with `backend_create_ev`. -/
def ioEventCreate (cbfunc : Cb) : Registry n Cb :=
  let s := (s.put fd { s.events fd with callback := some cbfunc, what := 0 }).ioEventAdd fd what
  s.put fd { s.events fd with what }

/-- `io_event_del`. -/
def ioEventDel : Registry n Cb :=
  let e := s.events fd
  if e.what &&& what = 0 then s else s.put fd (e.change what (e.what &&& ~~~what) false)

/-- The loop of `io_close_select`: the largest descriptor below `select_maxfd`
that has a callback, or 0. -/
def lowered : Fin n :=
  ⟨Nat.findGreatest (fun j => ∃ h : j < n, (s.events ⟨j, h⟩).callback.isSome) (s.maxfd - 1),
    (Nat.findGreatest_le _).trans_lt (by omega)⟩

/-- `io_close`, with `io_close_select`. -/
def ioClose : Registry n Cb :=
  { s.put fd {} with maxfd := if fd = s.maxfd then s.lowered else s.maxfd }

end

/-- A call into the registry. -/
inductive Op (n : Nat) (Cb : Type)
  | create (fd : Fin n) (what : BitVec 16) (cbfunc : Cb)
  | add (fd : Fin n) (what : BitVec 16)
  | del (fd : Fin n) (what : BitVec 16)
  | close (fd : Fin n)

/-- What a call does. -/
def step (s : Registry n Cb) : Op n Cb → Registry n Cb
  | .create fd what cbfunc => s.ioEventCreate fd what cbfunc
  | .add fd what => s.ioEventAdd fd what
  | .del fd what => s.ioEventDel fd what
  | .close fd => s.ioClose fd

/-- A descriptor that has a callback is open. -/
def isOpen (s : Registry n Cb) (fd : Fin n) : Bool := (s.events fd).callback.isSome

/-- The loop comes to a descriptor that is open. -/
def reaches (s : Registry n Cb) (fd : Fin n) : Bool := s.isOpen fd && fd ≤ s.maxfd

/-- Only descriptors that are not open are created, only open ones changed. -/
def Allows (s : Registry n Cb) : Op n Cb → Prop
  | .create fd _ _ => s.isOpen fd = false
  | .add fd _ | .del fd _ => s.isOpen fd = true
  | .close _ => True

/-- What calls do, one after the other. -/
def run (s : Registry n Cb) (ops : List (Op n Cb)) : Registry n Cb := ops.foldl step s

/-- Each call is allowed when it is made. -/
def AllowsAll (s : Registry n Cb) : List (Op n Cb) → Prop
  | [] => True
  | op :: ops => s.Allows op ∧ (s.step op).AllowsAll ops

/-- The allowed sequences of calls. -/
abbrev Ops (s : Registry n Cb) := { ops : List (Op n Cb) // s.AllowsAll ops }

/-! ## Dispatch -/

/-- A call of a callback, with the calls it makes itself. -/
structure Call (n : Nat) (Cb : Type) where
  fd : Fin n
  what : BitVec 16
  callback : Cb
  ops : List (Op n Cb)

/-- What callbacks do.  No descriptor is called twice in a dispatch, so that whatever else
this depends on is fixed with the descriptor. -/
abbrev Callbacks (n : Nat) (Cb : Type) := Cb → Fin n → BitVec 16 → (s : Registry n Cb) → s.Ops

/-- `io_docallback`: the call that is made, if any. -/
def ioDocallback (act : Callbacks n Cb) (fd : Fin n) (what : BitVec 16) (s : Registry n Cb) :
    Option (Call n Cb) :=
  (s.events fd).callback.map fun callback =>
    let what := if what &&& ioError ≠ 0 then (s.events fd).what else what
    ⟨fd, what, callback, act callback fd what s⟩

/-- `what` in `io_dispatch_select`. -/
def reported (ready : IoWant → Fin n → Bool) (fd : Fin n) : BitVec 16 :=
  (if ready .read fd then 1 else 0) ||| if ready .write fd then 2 else 0

/-- In how many of the sets a descriptor is. -/
def hits (ready : IoWant → Fin n → Bool) (fd : Fin n) : Nat :=
  (ready .read fd).toNat + (ready .write fd).toNat

/-- The loop of `io_dispatch_select` over descriptors, with the calls it makes. -/
def dispatchLoop (act : Callbacks n Cb) (ready : IoWant → Fin n → Bool) :
    List (Fin n) → Int → Registry n Cb → List (Call n Cb)
  | [], _, _ => []
  | fd :: fds, fdsReady, s =>
    if fd ≤ s.maxfd then
      let what := reported ready fd
      let fdsReady := fdsReady - hits ready fd
      let call := if what ≠ 0 then ioDocallback act fd what s else none
      call.toList ++ if fdsReady ≤ 0 then []
        else dispatchLoop act ready fds fdsReady (call.elim s fun c => s.run c.ops)
    else []

/-- What `select` returns, and which descriptors in the sets it reports: none if this is
not positive. -/
structure Selected (s : Registry n Cb) where
  ret : Int
  ready : IoWant → Fin n → Bool
  count : 0 < ret → ret = ((List.finRange n).map (hits ready)).sum
  subset : ∀ k fd, ready k fd = true → (s.events fd).sets k = true ∧ 0 < ret

/-- `io_dispatch_select`, with the calls it makes. -/
def ioDispatchSelect (act : Callbacks n Cb) (s : Registry n Cb) (selected : s.Selected) :
    Int × List (Call n Cb) :=
  if selected.ret ≤ 0 then (selected.ret, [])
  else (selected.ret, dispatchLoop act selected.ready (List.finRange n) selected.ret s)

/-! ## Specification -/

/-- The sets are what the entries want.  Descriptors of which something is wanted are open and
not above `select_maxfd`. -/
structure Settled (s : Registry n Cb) : Prop where
  mem : ∀ fd k, (s.events fd).sets k = wants (s.events fd).what k
  reach : ∀ fd, (s.events fd).what ≠ 0 → s.reaches fd = true

/-- The calls when descriptors get their turns in order: one for each that is reported, and
open and not above `select_maxfd` then, with exactly what is reported. -/
def turns (act : Callbacks n Cb) (ready : IoWant → Fin n → Bool) :
    List (Fin n) → Registry n Cb → List (Call n Cb)
  | [], _ => []
  | fd :: fds, s =>
    let call := if reported ready fd ≠ 0 ∧ fd ≤ s.maxfd then (s.events fd).callback.map fun callback =>
      ⟨fd, reported ready fd, callback, act callback fd (reported ready fd) s⟩ else none
    call.toList ++ turns act ready fds (call.elim s fun c => s.run c.ops)

/-! ## What the calls keep -/

theorem reaches_iff : s.reaches fd = true ↔ s.isOpen fd = true ∧ fd ≤ s.maxfd := by simp [reaches]

/-- All is settled, and the loop still comes to descriptors that are not closed. -/
structure Keeps (s : Registry n Cb) (closed : Fin n → Prop) (s' : Registry n Cb) : Prop where
  settled : s'.Settled
  reaches : ∀ fd, ¬closed fd → s.reaches fd = true → s'.reaches fd = true

/-- What a change of an entry and `select_maxfd` takes. -/
theorem put_keeps {e : IoEvent Cb} {maxfd : Fin n} {closed : Fin n → Prop}
    (h : s.Settled) (hmem : ∀ k, e.sets k = wants e.what k)
    (hwhat : e.what ≠ 0 → e.callback.isSome = true ∧ j ≤ maxfd)
    (hown : ¬closed j → s.reaches j = true → e.callback.isSome = true ∧ j ≤ maxfd)
    (hother : ∀ fd ≠ j, s.reaches fd = true → fd ≤ maxfd) :
    Keeps s closed { s.put j e with maxfd } := by
  have hreaches (fd : Fin n) (hfd : fd ≠ j) (hreach : s.reaches fd = true) :
      { s.put j e with maxfd }.reaches fd = true := by
    obtain ⟨hopen, -⟩ := reaches_iff.mp hreach
    exact reaches_iff.mpr ⟨by simpa [put, isOpen, hfd] using hopen, hother fd hfd hreach⟩
  refine ⟨⟨fun fd => ?_, fun fd hne => ?_⟩, fun fd hclosed hreach => ?_⟩ <;>
    rcases eq_or_ne fd j with rfl | hfd
  · simpa [put] using hmem
  · simpa [put, hfd] using h.mem fd
  · simpa [put, reaches, isOpen] using hwhat (by simpa [put] using hne)
  · exact hreaches fd hfd (h.reach fd (by simpa [put, hfd] using hne))
  · simpa [put, reaches, isOpen] using hown hclosed hreach
  · exact hreaches fd hfd hreach

theorem create_eq (cbfunc : Cb) : s.ioEventCreate j what cbfunc =
    { s.put j ({ s.events j with callback := some cbfunc }.change what what true) with
      maxfd := if what = 0 then s.maxfd else max j s.maxfd } := by
  by_cases hwhat : what = 0
  · simp [ioEventCreate, ioEventAdd, put, IoEvent.change, wants, hwhat]
  · have hne : ¬0#16 = what := Ne.symm hwhat
    simp [ioEventCreate, ioEventAdd, put, IoEvent.change, hne]
    exact fun hzero => absurd hzero hwhat

theorem step_keeps (op : Op n Cb) (hallowed : s.Allows op) (h : s.Settled) :
    Keeps s (fun fd => op = .close fd) (s.step op) := by
  have hle (fd : Fin n) (hreach : s.reaches fd = true) : fd ≤ s.maxfd := (reaches_iff.mp hreach).2
  cases op with
  | create j what cbfunc =>
    have hnew (hreach : s.reaches j = true) : False := by
      simp [Allows, (reaches_iff.mp hreach).1] at hallowed
    rw [step, create_eq]
    refine put_keeps h (fun k => ?_) (fun hne => ⟨rfl, ?_⟩) (fun _ => False.elim ∘ hnew)
      fun fd _ hreach => ?_
    · have hnone : (s.events j).what = 0 := by
        by_contra hwhat
        exact hnew (h.reach j hwhat)
      simp [IoEvent.change, h.mem j k, hnone, wants]
    · exact (le_max_left ..).trans_eq (if_neg hne).symm
    · refine (hle fd hreach).trans ?_
      split
      · exact le_rfl
      · exact le_max_right ..
  | add j what =>
    rw [step, ioEventAdd]
    split
    · exact ⟨h, fun _ _ => id⟩
    · refine put_keeps h (fun k => ?_) (fun _ => ⟨hallowed, le_max_left ..⟩)
        (fun _ _ => ⟨hallowed, le_max_left ..⟩) fun fd _ hreach =>
          (hle fd hreach).trans (le_max_right ..)
      cases hk : what.getLsbD k.bit <;> simp [IoEvent.change, wants, hk, h.mem j k]
  | del j what =>
    rw [step, ioEventDel]
    split
    · exact ⟨h, fun _ _ => id⟩
    · rename_i hne
      have hmaxfd := hle j (h.reach j fun hzero => hne (by simp [hzero]))
      refine put_keeps h (fun k => ?_) (fun _ => ⟨hallowed, hmaxfd⟩) (fun _ _ => ⟨hallowed, hmaxfd⟩)
        fun fd _ => hle fd
      have hbit : k.bit < 16 := by cases k <;> decide
      cases hk : what.getLsbD k.bit <;> simp [IoEvent.change, wants, hk, h.mem j k, hbit, Bool.and_comm]
  | close j =>
    refine put_keeps h (by simp [wants]) (absurd rfl) (fun hne => absurd rfl hne)
      fun fd hfd hreach => ?_
    split
    · have hlt : fd < s.maxfd := lt_of_le_of_ne (hle fd hreach) (‹j = s.maxfd› ▸ hfd)
      exact Nat.le_findGreatest (Nat.le_pred_of_lt hlt) ⟨fd.isLt, (reaches_iff.mp hreach).1⟩
    · exact hle fd hreach

theorem run_keeps {ops : List (Op n Cb)} (hallowed : s.AllowsAll ops) (h : s.Settled) :
    Keeps s (fun fd => .close fd ∈ ops) (s.run ops) := by
  induction ops generalizing s with
  | nil => exact ⟨h, fun _ _ => id⟩
  | cons op ops ih =>
    have hop := step_keeps op hallowed.1 h
    have hrest := ih hallowed.2 hop.settled
    refine ⟨hrest.settled, fun fd hfd hreach => ?_⟩
    obtain ⟨hne, hfd⟩ := not_or.mp (mt List.mem_cons.mpr hfd)
    exact hrest.reaches fd hfd (hop.reaches fd (Ne.symm hne) hreach)

/-! ## What a dispatch does -/

theorem exists_ready (h : reported ready fd ≠ 0) : ∃ k, ready k fd = true := by
  by_contra! hnone
  simp [reported, hnone] at h

variable {act : Callbacks n Cb} {fds : List (Fin n)}

theorem AllowsAll.append {ops ops' : List (Op n Cb)} (h : s.AllowsAll ops)
    (h' : (s.run ops).AllowsAll ops') : s.AllowsAll (ops ++ ops') := by
  induction ops generalizing s with
  | nil => exact h'
  | cons op ops ih => exact ⟨h.1, ih h.2 h'⟩

theorem turns_allowed : s.AllowsAll ((turns act ready fds s).flatMap (·.ops)) := by
  induction fds generalizing s with
  | nil => exact trivial
  | cons fd fds ih =>
    rw [turns]
    split
    · cases (s.events fd).callback with
      | none => exact ih
      | some callback => exact (act callback fd (reported ready fd) s).2.append ih
    · exact ih

theorem turns_eq_nil (h : ∀ fd ∈ fds, ¬(reported ready fd ≠ 0 ∧ fd ≤ s.maxfd)) :
    turns act ready fds s = [] := by
  induction fds with
  | nil => rfl
  | cons fd fds ih =>
    obtain ⟨hfd, hfds⟩ := List.forall_mem_cons.mp h
    rw [turns, if_neg hfd]
    exact ih hfds

/-- The loop ends early only when nothing is left to do. -/
theorem dispatchLoop_eq (hfds : fds.Pairwise (· < ·)) {fdsReady : Int}
    (hready : fdsReady = (fds.map (hits ready)).sum) :
    dispatchLoop act ready fds fdsReady s = turns act ready fds s := by
  induction fds generalizing fdsReady s with
  | nil => rfl
  | cons fd fds ih =>
    obtain ⟨hlt, hfds⟩ := List.pairwise_cons.mp hfds
    rw [dispatchLoop]
    split
    · have hrest (t : Registry n Cb) : (if fdsReady - hits ready fd ≤ 0 then []
          else dispatchLoop act ready fds (fdsReady - hits ready fd) t) = turns act ready fds t := by
        rw [List.map_cons, List.sum_cons] at hready
        split
        · refine (turns_eq_nil fun j hj hreported => ?_).symm
          have hsum : (fds.map (hits ready)).sum = 0 := by omega
          have hhits := List.sum_eq_zero_iff_forall_eq_nat.mp hsum _ (List.mem_map_of_mem hj)
          obtain ⟨k, hk⟩ := exists_ready hreported.1
          cases k <;> simp [hits, hk] at hhits
        · exact ih hfds (by omega)
      have herror : reported ready fd &&& ioError = 0 := by
        unfold reported
        split <;> split <;> decide
      simp only [hrest, turns, ioDocallback, herror]
      simp [*]
    · rename_i hmaxfd
      refine (turns_eq_nil fun j hj hreported => hmaxfd ?_).symm
      rcases List.mem_cons.mp hj with rfl | hj
      · exact hreported.2
      · exact (hlt j hj).le.trans hreported.2

theorem ioDispatchSelect_eq {selected : s.Selected} :
    (ioDispatchSelect act s selected).2 = turns act selected.ready (List.finRange n) s := by
  rw [ioDispatchSelect]
  split
  · refine (turns_eq_nil fun fd _ hreported => ?_).symm
    obtain ⟨k, hk⟩ := exists_ready hreported.1
    exact not_lt.mpr ‹_› (selected.subset k fd hk).2
  · exact dispatchLoop_eq (List.pairwise_lt_finRange _) (selected.count (not_le.mp ‹_›))

theorem settled_run (ops : (start n Cb).Ops) : ((start n Cb).run ops).Settled :=
  (run_keeps ops.2 ⟨fun fd k => by simp [start, wants], fun fd h => absurd rfl h⟩).settled

/-- After every allowed sequence of calls the sets are what the entries want, and not above
`select_maxfd`.  Every result of `select` gives each descriptor its turn; whichever have got
theirs, one that is reported is open and not above `select_maxfd`, unless it has been closed
and nothing is wanted of it since. -/
theorem select_dispatches (ops : (start n Cb).Ops) (act : Callbacks (n + 1) Cb)
    (selected : ((start n Cb).run ops).Selected) :
    let s := (start n Cb).run ops
    (∀ fd k, (s.events fd).sets k = wants (s.events fd).what k) ∧
      (∀ fd k, (s.events fd).sets k = true → fd ≤ s.maxfd) ∧
      (ioDispatchSelect act s selected).2 = turns act selected.ready (List.finRange _) s ∧
      ∀ fds fd, reported selected.ready fd ≠ 0 →
        let earlier := (turns act selected.ready fds s).flatMap (·.ops)
        (.close fd ∈ earlier → ((s.run earlier).events fd).what ≠ 0) →
          (s.run earlier).reaches fd = true := by
  intro s
  have hsettled : s.Settled := settled_run ops
  have hreach (fd : Fin (n + 1)) (k : IoWant) (hfd : (s.events fd).sets k = true) :
      s.reaches fd = true := by
    refine hsettled.reach fd fun hzero => ?_
    rw [hsettled.mem fd k, hzero] at hfd
    simp [wants] at hfd
  refine ⟨hsettled.mem, fun fd k hfd => (reaches_iff.mp (hreach fd k hfd)).2, ioDispatchSelect_eq, ?_⟩
  intro fds fd hreported earlier hagain
  have hkeeps : Keeps s _ (s.run earlier) := run_keeps turns_allowed hsettled
  by_cases hclosed : .close fd ∈ earlier
  · exact hkeeps.settled.reach fd (hagain hclosed)
  · obtain ⟨k, hk⟩ := exists_ready hreported
    exact hkeeps.reaches fd hclosed (hreach fd k (selected.subset k fd hk).1)

/-- A descriptor that is to be read. -/
def oneOpen : (start 1 Unit).Ops := ⟨[.create 1 1 ()], rfl, trivial⟩

/-- It can be. -/
def oneReady : ((start 1 Unit).run oneOpen).Selected where
  ret := 1
  ready
    | .read, fd => fd == 1
    | .write, _ => false
  count _ := by decide
  subset k := by cases k <;> decide

/-- A callback that closes its descriptor. -/
def closing : Callbacks 2 Unit := fun _ fd _ _ => ⟨[.close fd], trivial, trivial⟩

theorem select_dispatches_one : ((start 1 Unit).run oneOpen).reaches 1 = true :=
  (select_dispatches oneOpen closing oneReady).2.2.2 [] 1 (by decide) nofun

/-- The calls that callbacks make in a dispatch are an allowed sequence, after which sets and
entries agree again. -/
theorem dispatch_settled (ops : (start n Cb).Ops) (act : Callbacks (n + 1) Cb)
    (selected : ((start n Cb).run ops).Selected) :
    let s := (start n Cb).run ops
    let calls := (ioDispatchSelect act s selected).2.flatMap (·.ops)
    s.AllowsAll calls ∧ (s.run calls).Settled := by
  intro s calls
  have hcalls : s.AllowsAll calls := by
    simp only [calls, ioDispatchSelect_eq, turns_allowed]
  exact ⟨hcalls, (run_keeps hcalls (settled_run ops)).settled⟩

theorem dispatch_settled_one :
    (((start 1 Unit).run oneOpen).run
      ((ioDispatchSelect closing _ oneReady).2.flatMap (·.ops))).Settled :=
  (dispatch_settled oneOpen closing oneReady).2

end Registry

end Ngircd
