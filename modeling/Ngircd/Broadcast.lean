import Mathlib.Data.List.Nodup
import Ngircd.Quiet

/-!
# Messages to the members of channels

`IRC_WriteStrChannelPrefix` and `IRC_WriteStrRelatedPrefix` mark the connections
that lead to the members of channels, then write to every marked connection.
The marks are kept in the connections and are shared by all such calls.
-/

namespace Ngircd

open Lib Prog

variable {w w' : World} {except member pfx m : ClientRef} {remote : Bool} {i : ConnId}
  {k : Mark} {p : Client} {text : Str}

/-! ## Marking -/

section Marking

theorem Placid.markOf (h : Placid w w') (except : ClientRef) (remote : Bool) (member : ClientRef) :
    w'.markOf except remote member = w.markOf except remote member := by
  have hnone (r : ClientRef) (hr : w.heap r = none) : w'.heap r = none := by
    simpa [hr] using h.cell r
  unfold World.markOf
  rw [h.nextHop]
  cases hm : w.heap member with
  | none => rw [hnone member hm]
  | some m =>
    obtain ⟨mhost, hm'⟩ := h.heap_some hm
    rw [hm']
    cases w.nextHop member with
    | error f => rfl
    | ok hop =>
      cases hh : w.heap hop with
      | none => simp only [hnone hop hh, hh]
      | some k =>
        obtain ⟨khost, hk'⟩ := h.heap_some hh
        simp only [hk', hh]

/-- The marks of a list of members. -/
def World.marks (w : World) (except : ClientRef) (remote : Bool) (members : List ClientRef) :
    List (ConnId × Mark) :=
  members.filterMap fun m => (w.markOf except remote m).toOption.join

/-- Set marks, one after the other. -/
def setMarks (flags : ConnId → Option Mark) (marks : List (ConnId × Mark)) : ConnId → Option Mark :=
  marks.foldl (fun f x => Function.update f x.1 (some x.2)) flags

theorem setMarks_cons (flags : ConnId → Option Mark) (x : ConnId × Mark)
    (marks : List (ConnId × Mark)) :
    setMarks flags (x :: marks) = setMarks (Function.update flags x.1 (some x.2)) marks := rfl

/-- The mark of a connection only depends on its own one before. -/
theorem setMarks_congr {flags flags' : ConnId → Option Mark} {marks : List (ConnId × Mark)}
    (h : flags i = flags' i) : setMarks flags marks i = setMarks flags' marks i := by
  induction marks generalizing flags flags' with
  | nil => exact h
  | cons x marks ih =>
    rw [setMarks_cons, setMarks_cons]
    refine ih ?_
    by_cases hi : i = x.1
    · rw [hi, Function.update_self, Function.update_self]
    · rw [Function.update_of_ne hi, Function.update_of_ne hi, h]

/-- A connection is marked if it was, or if there is a mark for it. -/
theorem setMarks_ne_none_iff {flags : ConnId → Option Mark} {marks : List (ConnId × Mark)}
    : setMarks flags marks i ≠ none ↔ flags i ≠ none ∨ ∃ m, (i, m) ∈ marks := by
  induction marks generalizing flags with
  | nil => simp [setMarks]
  | cons x marks ih =>
    rw [setMarks_cons, ih]
    by_cases hi : i = x.1
    · subst hi
      simp only [Function.update_self, ne_eq, reduceCtorEq, not_false_eq_true, true_or, true_iff]
      exact .inr ⟨x.2, by simp⟩
    · simp [Prod.ext_iff, hi]

/-- A mark was there before or is one of those that have been set. -/
theorem setMarks_eq_some {flags : ConnId → Option Mark} {marks : List (ConnId × Mark)}
    (h : setMarks flags marks i = some k) :
    flags i = some k ∨ (i, k) ∈ marks := by
  induction marks generalizing flags with
  | nil => exact .inl h
  | cons x marks ih =>
    rw [setMarks_cons] at h
    rcases ih h with hold | hmem
    · by_cases hi : i = x.1
      · subst hi
        simp only [Function.update_self, Option.some.injEq] at hold
        exact .inr (by simp [← hold])
      · rw [Function.update_of_ne hi] at hold
        exact .inl hold
    · exact .inr (.tail x hmem)

/-- Marking a member of a channel does not fail. -/
theorem World.Reached.markOf (h : w.Reached member) (except : ClientRef)
    (remote : Bool) : ∃ x, w.markOf except remote member = .ok x := by
  obtain ⟨m, hop, k, hm, hnext, hk, hconn⟩ := h
  obtain ⟨i, hi⟩ := Option.ne_none_iff_exists'.mp hconn
  simp only [World.markOf, hm, hnext, hk, hi]
  split_ifs <;> exact ⟨_, rfl⟩

/-- The marks of all connections. -/
def World.flags (w : World) : ConnId → Option Mark := fun i => (w.conns i).flag

/-- Nothing but marks is different, and these are now `flags`. -/
structure Marked (flags : ConnId → Option Mark) (w w' : World) : Prop where
  quiet : Quiet w w'
  sent : w'.sent = w.sent
  heap : w'.heap = w.heap
  flags : ∀ i, (w'.conns i).flag = flags i

theorem Marked.setFlag {flags : ConnId → Option Mark} (h : Marked flags w w') (i : ConnId)
    (f : Option Mark) :
    Marked (Function.update flags i f) w (w'.setConn i { w'.conns i with flag := f }) where
  quiet := h.quiet.trans (Quiet.setConn ⟨rfl, rfl, rfl, rfl, rfl⟩)
  sent := h.sent
  heap := h.heap
  flags j := by
    by_cases hj : j = i
    · subst hj
      simp
    · rw [World.setConn_conns_ne w' hj, Function.update_of_ne hj]
      exact h.flags j

/-- `Conn_ClearFlags` clears the marks of the pool. -/
theorem connClearFlags_quiet (w : World) :
    connClearFlags.wp quietWp
      (fun _ w' => Marked (fun i => if i < w.poolSize then none else (w.conns i).flag) w w') w := by
  have hloop (l : List ConnId) (w' : World) (flags : ConnId → Option Mark)
      (h : Marked flags w w') :
      (Prog.forEach (fun i => editConn i { edit := fun c => { c with flag := none } }) l).wp
        quietWp (fun _ w'' => Marked (fun i => if i ∈ l then none else flags i) w w'') w' := by
    induction l generalizing w' flags with
    | nil => simpa [Prog.forEach] using h
    | cons i l ih =>
      simp only [Prog.forEach, wp_bind, wp_editConn]
      refine wp_mono (fun _ w'' h'' => ?_) (ih _ _ (h.setFlag i none))
      have hflags : (fun j => if j ∈ l then none else Function.update flags i none j) =
          fun j => if j ∈ i :: l then none else flags j := by
        funext j
        by_cases hj : j = i <;> simp [hj]
      rwa [hflags] at h''
  have hstart : Marked w.flags w w := ⟨Quiet.refl w, rfl, rfl, fun _ => rfl⟩
  simpa [connClearFlags, World.flags] using hloop (List.range w.poolSize) w _ hstart

/-- The marking loop sets the marks of its members. -/
theorem markMembers_quiet {flags : ConnId → Option Mark} (members : List ClientRef)
    (hmembers : ∀ m ∈ members, w.Reached m) (h : Marked flags w w') :
    (Prog.forEach (markMember except remote) members).wp quietWp
      (fun _ w'' => Marked (setMarks flags (w.marks except remote members)) w w'') w' := by
  induction members generalizing w' flags with
  | nil => exact h
  | cons m members ih =>
    obtain ⟨x, hx⟩ := (hmembers m (.head _)).markOf except remote
    have hrest := fun m' hm' => hmembers m' (.tail m hm')
    simp only [Prog.forEach, wp_bind, markMember, wp_getWorld, h.quiet.markOf, hx, orFault, wp_pure]
    cases x with
    | none =>
      have hmarks : w.marks except remote (m :: members) = w.marks except remote members := by
        simp [World.marks, hx, Except.toOption]
      rw [hmarks]
      exact ih hrest h
    | some x =>
      have hmarks : w.marks except remote (m :: members) = x :: w.marks except remote members := by
        simp [World.marks, hx, Except.toOption]
      rw [hmarks]
      exact ih hrest (h.setFlag x.1 (some x.2))

end Marking

/-! ## Sending -/

section Sending

theorem Quiet.cloakFor (h : Quiet w w') (hw : Healthy w) (hp : w.heap pfx = some p) :
    w'.cloakFor p = w.cloakFor p := by
  obtain ⟨i, hi⟩ := hw.introducer pfx p hp
  obtain ⟨host, hi'⟩ := h.heap_some hi
  simp only [World.cloakFor, h.conf, hi, hi']
  rfl

/-- The client has a cloaked host name that has not been computed yet. -/
def Client.NeedsCloak (c : Client) : Prop := c.hasMode 'x' = true ∧ c.cloaked = none

/-- One turn of the loop of `Send_Marked_Connections`. -/
theorem sendMarked_quiet (hw : Healthy w) (hcalm : w.Calm) (hp : w.heap pfx = some p) (text : Str)
    (i : ConnId) : (sendMarked pfx text i).wp quietWp (fun _ _ => True) w := by
  have hwrite (w' : World) (hq : Quiet w w') (line : Str) :
      (connWriteStr i line).wp quietWp (fun _ _ => True) w' :=
    wp_mono (fun _ _ _ => trivial) (connWriteStr_quiet (hq.calm hcalm) i line)
  simp only [sendMarked, wp_bind, wp_getWorld, wp_ite, wp_pure, implies_true, true_and]
  intro _
  cases (w.conns i).flag with
  | none => trivial
  | some mark =>
    cases mark with
    | toServer =>
      simp only [wp_bind, wp_clientID, onClient_of_some hp]
      exact hwrite w (.refl w) _
    | toUser =>
      simp only [wp_bind]
      exact wp_quiet (clientMaskCloaked_quiet hw hcalm hp) fun _ w' _ hq => hwrite w' hq _

/-- Clearing, marking and sending, whatever list of members is marked. -/
theorem broadcast_quiet (hw : Healthy w) (hcalm : w.Calm) (hp : w.heap pfx = some p)
    (select : World → List ClientRef) (hselect : ∀ w', Quiet w w' → select w' = select w)
    (hmembers : ∀ m ∈ select w, w.Reached m) :
    (do
      connClearFlags
      let w ← getWorld
      Prog.forEach (markMember except remote) (select w)
      sendMarkedConnections pfx text).wp quietWp (fun _ _ => True) w := by
  simp only [wp_bind]
  refine wp_mono (fun _ w₁ hclear => ?_) (connClearFlags_quiet w)
  simp only [wp_bind, wp_getWorld]
  rw [hselect w₁ hclear.quiet]
  refine wp_mono (fun _ w₂ hmarked => ?_) (markMembers_quiet (select w) hmembers hclear)
  have hloop (l : List ConnId) (w' : World) (hq : Quiet w w') :
      (Prog.forEach (sendMarked pfx text) l).wp quietWp (fun _ _ => True) w' := by
    induction l generalizing w' with
    | nil => trivial
    | cons i l ih =>
      obtain ⟨host, hp'⟩ := hq.heap_some hp
      simp only [Prog.forEach, wp_bind]
      exact wp_quiet (sendMarked_quiet (hq.healthy hw) (hq.calm hcalm) hp' text i)
        fun _ w'' _ hq' => ih w'' (hq.trans hq')
  simp only [sendMarkedConnections, wp_bind, wp_getWorld]
  exact hloop _ w₂ hmarked.quiet

theorem mem_membersOf {ch : ChanRef} (hw : Healthy w) (hm : m ∈ w.membersOf ch) :
    w.Reached m := by
  simp only [World.membersOf, List.mem_map, List.mem_filter] at hm
  obtain ⟨e, ⟨he, -⟩, rfl⟩ := hm
  exact hw.member e he

theorem ircWriteStrChannelPrefix_quiet (hw : Healthy w) (hcalm : w.Calm)
    (hp : w.heap pfx = some p) (except : ClientRef) (chan : ChanRef) (remote : Bool) (text : Str) :
    (ircWriteStrChannelPrefix except chan pfx remote text).wp quietWp (fun _ _ => True) w :=
  broadcast_quiet hw hcalm hp (fun w => w.membersOf chan)
    (fun w' h => by simp only [World.membersOf, h.chans]) (fun _ => mem_membersOf hw)

theorem ircWriteStrRelatedPrefix_quiet (hw : Healthy w) (hcalm : w.Calm)
    (hp : w.heap pfx = some p) (except : ClientRef) (remote : Bool) (text : Str) :
    (ircWriteStrRelatedPrefix except pfx remote text).wp quietWp (fun _ _ => True) w := by
  refine broadcast_quiet hw hcalm hp (fun w => (w.channelsOf except).flatMap w.membersOf)
    (fun w' h => ?_) (fun m hm => ?_)
  · have hmembers : w'.membersOf = w.membersOf := by
      funext ch
      simp only [World.membersOf, h.chans]
    simp only [World.channelsOf, h.chans, hmembers]
  · obtain ⟨ch, -, hm⟩ := List.mem_flatMap.mp hm
    exact mem_membersOf hw hm

end Sending

/-- The lines sent when a run is over. -/
def linesOf {α : Type} : Except Fault (α × World) → List (ConnId × Str)
  | .ok (_, w) => w.sent
  | .error _ => []

end Ngircd
