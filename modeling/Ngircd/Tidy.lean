import Ngircd.Closes

/-!
# Client structures and the client list

`Client_Destroy` takes a client off the list, says farewell for it and frees it.  While
it is at that, there is a structure that is not on the list.  Between events there is
none: whatever a connection or a membership refers to and is still there is on the list.
-/

namespace Ngircd

open Lib

variable {w w' : World} {r : ClientRef} {c c' : Client}

/-- Every client structure is on the list. -/
def Tidy (w : World) : Prop := ∀ r c, w.heap r = some c → r ∈ w.order

/-- Structures that are off the list were off the list before. -/
def Tidies (w w' : World) : Prop :=
  ∀ r c', w'.heap r = some c' → r ∉ w'.order → (∃ c, w.heap r = some c) ∧ r ∉ w.order

namespace Tidies

variable {w₁ w₂ w₃ : World}

theorem refl (w : World) : Tidies w w := fun _ c hc hr => ⟨⟨c, hc⟩, hr⟩

theorem trans (h₁ : Tidies w₁ w₂) (h₂ : Tidies w₂ w₃) : Tidies w₁ w₃ := by
  intro r c hc hr
  obtain ⟨⟨d, hd⟩, hr₂⟩ := h₂ r c hc hr
  exact h₁ r d hd hr₂

theorem of_eq (hheap : w'.heap = w.heap) (horder : w'.order = w.order) : Tidies w w' := by
  intro r c hc hr
  rw [hheap] at hc
  rw [horder] at hr
  exact ⟨⟨c, hc⟩, hr⟩

theorem setHeap (hc : w.heap r = some c) : Tidies w (w.setHeap r (some c')) := by
  intro s d hd hs
  refine ⟨?_, hs⟩
  by_cases hsr : s = r
  · subst hsr
    exact ⟨c, hc⟩
  · rw [World.setHeap_heap_ne w hsr] at hd
    exact ⟨d, hd⟩

/-- A client that is taken off the list and then freed leaves nothing behind. -/
theorem removed (h : Tidies { w with order := w.order.erase r } w') :
    Tidies w (w'.setHeap r none) := by
  intro s d hd hs
  by_cases hsr : s = r
  · subst hsr
    rw [World.setHeap_heap_self] at hd
    exact nomatch hd
  · rw [World.setHeap_heap_ne w' hsr] at hd
    obtain ⟨hcell, hoff⟩ := h s d hd hs
    exact ⟨hcell, fun hmem => hoff ((List.mem_erase_of_ne hsr).mpr hmem)⟩

theorem tidy (h : Tidies w w') (hw : Tidy w) : Tidy w' := by
  intro r c' hc'
  by_contra hr
  obtain ⟨⟨c, hc⟩, hoff⟩ := h r c' hc' hr
  exact hoff (hw r c hc)

end Tidies

/-- What closing a connection does. -/
def ClosesTidily (w w' : World) : Prop := Persists w w' ∧ Tidies w w'

theorem tidies_frame : BasicFrame (fun _ => ClosesTidily) Tidies where
  refl := .refl
  trans _ _ _ := .trans
  queue _ _ _ _ _ := .of_eq rfl rfl
  fail _ _ _ _ _ hk := hk.2
  editConn _ _ _ := .of_eq rfl rfl
  cloak _ _ _ _ hc := .setHeap hc
  __ := BasicAside.of_rest fun _ _ _ _ _ => .of_eq rfl rfl
  editClient _ _ _ _ hc := .setHeap hc

theorem closesTidily : CloseFrame ClosesTidily ClosesTidily :=
  (CloseFrame.persists fun _ _ h => h.1).and
    { BasicFrame.toLeaveFrame tidies_frame with
      remove := fun _ _ _ _ _ _ _ =>
        (BasicFrame.toLeaveFrame tidies_frame).wp (fun _ => trivial) _ fun _ _ h => h.removed
      setConn := fun _ _ _ _ => .of_eq rfl rfl }

namespace Tidy

variable {client : ClientRef}

theorem setHeap (hw : Tidy w) (hc : w.heap r = some c) :
    Tidy (w.setHeap r (some c')) :=
  (Tidies.setHeap hc).tidy hw

theorem addClient (hw : Tidy w) (new : Client) : Tidy (w.addClient new) := by
  intro s d hd
  by_cases hs : s = w.nextRef
  · exact List.mem_cons.mpr (.inl hs)
  · exact .tail _ (hw s d ((World.setHeap_heap_ne w hs _).symm.trans hd))

theorem indifferent : Indifferent Tidy ClosesTidily := by
  have hframe : BasicFrame (fun _ => ClosesTidily) fun w w' => Tidy w → Tidy w' :=
    BasicFrame.upholds tidies_frame fun _ _ h hw => h.tidy hw
  exact .of_frame (fun _ _ hk => ⟨hk.1, hk.2.tidy⟩) hframe (fun _ _ _ _ hc hw => hw.setHeap hc)
    (fun _ _ _ hw => hw) fun _ _ _ hw => hw

theorem personal (client : ClientRef) : Personal Tidy client ClosesTidily where
  upkeep := Indifferent.toUpkeep indifferent
  setType _ _ _ hc hw := hw.setHeap hc
  setId _ _ _ _ _ hc hw := hw.setHeap hc
  ownIntroducer _ _ hc hw := hw.setHeap hc
  greet := Indifferent.greetUser indifferent client

theorem prepare (hw : Tidy w) (e : Event) : Tidy (e.prepare w) := by
  cases e with
  | accept | connect => exact hw.addClient _
  | resolved | linked | line | close | ping | expire | clock => exact hw

/-- Between events every client structure is on the list. -/
theorem step {e : Event} (hl : Linked w) (hw : Tidy w) (hstep : Step w e w') : Tidy w' :=
  Indifferent.step_of_personal indifferent personal
    (CloseFrame.shutting closesTidily (Indifferent.toUpkeep indifferent)).removing
    (CloseFrame.rightAbout closesTidily) hl hw (hw.prepare e) (fun _ _ _ _ h _ => h.addClient _)
    (fun _ _ _ h _ => h.addClient _) (fun _ _ _ _ h hc _ _ => h.setHeap hc) hstep

theorem start (conf : Conf) (env : Env) (host : Str) : Tidy (World.start conf env host) := by
  intro r c hc
  exact List.mem_singleton.mpr (World.start_cell hc).ref

end Tidy

theorem Reachable.tidy (h : Reachable w) : Tidy w := by
  induction h with
  | start conf env host => exact .start conf env host
  | step hreach hstep ih => exact ih.step hreach.linked hstep

end Ngircd
