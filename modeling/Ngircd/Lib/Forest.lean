import Mathlib.Logic.Relation
import Mathlib.Order.Defs.PartialOrder

/-!
# Forests given by parent pointers

A function `up` leads from every node that is there to its parent; a root leads
to itself.  The subtree below a node is what is taken away when the node goes.
-/

namespace Ngircd.Lib

variable {α : Type*}

/-- Walking up from `x` leads to `s`. -/
def Behind (up : α → Option α) (s x : α) : Prop :=
  Relation.ReflTransGen (fun a b => up a = some b) x s

namespace Behind

variable {up up' : α → Option α} {s t x y : α}

@[refl] theorem refl (s : α) : Behind up s s := Relation.ReflTransGen.refl

theorem trans (h : Behind up t x) (h' : Behind up s t) : Behind up s x :=
  Relation.ReflTransGen.trans h h'

theorem of_up (h : up x = some s) : Behind up s x := Relation.ReflTransGen.single h

/-- One step up stays behind the same node, unless the walk is at its end. -/
theorem up_of_ne (h : Behind up s x) (hne : x ≠ s) : ∃ y, up x = some y ∧ Behind up s y := by
  rcases Relation.ReflTransGen.cases_head h with heq | ⟨y, hy, hrest⟩
  · exact absurd heq hne
  · exact ⟨y, hy, hrest⟩

/-- What is behind a node, but not the node itself, is behind one of its children. -/
theorem exists_child (h : Behind up s x) (hne : x ≠ s) :
    ∃ k, up k = some s ∧ k ≠ s ∧ Behind up k x := by
  induction h with
  | refl => exact absurd rfl hne
  | @tail k t hxk hkt ih =>
    by_cases hk : k = t
    · -- The last step was a loop at a root.
      subst hk
      exact ih hne
    · exact ⟨k, hkt, hk, hxk⟩

/-- A node without children is alone. -/
theorem eq_of_no_child (hchild : ∀ k, up k = some s → k = s) (h : Behind up s x) : x = s := by
  by_cases hne : x = s
  · exact hne
  · obtain ⟨k, hk, hks, -⟩ := h.exists_child hne
    exact absurd (hchild k hk) hks

/-- Nothing that is not below `t` changes when the pointers below `t` do. -/
theorem congr_outside (heq : ∀ y, ¬Behind up t y → up' y = up y) (hx : ¬Behind up t x) :
    Behind up' s x ↔ Behind up s x := by
  constructor
  · intro h
    induction h using Relation.ReflTransGen.head_induction_on with
    | refl => rfl
    | @head a b hab _ ih =>
      rw [heq a hx] at hab
      exact (of_up hab).trans (ih fun hb => hx ((of_up hab).trans hb))
  · intro h
    induction h using Relation.ReflTransGen.head_induction_on with
    | refl => rfl
    | @head a b hab _ ih =>
      have hab' : up' a = some b := by rw [heq a hx, hab]
      exact (of_up hab').trans (ih fun hb => hx ((of_up hab).trans hb))

/-- Taking the subtree of a child away leaves the rest of the subtree. -/
theorem iff_of_remove_child (hchild : up t = some s) (heq : ∀ y, ¬Behind up t y → up' y = up y)
    (hgone : ∀ y, Behind up t y → up' y = none) (hs : ¬Behind up t s) :
    Behind up s x ↔ Behind up t x ∨ Behind up' s x := by
  constructor
  · intro h
    by_cases ht : Behind up t x
    · exact .inl ht
    · exact .inr ((congr_outside heq ht).mpr h)
  · rintro (h | h)
    · exact h.trans (of_up hchild)
    · by_cases ht : Behind up t x
      · -- A node that is gone has no parent, so the walk is at its end.
        by_cases hxs : x = s
        · exact absurd (hxs ▸ ht) hs
        · obtain ⟨y, hy, -⟩ := h.up_of_ne hxs
          rw [hgone x ht] at hy
          exact nomatch hy
      · exact (congr_outside heq ht).mp h

/-- Where parents are older, so is every node that is reached. -/
theorem le [Preorder α] (hup : ∀ x y, up x = some y → y ≤ x) (h : Behind up s x) : s ≤ x := by
  induction h with
  | refl => exact le_refl x
  | tail _ hstep ih => exact le_trans (hup _ _ hstep) ih

end Behind

end Ngircd.Lib
