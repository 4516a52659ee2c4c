import Mathlib.Data.List.Basic

/-!
# Strings in memory

The cells that a C string stands in hold characters and end marks.  A program that cuts a
string in place puts further end marks into its cells.
-/

namespace Ngircd.Lib

variable {α : Type}

/-- The text before the first end mark. -/
def textOf : List (Option α) → List α
  | some c :: cells => c :: textOf cells
  | _ => []

/-- The cells of a string: its characters and the end mark. -/
abbrev cellsOf (s : List α) : List (Option α) := s.map some ++ [none]

theorem textOf_append (s : List α) (cells : List (Option α)) :
    textOf (s.map some ++ none :: cells) = s := by
  induction s with
  | nil => rfl
  | cons c s ih => exact congrArg (c :: ·) ih

/-- What a pointer into a string points to. -/
theorem textOf_drop (front cells : List (Option α)) {s : List α} {k : Nat} (hk : k ≤ s.length) :
    textOf ((front ++ (s.map some ++ none :: cells)).drop (front.length + k)) = s.drop k := by
  rw [← List.drop_drop, List.drop_left, List.drop_append_of_le_length (by simpa using hk),
    ← List.map_drop]
  exact textOf_append _ cells

/-- Separators before the first item make no item. -/
theorem filter_splitOnP_append {p : α → Bool} {d : List α} (hd : ∀ c ∈ d, p c = true)
    (s : List α) : ((d ++ s).splitOnP p).filter (!·.isEmpty) =
      (s.splitOnP p).filter (!·.isEmpty) := by
  induction d with
  | nil => rfl
  | cons c d ih =>
    rw [List.cons_append, List.splitOnP_cons_eq_if_modifyHead, if_pos (hd c (.head _))]
    exact ih fun b hb => hd b (.tail c hb)

/-- A list starts with the elements that satisfy a test, as far as they go. -/
theorem exists_span (p : α → Bool) (s : List α) : ∃ d rest, s = d ++ rest ∧
    (∀ c ∈ d, p c = true) ∧ ∀ c ∈ rest.head?, p c = false := by
  induction s with
  | nil => exact ⟨[], [], rfl, nofun, nofun⟩
  | cons c s ih =>
    by_cases hc : p c = true
    · obtain ⟨d, rest, rfl, hd, hrest⟩ := ih
      exact ⟨c :: d, rest, rfl, by simpa [hc] using hd, hrest⟩
    · exact ⟨[], c :: s, rfl, nofun, by simpa using hc⟩

theorem takeWhile_append_of_stop {p : α → Bool} {s rest : List α} (hs : ∀ c ∈ s, p c = true)
    (hrest : ∀ c ∈ rest.head?, p c = false) : (s ++ rest).takeWhile p = s := by
  rw [List.takeWhile_append_of_pos hs]
  cases rest with
  | nil => simp
  | cons c rest => simp [hrest c rfl]

end Ngircd.Lib
