import Mathlib.Data.List.Basic

/-!
# Words collected in lines

A list of words is written to lines.  A line is closed by the word that makes it
longer than a limit, and the next word starts a new one.
-/

namespace Ngircd.Lib

variable {α : Type} (size : List α → Nat) (limit : Nat)

/-- The lines of the words `cur`, which are on the current line, and `rest`. -/
def pack : List α → List α → List (List α)
  | cur, [] => if cur.isEmpty then [] else [cur]
  | cur, e :: rest =>
    if limit < size (cur ++ [e]) then (cur ++ [e]) :: pack [] rest else pack (cur ++ [e]) rest

/-- No word is lost. -/
theorem flatten_pack (cur rest : List α) : (pack size limit cur rest).flatten = cur ++ rest := by
  induction rest generalizing cur with
  | nil =>
    unfold pack
    split
    · rename_i hcur
      simp [List.isEmpty_iff.mp hcur]
    · simp
  | cons e rest ih =>
    unfold pack
    split
    · simp [ih]
    · simp [ih]

/-- Words may be replaced while they are collected. -/
theorem pack_map {β : Type} (f : β → α) (cur rest : List β) :
    pack size limit (cur.map f) (rest.map f) =
      (pack (fun l => size (l.map f)) limit cur rest).map (List.map f) := by
  induction rest generalizing cur with
  | nil =>
    simp only [List.map_nil, pack, List.isEmpty_map]
    split
    · rfl
    · rfl
  | cons e rest ih =>
    have hcat : cur.map f ++ [f e] = (cur ++ [e]).map f := by simp
    simp only [List.map_cons, pack, hcat]
    split
    · rw [List.map_cons, ← ih [], List.map_nil]
    · exact ih _

/-- Before its last word a line was not too long. -/
theorem exists_of_mem_pack {cur rest line : List α} (hcur : cur = [] ∨ size cur ≤ limit)
    (h : line ∈ pack size limit cur rest) :
    (line = cur ∧ cur ≠ []) ∨
      ∃ front, ∃ e ∈ rest, line = front ++ [e] ∧ (front = [] ∨ size front ≤ limit) := by
  induction rest generalizing cur with
  | nil =>
    unfold pack at h
    split at h
    · exact nomatch h
    · rename_i hne
      exact .inl ⟨List.mem_singleton.mp h, by simpa using hne⟩
  | cons e rest ih =>
    have hrest {front : List α} {f : α} (hf : f ∈ rest) (hline : line = front ++ [f])
        (hfront : front = [] ∨ size front ≤ limit) :
        ∃ front, ∃ e' ∈ e :: rest, line = front ++ [e'] ∧ (front = [] ∨ size front ≤ limit) :=
      ⟨front, f, List.mem_cons_of_mem e hf, hline, hfront⟩
    unfold pack at h
    split at h
    · rcases List.mem_cons.mp h with rfl | h
      · exact .inr ⟨cur, e, .head _, rfl, hcur⟩
      · rcases ih (.inl rfl) h with ⟨-, hne⟩ | ⟨front, f, hf, hline, hfront⟩
        · exact absurd rfl hne
        · exact .inr (hrest hf hline hfront)
    · rename_i hle
      rcases ih (.inr (Nat.le_of_not_lt hle)) h with ⟨rfl, -⟩ | ⟨front, f, hf, hline, hfront⟩
      · exact .inr ⟨cur, e, .head _, rfl, hcur⟩
      · exact .inr (hrest hf hline hfront)

end Ngircd.Lib
