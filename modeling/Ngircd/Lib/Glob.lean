import Ngircd.Lib.CString

/-!
# Wildcard patterns

The language of a pattern in which `*` stands for any sequence of characters and
`?` for one character.
-/

namespace Ngircd.Lib

/-- The text is in the language of the pattern. -/
inductive Glob : Str → Str → Prop
  | nil : Glob [] []
  | star {p t : Str} (u : Str) : Glob p t → Glob ('*' :: p) (u ++ t)
  | one {p t : Str} (c : Char) : Glob p t → Glob ('?' :: p) (c :: t)
  | lit {p t : Str} {c : Char} (hc : c ≠ '*' ∧ c ≠ '?') : Glob p t → Glob (c :: p) (c :: t)

namespace Glob

variable {p t : Str} {c : Char}

@[simp] theorem nil_iff : Glob [] t ↔ t = [] := by
  constructor
  · intro h
    cases h
    rfl
  · rintro rfl
    exact .nil

theorem star_iff : Glob ('*' :: p) t ↔ ∃ v, v <:+ t ∧ Glob p v := by
  constructor
  · intro h
    cases h with
    | star u h => exact ⟨_, List.suffix_append u _, h⟩
    | lit hc _ => exact absurd rfl hc.1
  · rintro ⟨v, ⟨u, rfl⟩, h⟩
    exact .star u h

@[simp] theorem one_iff : Glob ('?' :: p) t ↔ ∃ x ts, t = x :: ts ∧ Glob p ts := by
  constructor
  · intro h
    cases h with
    | one x h => exact ⟨x, _, rfl, h⟩
    | lit hc _ => exact absurd rfl hc.2
  · rintro ⟨x, ts, rfl, h⟩
    exact .one x h

theorem lit_iff (hc : c ≠ '*' ∧ c ≠ '?') : Glob (c :: p) t ↔ ∃ ts, t = c :: ts ∧ Glob p ts := by
  constructor
  · intro h
    cases h with
    | star u h => exact absurd rfl hc.1
    | one x h => exact absurd rfl hc.2
    | lit _ h => exact ⟨_, rfl, h⟩
  · rintro ⟨ts, rfl, h⟩
    exact .lit hc h

/-- Behind a star a pattern matches at some place of the text. -/
theorem star_mono {v : Str} (h : Glob ('*' :: p) v) (hv : v <:+ t) : Glob ('*' :: p) t := by
  obtain ⟨u, hu, h⟩ := star_iff.mp h
  exact star_iff.mpr ⟨u, hu.trans hv, h⟩

/-- Two stars are as good as one. -/
theorem star_star : Glob ('*' :: '*' :: p) t ↔ Glob ('*' :: p) t := by
  constructor
  · intro h
    obtain ⟨u, hu, h⟩ := star_iff.mp h
    exact h.star_mono hu
  · exact fun h => star_iff.mpr ⟨t, List.suffix_rfl, h⟩

/-- A star may stand behind the `?` as well. -/
theorem star_one : Glob ('*' :: '?' :: p) t ↔ ∃ x ts, t = x :: ts ∧ Glob ('*' :: p) ts := by
  constructor
  · intro h
    obtain ⟨u, ⟨front, rfl⟩, hone⟩ := star_iff.mp h
    obtain ⟨x, ts, rfl, hrest⟩ := one_iff.mp hone
    cases front with
    | nil => exact ⟨x, ts, rfl, .star [] hrest⟩
    | cons y ys => exact ⟨y, ys ++ x :: ts, rfl, star_iff.mpr ⟨ts, ⟨ys ++ [x], by simp⟩, hrest⟩⟩
  · rintro ⟨x, ts, rfl, h⟩
    obtain ⟨v, ⟨front, rfl⟩, hrest⟩ := star_iff.mp h
    rcases front.eq_nil_or_concat with rfl | ⟨ys, y, rfl⟩
    · exact .star [] (.one x hrest)
    · exact star_iff.mpr ⟨y :: v, ⟨x :: ys, by simp⟩, .one y hrest⟩

end Glob

end Ngircd.Lib
