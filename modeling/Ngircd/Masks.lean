import Ngircd.Lib.Glob
import Ngircd.Quiet

/-!
# The language of a mask

`Matche` and `Matche_After_Star` decide whether a text is in the language of a
pattern.  Two kinds of patterns are treated in a special way: a backslash behind
a star is half taken for an escape, and stars at the end of a pattern want a
character if there is more than one of them.
-/

namespace Ngircd

open Lib Prog

variable {p t ts text host : Str} {c x next : Char} {A B : Str → Prop} {r : MatchResult} {n : Nat}
  {f g : Str → Str → MatchResult}

/-- No backslash stands behind a star, but for those that are followed by a backslash or a
bracket.  The flag tells whether there is a star before, with nothing but wildcards behind it. -/
def wellEscaped : Bool → Str → Bool
  | _, [] => true
  | inStar, c :: ps =>
    if c = '*' then wellEscaped true ps
    else if c = '?' then wellEscaped inStar ps
    else if c = '\\' then
      (!inStar || ps.head? == some '\\' || ps.head? == some '[') && wellEscaped false ps
    else wellEscaped false ps

/-- Two or more stars at the end of a pattern stand for at least one character. -/
def tighten : Bool → Str → Str
  | _, [] => []
  | inStar, c :: ps =>
    if c = '*' then
      if !inStar && !ps.isEmpty && ps.all (· == '*') then ['?', '*'] else '*' :: tighten true ps
    else if c = '?' then '?' :: tighten inStar ps
    else c :: tighten false ps

/-- What `Matche` accepts. -/
def Accepts (p t : Str) : Prop := wellEscaped false p = true ∧ Glob (tighten false p) t

/-- What is accepted behind a star. -/
def AcceptsStar (p t : Str) : Prop := wellEscaped true p = true ∧ Glob ('*' :: tighten true p) t

section Language

variable {ps v : Str}

theorem AcceptsStar.mono (h : AcceptsStar p v) (hv : v <:+ t) : AcceptsStar p t :=
  ⟨h.1, h.2.star_mono hv⟩

theorem acceptsStar_nil (t : Str) : AcceptsStar [] t :=
  ⟨rfl, Glob.star_iff.mpr ⟨[], List.nil_suffix, .nil⟩⟩

theorem wellEscaped_star (b : Bool) (ps : Str) : wellEscaped b ('*' :: ps) = wellEscaped true ps :=
  rfl

theorem wellEscaped_one (b : Bool) (ps : Str) : wellEscaped b ('?' :: ps) = wellEscaped b ps := rfl

theorem wellEscaped_lit (hc : c ≠ '*' ∧ c ≠ '?') (b : Bool) (ps : Str) :
    wellEscaped b (c :: ps) = if c = '\\' then
      (!b || ps.head? == some '\\' || ps.head? == some '[') && wellEscaped false ps
    else wellEscaped false ps := by
  rw [wellEscaped, if_neg hc.1, if_neg hc.2]

theorem tighten_one (b : Bool) (ps : Str) : tighten b ('?' :: ps) = '?' :: tighten b ps := rfl

theorem tighten_lit (hc : c ≠ '*' ∧ c ≠ '?') (b : Bool) (ps : Str) :
    tighten b (c :: ps) = c :: tighten false ps := by
  rw [tighten, if_neg hc.1, if_neg hc.2]

/-- Behind a star, no character is asked for. -/
theorem tighten_star (b : Bool) (ps : Str) : tighten b ('*' :: ps) =
    if !b && !ps.isEmpty && ps.all (· == '*') then ['?', '*'] else '*' :: tighten true ps := rfl

theorem acceptsStar_star : AcceptsStar ('*' :: ps) t ↔ AcceptsStar ps t := by
  simp only [AcceptsStar, wellEscaped_star, tighten_star, Bool.not_true, Bool.false_and,
    Bool.false_eq_true, if_false, Glob.star_star]

theorem acceptsStar_one : AcceptsStar ('?' :: ps) t ↔ ∃ x ts, t = x :: ts ∧ AcceptsStar ps ts := by
  simp only [AcceptsStar, wellEscaped_one, tighten_one, Glob.star_one]
  constructor
  · rintro ⟨hwell, x, ts, rfl, h⟩
    exact ⟨x, ts, rfl, hwell, h⟩
  · rintro ⟨x, ts, rfl, hwell, h⟩
    exact ⟨hwell, x, ts, rfl, h⟩

/-- Behind a star, a pattern that begins with a character matches somewhere. -/
theorem acceptsStar_lit (hc : c ≠ '*' ∧ c ≠ '?') : AcceptsStar (c :: ps) t ↔
    (c = '\\' → ps.head? = some '\\' ∨ ps.head? = some '[') ∧
      ∃ v, v <:+ t ∧ Accepts (c :: ps) v := by
  have hwell : wellEscaped true (c :: ps) = true ↔
      (c = '\\' → ps.head? = some '\\' ∨ ps.head? = some '[') ∧
        wellEscaped false (c :: ps) = true := by
    rw [wellEscaped_lit hc, wellEscaped_lit hc]
    by_cases hslash : c = '\\'
    · simp [hslash]
    · simp [hslash]
  unfold AcceptsStar Accepts
  rw [hwell, Glob.star_iff, tighten_lit hc, tighten_lit hc]
  constructor
  · rintro ⟨⟨hescape, hok⟩, v, hv, h⟩
    exact ⟨hescape, v, hv, hok, h⟩
  · rintro ⟨hescape, v, hv, hok, h⟩
    exact ⟨⟨hescape, hok⟩, v, hv, h⟩

theorem accepts_nil : Accepts [] t ↔ t = [] := by
  constructor
  · rintro ⟨-, h⟩
    exact Glob.nil_iff.mp h
  · rintro rfl
    exact ⟨rfl, .nil⟩

theorem accepts_one : Accepts ('?' :: ps) t ↔ ∃ x ts, t = x :: ts ∧ Accepts ps ts := by
  simp only [Accepts, wellEscaped_one, tighten_one, Glob.one_iff]
  constructor
  · rintro ⟨hwell, x, ts, rfl, h⟩
    exact ⟨x, ts, rfl, hwell, h⟩
  · rintro ⟨x, ts, rfl, hwell, h⟩
    exact ⟨hwell, x, ts, rfl, h⟩

theorem accepts_lit (hc : c ≠ '*' ∧ c ≠ '?') :
    Accepts (c :: ps) t ↔ ∃ ts, t = c :: ts ∧ Accepts ps ts := by
  have hwell : wellEscaped false (c :: ps) = wellEscaped false ps := by
    rw [wellEscaped_lit hc]
    simp
  simp only [Accepts, hwell, tighten_lit hc, Glob.lit_iff hc]
  constructor
  · rintro ⟨hok, ts, rfl, h⟩
    exact ⟨ts, rfl, hok, h⟩
  · rintro ⟨ts, rfl, hok, h⟩
    exact ⟨hok, ts, rfl, h⟩

theorem not_acceptsStar_nil (h : ps.all (· == '*') = false) : ¬AcceptsStar ps [] := by
  induction ps with
  | nil => exact nomatch h
  | cons c ps ih =>
    by_cases hstar : c = '*'
    · subst hstar
      rw [acceptsStar_star]
      exact ih (by simpa using h)
    · by_cases hone : c = '?'
      · subst hone
        rw [acceptsStar_one]
        rintro ⟨x, ts, hnil, -⟩
        exact nomatch hnil
      · rw [acceptsStar_lit ⟨hstar, hone⟩]
        rintro ⟨-, v, hv, haccepts⟩
        obtain ⟨ts, rfl, -⟩ := (accepts_lit ⟨hstar, hone⟩).mp haccepts
        exact nomatch List.suffix_nil.mp hv

theorem acceptsStar_of_all (h : ps.all (· == '*') = true) (t : Str) : AcceptsStar ps t := by
  induction ps with
  | nil => exact acceptsStar_nil t
  | cons c ps ih =>
    simp only [List.all_cons, Bool.and_eq_true, beq_iff_eq] at h
    rw [h.1, acceptsStar_star]
    exact ih h.2

/-- A star at the front of a pattern. -/
theorem accepts_star : Accepts ('*' :: ps) t ↔ ps = [] ∨ t ≠ [] ∧ AcceptsStar ps t := by
  by_cases hall : ps.all (· == '*') = true
  · by_cases hnil : ps = []
    · subst hnil
      simp only [true_or, iff_true]
      exact acceptsStar_nil t
    · have hwell : wellEscaped false ('*' :: ps) = true := (acceptsStar_of_all hall []).1
      have htight : tighten false ('*' :: ps) = ['?', '*'] := by
        simp only [tighten_star, Bool.not_false, Bool.true_and, hall, Bool.and_true]
        rw [if_pos (by simpa using hnil)]
      simp only [Accepts, hwell, htight, hnil, false_or, acceptsStar_of_all hall t, and_true,
        true_and,
        Glob.one_iff]
      constructor
      · rintro ⟨x, ts, rfl, -⟩
        exact List.cons_ne_nil _ _
      · intro hne
        obtain ⟨x, ts, rfl⟩ := List.exists_cons_of_ne_nil hne
        exact ⟨x, ts, rfl, Glob.star_iff.mpr ⟨[], List.nil_suffix, .nil⟩⟩
  · rw [Bool.not_eq_true] at hall
    have hne : ps ≠ [] := by rintro rfl; cases hall
    have htight : Accepts ('*' :: ps) t ↔ AcceptsStar ps t := by
      simp only [Accepts, AcceptsStar, wellEscaped_star, tighten_star, hall, Bool.and_false,
        Bool.false_eq_true, if_false]
    rw [htight]
    constructor
    · intro h
      refine .inr ⟨?_, h⟩
      rintro rfl
      exact not_acceptsStar_nil hall h
    · rintro (h | ⟨-, h⟩)
      · exact absurd h hne
      · exact h

end Language

/-! ## The matcher -/

/-- An answer of the matcher is right about the language `A`: a text that ends too soon or a bad
pattern rule out all that could follow. -/
structure MatchResult.RightAbout (A : Str → Prop) (t : Str) (r : MatchResult) : Prop where
  valid : r = .valid ↔ A t
  abort : r = .abort → ∀ v, v <:+ t → ¬A v
  bad : r = .badPattern → ∀ v, ¬A v

section Matcher

variable {q ps : Str} {f : Str → MatchResult}

theorem skipWildcards_none (h : skipWildcards p t = none) : ¬AcceptsStar p t := by
  fun_induction skipWildcards p t with
  | case1 t p ih =>
    rw [acceptsStar_star]
    exact ih h
  | case2 p =>
    rw [acceptsStar_one]
    rintro ⟨x, ts, hnil, -⟩
    exact nomatch hnil
  | case3 p x t ih =>
    rw [acceptsStar_one]
    rintro ⟨y, ts, heq, haccepts⟩
    cases heq
    exact ih h haccepts
  | case4 => exact nomatch h

theorem skipWildcards_some (h : skipWildcards p t = some (q, text)) :
    (AcceptsStar p t ↔ AcceptsStar q text) ∧ (∀ v, AcceptsStar p v → ∃ u, AcceptsStar q u) ∧
      q.length ≤ p.length ∧ ∀ c ∈ q.head?, c ≠ '*' ∧ c ≠ '?' := by
  fun_induction skipWildcards p t with
  | case1 t p ih =>
    obtain ⟨haccepts, hsome, hlength, hhead⟩ := ih h
    refine ⟨?_, fun v hv => ?_, Nat.le_succ_of_le hlength, hhead⟩
    · rwa [acceptsStar_star]
    · rw [acceptsStar_star] at hv
      exact hsome v hv
  | case2 p => exact nomatch h
  | case3 p x t ih =>
    obtain ⟨haccepts, hsome, hlength, hhead⟩ := ih h
    refine ⟨?_, fun v hv => ?_, Nat.le_succ_of_le hlength, hhead⟩
    · rw [acceptsStar_one, ← haccepts]
      constructor
      · rintro ⟨y, ts, heq, hrest⟩
        cases heq
        exact hrest
      · exact fun hrest => ⟨x, t, rfl, hrest⟩
    · rw [acceptsStar_one] at hv
      obtain ⟨y, ts, -, hrest⟩ := hv
      exact hsome ts hrest
  | case4 t p hstar hnil hone =>
    cases h
    refine ⟨Iff.rfl, fun v hv => ⟨v, hv⟩, Nat.le_refl _, fun c hc => ⟨?_, ?_⟩⟩
    · rintro rfl
      obtain ⟨ps, rfl⟩ := List.head?_eq_some_iff.mp hc
      exact hstar ps rfl
    · rintro rfl
      obtain ⟨ps, rfl⟩ := List.head?_eq_some_iff.mp hc
      cases text with
      | nil => exact hnil ps rfl rfl
      | cons x ts => exact hone ps x ts rfl rfl

/-- The scan finds a place where the rest of the pattern matches. -/
theorem scanText_spec (hf : ∀ t, (f t).RightAbout A t) (hnil : ¬A [])
    (hskip : ∀ x ts, A (x :: ts) → next = x ∨ next = '[') (text : Str) :
    (scanText next f text = .valid ↔ ∃ v, v <:+ text ∧ A v) ∧
      (scanText next f text = .badPattern → ∀ v, ¬A v) := by
  induction text with
  | nil =>
    refine ⟨⟨(fun h => nomatch h), ?_⟩, fun h => nomatch h⟩
    rintro ⟨v, hv, hA⟩
    rw [List.suffix_nil.mp hv] at hA
    exact absurd hA hnil
  | cons x ts ih =>
    have hmissed (h : ¬A (x :: ts)) : (∃ v, v <:+ x :: ts ∧ A v) ↔ ∃ v, v <:+ ts ∧ A v := by
      constructor
      · rintro ⟨v, hv, hA⟩
        rcases List.suffix_cons_iff.mp hv with rfl | hv
        · exact absurd hA h
        · exact ⟨v, hv, hA⟩
      · rintro ⟨v, hv, hA⟩
        exact ⟨v, hv.trans (List.suffix_cons x ts), hA⟩
    unfold scanText
    by_cases hcond : (next == x || next == '[') = true
    · simp only [hcond, if_true]
      have hright := hf (x :: ts)
      cases hres : f (x :: ts) with
      | valid =>
        rw [hres] at hright
        exact ⟨⟨fun _ => ⟨x :: ts, List.suffix_rfl, hright.valid.mp rfl⟩, fun _ => rfl⟩,
          fun h => nomatch h⟩
      | abort =>
        rw [hres] at hright
        refine ⟨⟨(fun h => nomatch h), ?_⟩, fun h => nomatch h⟩
        rintro ⟨v, hv, hA⟩
        exact absurd hA (hright.abort rfl v hv)
      | badPattern =>
        rw [hres] at hright
        refine ⟨⟨(fun h => nomatch h), ?_⟩, fun _ => hright.bad rfl⟩
        rintro ⟨v, -, hA⟩
        exact absurd hA (hright.bad rfl v)
      | literal =>
        rw [hres] at hright
        rw [hmissed fun hA => nomatch hright.valid.mpr hA]
        exact ih
      | endOfPattern =>
        rw [hres] at hright
        rw [hmissed fun hA => nomatch hright.valid.mpr hA]
        exact ih
    · have hmiss : ¬A (x :: ts) := by
        intro hA
        rcases hskip x ts hA with rfl | rfl
        · simp at hcond
        · simp at hcond
      rw [hmissed hmiss]
      rw [Bool.not_eq_true] at hcond
      simp only [hcond, Bool.false_eq_true, if_false]
      exact ih

/-- A scan for a backslash stops nowhere if the character behind it is looked for. -/
theorem scanText_never (hbracket : next ≠ '[') (hf : ∀ ts, f (next :: ts) = .literal) (text : Str) :
    scanText next f text = .abort := by
  induction text with
  | nil => rfl
  | cons x ts ih =>
    unfold scanText
    by_cases hx : next = x
    · subst hx
      simp only [BEq.rfl, Bool.true_or, if_true, hf]
      exact ih
    · simp only [beq_eq_false_iff_ne.mpr hx, beq_eq_false_iff_ne.mpr hbracket, Bool.or_self,
        Bool.false_eq_true, if_false]
      exact ih

/-- The answer behind a star.  Without a match at some place there is none in what follows. -/
theorem rightAbout_star
    (hvalid : r = .valid ↔ AcceptsStar ps (x :: ts))
    (hbad : r = .badPattern → ∀ v, ¬AcceptsStar ps v) :
    r.RightAbout (Accepts ('*' :: ps)) (x :: ts) := by
  have hps (hr : r ≠ .valid) : ps ≠ [] := by
    rintro rfl
    exact hr (hvalid.mpr (acceptsStar_nil _))
  constructor
  · rw [accepts_star, hvalid]
    constructor
    · exact fun h => .inr ⟨List.cons_ne_nil _ _, h⟩
    · rintro (rfl | ⟨-, h⟩)
      · exact acceptsStar_nil _
      · exact h
  · intro hr v hv
    have hne : r ≠ .valid := by rw [hr]; exact nofun
    rw [accepts_star]
    rintro (h | ⟨-, h⟩)
    · exact hps hne h
    · exact hne (hvalid.mpr (h.mono hv))
  · intro hr v
    have hne : r ≠ .valid := by rw [hr]; exact nofun
    rw [accepts_star]
    rintro (h | ⟨-, h⟩)
    · exact hps hne h
    · exact hbad hr v h

theorem matche_lit (n : Nat) (hc : c ≠ '*' ∧ c ≠ '?') (ps : Str) (x : Char) (ts : Str) :
    matche (n + 1) (c :: ps) (x :: ts) = if c != x then .literal else matche n ps ts := by
  rw [matche]
  · exact fun heq => hc.2 heq
  · exact fun heq => hc.1 heq

/-- A pattern behind a star that begins with a character. -/
theorem matche_behind (hright : ∀ t, (matche n (c :: ps) t).RightAbout (Accepts (c :: ps)) t)
    (hn : 0 < n) (hc : c ≠ '*' ∧ c ≠ '?') (text : Str)
    (hnext : c ≠ '\\' ∧ next = c ∨ c = '\\' ∧ ps.head? = some next) :
    (scanText next (matche n (c :: ps)) text = .valid ↔ AcceptsStar (c :: ps) text) ∧
      (scanText next (matche n (c :: ps)) text = .badPattern → ∀ v, ¬AcceptsStar (c :: ps) v) := by
  have hnil : ¬Accepts (c :: ps) [] := by
    rw [accepts_lit hc]
    rintro ⟨ts, hnil, -⟩
    exact nomatch hnil
  have hhead {x : Char} {ts : Str} (h : Accepts (c :: ps) (x :: ts)) : c = x := by
    obtain ⟨ts', heq, -⟩ := (accepts_lit hc).mp h
    cases heq
    rfl
  -- The character that is looked for is at the front of every match.
  have hfound (hescape : c = '\\' → ps.head? = some '\\' ∨ ps.head? = some '[') :
      (scanText next (matche n (c :: ps)) text = .valid ↔ AcceptsStar (c :: ps) text) ∧
        (scanText next (matche n (c :: ps)) text = .badPattern →
          ∀ v, ¬AcceptsStar (c :: ps) v) := by
    have hskip (x : Char) (ts : Str) (h : Accepts (c :: ps) (x :: ts)) : next = x ∨ next = '[' := by
      rcases hnext with ⟨-, rfl⟩ | ⟨rfl, hnext⟩
      · exact .inl (hhead h)
      · rw [hnext] at hescape
        rcases hescape rfl with hescape | hescape
        · exact .inl ((Option.some.inj hescape).trans (hhead h))
        · exact .inr (Option.some.inj hescape)
    obtain ⟨hvalid, hbad⟩ := scanText_spec hright hnil hskip text
    refine ⟨?_, fun h v => ?_⟩
    · rw [hvalid, acceptsStar_lit hc]
      exact ⟨fun h => ⟨hescape, h⟩, fun h => h.2⟩
    · rw [acceptsStar_lit hc]
      rintro ⟨-, u, -, haccepts⟩
      exact hbad h u haccepts
  by_cases hescape : c = '\\' → ps.head? = some '\\' ∨ ps.head? = some '['
  · exact hfound hescape
  · have hnever (v : Str) : ¬AcceptsStar (c :: ps) v :=
      fun h => hescape ((acceptsStar_lit hc).mp h).1
    rw [Classical.not_imp, not_or] at hescape
    obtain ⟨rfl, hslash, hbracket⟩ := hescape
    have hps : ps.head? = some next := by
      rcases hnext with ⟨hne, -⟩ | ⟨-, hps⟩
      · exact absurd rfl hne
      · exact hps
    rw [hps, Option.some.injEq] at hslash hbracket
    have habort : scanText next (matche n ('\\' :: ps)) text = .abort := by
      refine scanText_never hbracket (fun ts => ?_) text
      obtain ⟨n, rfl⟩ := Nat.exists_eq_succ_of_ne_zero (Nat.ne_of_gt hn)
      rw [matche_lit n (by decide),
        if_pos (by simpa using fun heq : '\\' = next => hslash heq.symm)]
    rw [habort]
    exact ⟨⟨(fun h => nomatch h), fun h => absurd h (hnever text)⟩, fun h => nomatch h⟩

/-- An answer about the rest of pattern and text is one about the whole, if a character goes
before both. -/
theorem MatchResult.RightAbout.cons
    (h : r.RightAbout B ts) (hvalid : A (x :: ts) ↔ B ts)
    (hcons : ∀ v, A v → ∃ y vs, v = y :: vs ∧ B vs) : r.RightAbout A (x :: ts) where
  valid := h.valid.trans hvalid.symm
  abort hr v hv hA := by
    obtain ⟨y, vs, rfl, hB⟩ := hcons v hA
    refine h.abort hr vs ?_ hB
    rcases List.suffix_cons_iff.mp hv with heq | hv
    · cases heq
      exact List.suffix_rfl
    · exact (List.suffix_cons y vs).trans hv
  bad hr v hA := by
    obtain ⟨y, vs, -, hB⟩ := hcons v hA
    exact h.bad hr vs hB

theorem accepts_empty : Accepts (c :: ps) [] ↔ c = '*' ∧ ps = [] := by
  by_cases hstar : c = '*'
  · subst hstar
    simp [accepts_star]
  · by_cases hone : c = '?'
    · subst hone
      simp [accepts_one]
    · simp [accepts_lit ⟨hstar, hone⟩, hstar]

/-- The text has ended. -/
theorem matche_empty (n : Nat) (c : Char) (ps : Str) :
    (matche (n + 1) (c :: ps) []).RightAbout (Accepts (c :: ps)) [] := by
  show (if c == '*' && ps.isEmpty then MatchResult.valid else .abort).RightAbout _ _
  by_cases hlast : c = '*' ∧ ps = []
  · rw [if_pos (by simpa using hlast)]
    have haccepts : Accepts (c :: ps) [] := by rwa [accepts_empty]
    exact ⟨⟨fun _ => haccepts, fun _ => rfl⟩, (fun h => nomatch h), fun h => nomatch h⟩
  · rw [if_neg (by simpa using hlast)]
    have hnone : ¬Accepts (c :: ps) [] := by rwa [accepts_empty]
    refine ⟨⟨(fun h => nomatch h), fun h => absurd h hnone⟩, fun _ v hv => ?_, fun h => nomatch h⟩
    rw [List.suffix_nil.mp hv]
    exact hnone

/-- What `Matche_After_Star` does with the pattern and the text behind the wildcards. -/
def matcheBehind (matchRest : Str → Str → MatchResult) : Option (Str × Str) → MatchResult
  | none => .abort
  | some ([], _) => .valid
  | some (['\\'], _) => .badPattern
  | some ('\\' :: q :: qs, text) => scanText q (matchRest ('\\' :: q :: qs)) text
  | some (q :: qs, text) => scanText q (matchRest (q :: qs)) text

theorem matche_star_eq (n : Nat) (ps : Str) (x : Char) (ts : Str) :
    matche (n + 1) ('*' :: ps) (x :: ts) = matcheBehind (matche n) (skipWildcards ps (x :: ts)) :=
  rfl

theorem matcheBehind_lit {f : Str → Str → MatchResult} (hc : c ≠ '\\') (qs text : Str) :
    matcheBehind f (some (c :: qs, text)) = scanText c (f (c :: qs)) text := by
  unfold matcheBehind
  split
  · rename_i heq
    cases heq
  · rename_i heq
    cases heq
  · rename_i heq
    cases heq
    exact absurd rfl hc
  · rename_i heq
    cases heq
    exact absurd rfl hc
  · rename_i heq
    cases heq
    rfl

theorem matcheBehind_congr {f : Str → Str → MatchResult} (q text : Str) (h : f q = g q) :
    matcheBehind f (some (q, text)) = matcheBehind g (some (q, text)) := by
  cases q with
  | nil => rfl
  | cons c qs =>
    by_cases hslash : c = '\\'
    · subst hslash
      cases qs with
      | nil => rfl
      | cons d qs => exact congrArg (scanText d · text) h
    · rw [matcheBehind_lit hslash, matcheBehind_lit hslash, h]

/-- A star, and the wildcards behind it. -/
theorem matche_star (ih : ∀ p t, p.length < n → (matche n p t).RightAbout (Accepts p) t)
    (hn : ps.length < n) (x : Char) (ts : Str) :
    (matche (n + 1) ('*' :: ps) (x :: ts)).RightAbout (Accepts ('*' :: ps)) (x :: ts) := by
  rw [matche_star_eq]
  cases hskip : skipWildcards ps (x :: ts) with
  | none =>
    have hnone := skipWildcards_none hskip
    exact rightAbout_star ⟨(fun h => nomatch h), fun h => absurd h hnone⟩ fun h => nomatch h
  | some qt =>
    obtain ⟨q, text⟩ := qt
    obtain ⟨haccepts, hsome, hlength, hhead⟩ := skipWildcards_some hskip
    cases q with
    | nil => exact rightAbout_star ⟨fun _ => haccepts.mpr (acceptsStar_nil _),
        fun _ => rfl⟩ fun h => nomatch h
    | cons c qs =>
      have hc := hhead c rfl
      have hright (t : Str) := ih (c :: qs) t (Nat.lt_of_le_of_lt hlength hn)
      have hpos : 0 < n := Nat.zero_lt_of_lt hn
      have hstar (next : Char) (hnext : c ≠ '\\' ∧ next = c ∨ c = '\\' ∧ qs.head? = some next) :
          (scanText next (matche n (c :: qs)) text).RightAbout (Accepts ('*' :: ps)) (x :: ts) := by
        obtain ⟨hvalid, hbad⟩ := matche_behind hright hpos hc text hnext
        refine rightAbout_star (hvalid.trans haccepts.symm) fun h v hv => ?_
        obtain ⟨u, hu⟩ := hsome v hv
        exact hbad h u hu
      by_cases hslash : c = '\\'
      · subst hslash
        cases qs with
        | nil =>
          have hnever (v : Str) : ¬AcceptsStar ['\\'] v := by
            rw [acceptsStar_lit hc]
            simp
          refine rightAbout_star ⟨(fun h => nomatch h), fun h => ?_⟩ fun _ v hv => ?_
          · exact absurd (haccepts.mp h) (hnever text)
          · obtain ⟨u, hu⟩ := hsome v hv
            exact hnever u hu
        | cons q qs => exact hstar q (.inr ⟨rfl, rfl⟩)
      · rw [matcheBehind_lit hslash]
        exact hstar c (.inl ⟨hslash, rfl⟩)

/-- The matcher is right about what it accepts, with fuel for every character of the pattern. -/
theorem matche_right (n : Nat) (p t : Str) (hn : p.length < n) :
    (matche n p t).RightAbout (Accepts p) t := by
  induction n generalizing p t with
  | zero => exact absurd hn (Nat.not_lt_zero _)
  | succ n ih =>
    cases p with
    | nil =>
      cases t with
      | nil =>
        have haccepts : Accepts [] [] := by rw [accepts_nil]
        exact ⟨⟨fun _ => haccepts, fun _ => rfl⟩, (fun h => nomatch h), fun h => nomatch h⟩
      | cons x ts =>
        have hnone : ¬Accepts [] (x :: ts) := by
          rw [accepts_nil]
          exact List.cons_ne_nil _ _
        exact ⟨⟨(fun h => nomatch h), fun h => absurd h hnone⟩, (fun h => nomatch h),
          fun h => nomatch h⟩
    | cons c ps =>
      have hps : ps.length < n := by simpa using hn
      cases t with
      | nil => exact matche_empty n c ps
      | cons x ts =>
        by_cases hstar : c = '*'
        · subst hstar
          exact matche_star ih hps x ts
        · by_cases hone : c = '?'
          · subst hone
            show (matche n ps ts).RightAbout _ _
            refine (ih ps ts hps).cons ?_ fun v hv => by rwa [accepts_one] at hv
            rw [accepts_one]
            exact ⟨fun ⟨_, _, heq, h⟩ => by cases heq; exact h, fun h => ⟨x, ts, rfl, h⟩⟩
          · have hc : c ≠ '*' ∧ c ≠ '?' := ⟨hstar, hone⟩
            rw [matche_lit n hc]
            by_cases hx : c = x
            · subst hx
              rw [if_neg (by simp)]
              refine (ih ps ts hps).cons ?_ fun v hv => ?_
              · rw [accepts_lit hc]
                exact ⟨fun ⟨_, heq, h⟩ => by cases heq; exact h, fun h => ⟨ts, rfl, h⟩⟩
              · obtain ⟨vs, rfl, h⟩ := (accepts_lit hc).mp hv
                exact ⟨c, vs, rfl, h⟩
            · rw [if_pos (by simpa using hx)]
              refine ⟨⟨(fun h => nomatch h), fun h => ?_⟩, (fun h => nomatch h), fun h => nomatch h⟩
              obtain ⟨vs, heq, -⟩ := (accepts_lit hc).mp h
              cases heq
              exact absurd rfl hx

/-- More fuel than characters of the pattern makes no difference. -/
theorem matche_fuel {m : Nat} (hn : p.length < n) (hm : p.length < m) (t : Str) :
    matche n p t = matche m p t := by
  induction n generalizing m p t with
  | zero => exact absurd hn (Nat.not_lt_zero _)
  | succ n ih =>
    obtain ⟨m, rfl⟩ := Nat.exists_eq_succ_of_ne_zero (Nat.ne_of_gt (Nat.zero_lt_of_lt hm))
    cases p with
    | nil => rfl
    | cons c ps =>
      have hn' : ps.length < n := by simpa using hn
      have hm' : ps.length < m := by simpa using hm
      cases t with
      | nil => rfl
      | cons x ts =>
        by_cases hstar : c = '*'
        · subst hstar
          have hrest {q text : Str} (hskip : skipWildcards ps (x :: ts) = some (q, text)) :
              matche n q = matche m q := by
            have hlength := (skipWildcards_some hskip).2.2.1
            exact funext fun t => ih (Nat.lt_of_le_of_lt hlength hn')
              (Nat.lt_of_le_of_lt hlength hm') t
          rw [matche_star_eq, matche_star_eq]
          cases hskip : skipWildcards ps (x :: ts) with
          | none => rfl
          | some qt => exact matcheBehind_congr qt.1 qt.2 (hrest hskip)
        · by_cases hone : c = '?'
          · subst hone
            exact ih hn' hm' ts
          · rw [matche_lit n ⟨hstar, hone⟩, matche_lit m ⟨hstar, hone⟩, ih hn' hm' ts]

end Matcher

section Exact

theorem maskMatch_iff : maskMatch p t = true ↔ Accepts p t := by
  rw [maskMatch, beq_iff_eq]
  exact (matche_right (p.length + 1) p t (Nat.lt_succ_self _)).valid

theorem wellEscaped_of_not_mem (h : '\\' ∉ p) (inStar : Bool) : wellEscaped inStar p = true := by
  induction p generalizing inStar with
  | nil => rfl
  | cons c ps ih =>
    rw [List.mem_cons, not_or] at h
    have hc : ¬c = '\\' := fun heq => h.1 heq.symm
    simp only [wellEscaped, hc, if_false]
    split
    · exact ih h.2 true
    · split
      · exact ih h.2 inStar
      · exact ih h.2 false

theorem tighten_of_single (h : ¬['*', '*'] <:+: p) (inStar : Bool) : tighten inStar p = p := by
  induction p generalizing inStar with
  | nil => rfl
  | cons c ps ih =>
    have hps (b : Bool) : tighten b ps = ps :=
      ih (fun hin => h (hin.trans (List.suffix_cons c ps).isInfix)) b
    unfold tighten
    split
    · rename_i hc
      subst hc
      rw [if_neg, hps true]
      intro hall
      simp only [Bool.and_eq_true, Bool.not_eq_true', List.isEmpty_eq_false_iff, List.all_eq_true,
        beq_iff_eq] at hall
      obtain ⟨⟨-, hne⟩, hstars⟩ := hall
      obtain ⟨d, ds, rfl⟩ := List.exists_cons_of_ne_nil hne
      obtain rfl := hstars d (.head _)
      exact h ⟨[], ds, rfl⟩
    · split
      · rename_i hc
        rw [hc, hps inStar]
      · rw [hps false]

/-- Every pattern matches some text. -/
theorem exists_glob (p : Str) : ∃ t, Glob p t := by
  induction p with
  | nil => exact ⟨[], .nil⟩
  | cons c ps ih =>
    obtain ⟨t, ht⟩ := ih
    by_cases hstar : c = '*'
    · exact ⟨t, by rw [hstar]; exact .star [] ht⟩
    · by_cases hone : c = '?'
      · exact ⟨'a' :: t, by rw [hone]; exact .one 'a' ht⟩
      · exact ⟨c :: t, .lit ⟨hstar, hone⟩ ht⟩

/-- A pattern without a backslash and without two stars side by side matches just the texts of
its language, and the matcher never runs out of fuel. -/
theorem maskMatch_exact {pattern : Str} (hslash : '\\' ∉ pattern)
    (hstars : ¬['*', '*'] <:+: pattern)
    (text : Str) : (maskMatch pattern text = true ↔ Glob pattern text) ∧
      ∀ n, pattern.length < n → matche n pattern text = matche (pattern.length + 1) pattern text ∧
        matche n pattern text ≠ .badPattern := by
  have hlanguage (t : Str) : Accepts pattern t ↔ Glob pattern t := by
    rw [Accepts, wellEscaped_of_not_mem hslash, tighten_of_single hstars]
    simp
  refine ⟨Iff.trans maskMatch_iff (hlanguage text),
    fun n hn => ⟨matche_fuel hn (Nat.lt_succ_self _) text, ?_⟩⟩
  intro hbad
  obtain ⟨t, ht⟩ := exists_glob pattern
  exact (matche_right n pattern text hn).bad hbad t ((hlanguage t).mpr ht)

theorem maskMatch_exact_bracket : (maskMatch "*[b?*" "a[bcd" = true ↔ Glob "*[b?*" "a[bcd") ∧
    ∀ n, 5 < n → matche n "*[b?*" "a[bcd" = matche 6 "*[b?*" "a[bcd" ∧
      matche n "*[b?*" "a[bcd" ≠ .badPattern :=
  maskMatch_exact (by decide) (by decide) "a[bcd"

end Exact

/-! ## Lists of masks -/

/-- A mask matches a text, without regard to case. -/
def MaskMatches (mask text : Str) : Prop := Glob (lowerStr mask) (lowerStr text)

/-- A mask matches a text, although backslashes behind stars and stars at its end are taken in a
special way. -/
def MaskMatchesTightly (mask text : Str) : Prop := Accepts (lowerStr mask) (lowerStr text)

/-- `nick!user@host`. -/
def Client.hostmask (c : Client) (host : Str) : Str := c.id ++ '!' :: c.user ++ '@' :: host

section Lists

variable {mask : Str} {c : Client} {l : List ListElem}

/-- What is accepted is in the language of the pattern. -/
theorem glob_of_tighten {inStar : Bool} (h : Glob (tighten inStar p) t) : Glob p t := by
  induction p generalizing inStar t with
  | nil => exact h
  | cons c ps ih =>
    unfold tighten at h
    split at h
    · rename_i hc
      subst hc
      split at h
      · rename_i hall
        simp only [Bool.and_eq_true] at hall
        obtain ⟨-, hall⟩ := hall
        clear ih h
        induction ps generalizing t with
        | nil => exact Glob.star_iff.mpr ⟨[], List.nil_suffix, .nil⟩
        | cons d ps ih =>
          simp only [List.all_cons, Bool.and_eq_true, beq_iff_eq] at hall
          rw [hall.1, Glob.star_star]
          exact ih hall.2
      · obtain ⟨v, hv, hrest⟩ := Glob.star_iff.mp h
        exact Glob.star_iff.mpr ⟨v, hv, ih hrest⟩
    · split at h
      · rename_i hc
        subst hc
        obtain ⟨x, ts, rfl, hrest⟩ := Glob.one_iff.mp h
        exact .one x (ih hrest)
      · rename_i hstar hone
        obtain ⟨ts, rfl, hrest⟩ := (Glob.lit_iff ⟨hstar, hone⟩).mp h
        exact .lit ⟨hstar, hone⟩ (ih hrest)

theorem matchCaseInsensitive_iff (hmask : mask.length < commandLen)
    (htext : text.length < commandLen) :
    matchCaseInsensitive mask text = true ↔ MaskMatchesTightly mask text := by
  have hcopy {s : Str} (h : s.length < commandLen) : strlcpy s commandLen = s :=
    List.take_of_length_le (by omega)
  rw [matchCaseInsensitive, hcopy hmask, hcopy htext, maskMatch_iff]
  rfl

theorem listsMatch_isSome (l : List ListElem) (cloaked mask : Str) :
    (listsMatch l cloaked mask).isSome = true ↔
      ∃ e ∈ l, matchCaseInsensitive e.mask cloaked = true ∨
        matchCaseInsensitive e.mask mask = true := by
  simp [listsMatch, List.find?_isSome]

/-- `nick!user@host` as far as it fits into the array for it. -/
def Client.cutHostmask (c : Client) (host : Str) : Str := (c.hostmask host).take (getidLen - 1)

theorem snprintf_hostmask (host : Str) :
    snprintf getidLen "%s!%s@%s" [c.id, c.user, host] = c.cutHostmask host := by
  simp [snprintf, format, Client.cutHostmask, Client.hostmask]

/-- `Client_MaskCloaked` of a client whose host name is displayed as `shown`. -/
def Client.maskShown (c : Client) (shown : Str) : Str :=
  if c.hasMode 'x' then snprintf getidLen "%s!%s@%s" [c.id, c.user, shown] else c.mask

/-- What `Lists_CheckReason` answers while no write fails. -/
theorem listsCheckReason_answer {w : World} (hw : Healthy w) (hcalm : w.Calm) {client : ClientRef}
    (hc : w.heap client = some c) (l : List ListElem) (n : Nat) :
    ∃ w', execMsg n (listsCheckReason l client) w =
      .ok (listsMatch l (c.maskShown (w.hostnameDisplayed c)) c.mask, w') := by
  have hrun : (listsCheckReason l client).wp quietWp
      (fun found _ => found = listsMatch l (c.maskShown (w.hostnameDisplayed c)) c.mask) w := by
    unfold listsCheckReason
    by_cases hl : l.isEmpty = true
    · rw [if_pos hl, List.isEmpty_iff.mp hl]
      rfl
    · rw [if_neg hl, wp_bind]
      refine wp_quiet (clientMaskCloaked_quiet hw hcalm hc) fun cloaked w₁ hmask hq => ?_
      obtain ⟨host, hc₁⟩ := hq.heap_some hc
      simp only [clientMask, wp_bind, wp_deref, onClient_of_some hc₁, wp_pure]
      rw [hmask.1]
      rfl
  obtain ⟨found, w', hexec, rfl⟩ := execMsg_of_wp hrun n
  exact ⟨w', hexec⟩

/-- `Lists_CheckReason` finds a client just if some mask of the list matches `nick!user@host` or
its cloaked form, provided that this is so just if some mask matches one of these texts as far as
it fits into `GETID_LEN`, has no backslash behind a star (but for those that are followed by a
backslash or a bracket) and matches even if two or more stars at its end stand for at least one
character. -/
theorem lists_match_exactly (shown : Str) (htype : c.type ≠ .server)
    (hshown : c.hasMode 'x' = false → shown = c.host) (hmasks : ∀ e ∈ l, e.mask.length < maskLen) :
    (((listsMatch l (c.maskShown shown) c.mask).isSome = true ↔
        ∃ e ∈ l, MaskMatches e.mask (c.hostmask shown) ∨ MaskMatches e.mask (c.hostmask c.host)) ↔
      ((∃ e ∈ l, MaskMatches e.mask (c.hostmask shown) ∨ MaskMatches e.mask (c.hostmask c.host)) →
        ∃ e ∈ l, MaskMatchesTightly e.mask (c.cutHostmask shown) ∨
          MaskMatchesTightly e.mask (c.cutHostmask c.host)) ∧
      ((∃ e ∈ l, MaskMatchesTightly e.mask (c.cutHostmask shown) ∨
          MaskMatchesTightly e.mask (c.cutHostmask c.host)) →
        ∃ e ∈ l, MaskMatches e.mask (c.hostmask shown) ∨
          MaskMatches e.mask (c.hostmask c.host))) ∧
    (∀ mask host, (c.hostmask host).length < getidLen →
      MaskMatchesTightly mask (c.cutHostmask host) → MaskMatches mask (c.hostmask host)) ∧
    ∀ (w : World) (client : ClientRef) (n : Nat), Healthy w → w.Calm → w.heap client = some c →
      w.hostnameDisplayed c = shown → ∃ w', execMsg n (listsCheckReason l client) w =
        .ok (listsMatch l (c.maskShown shown) c.mask, w') := by
  have hmask : c.mask = c.cutHostmask c.host := by
    rw [Client.mask, if_neg htype, snprintf_hostmask]
  have hcloaked : c.maskShown shown = c.cutHostmask shown := by
    unfold Client.maskShown
    split
    · exact snprintf_hostmask shown
    · rename_i hx
      rw [hmask, hshown (by simpa using hx)]
  have hshort (host : Str) : (c.cutHostmask host).length < commandLen :=
    Nat.lt_of_le_of_lt (List.length_take_le _ _) (by decide)
  have hfound : (listsMatch l (c.maskShown shown) c.mask).isSome = true ↔
      ∃ e ∈ l, MaskMatchesTightly e.mask (c.cutHostmask shown) ∨
        MaskMatchesTightly e.mask (c.cutHostmask c.host) := by
    rw [listsMatch_isSome, hcloaked, hmask]
    refine exists_congr fun e => and_congr_right fun he => ?_
    have hlt : e.mask.length < commandLen := Nat.lt_trans (hmasks e he) (by decide)
    rw [matchCaseInsensitive_iff hlt (hshort _), matchCaseInsensitive_iff hlt (hshort _)]
  refine ⟨?_, fun mask host hfits htight => ?_, fun w client n hw hcalm hc heq => ?_⟩
  · rw [hfound]
    exact ⟨fun h => ⟨h.mpr, h.mp⟩, fun h => ⟨h.2, h.1⟩⟩
  · -- Nothing is cut off.
    have hwhole : c.cutHostmask host = c.hostmask host :=
      List.take_of_length_le (Nat.le_sub_one_of_lt hfits)
    rw [hwhole] at htight
    exact glob_of_tighten htight.2
  · rw [← heq]
    exact listsCheckReason_answer hw hcalm hc l n

/-- A user whose nickname has a backslash. -/
def slashUser : Client :=
  { type := .user, id := "evil\\bob", user := "u", host := "h", introducer := 0 }

/-- A list with one mask. -/
def banOn (mask : Str) : List ListElem :=
  [{ mask, reason := [], validUntil := 0, onlyonce := false }]

theorem lists_match_exactly_slash :
    ((listsMatch (banOn "*bob!*@*") (slashUser.maskShown "h") slashUser.mask).isSome = true ↔
        ∃ e ∈ banOn "*bob!*@*", MaskMatches e.mask (slashUser.hostmask "h") ∨
          MaskMatches e.mask (slashUser.hostmask "h")) := by
  have hglob : Glob ('*' :: "bob!*@*".toList) ("evil\\".toList ++ "bob!u@h".toList) :=
    .star _ (.lit (by decide) (.lit (by decide) (.lit (by decide) (.lit (by decide)
      (.star ['u'] (.lit (by decide) (.star ['h'] .nil)))))))
  have hfull : MaskMatches "*bob!*@*" (slashUser.hostmask "h") := hglob
  have htight : MaskMatchesTightly "*bob!*@*" (slashUser.cutHostmask "h") :=
    (matchCaseInsensitive_iff (by decide) (by decide)).mp (by decide)
  exact (lists_match_exactly (c := slashUser) (l := banOn "*bob!*@*") "h" (by decide) (by decide)
    (by decide)).1.mpr ⟨fun _ => ⟨_, .head _, .inl htight⟩, fun _ => ⟨_, .head _, .inl hfull⟩⟩

/-- A user from another server with a long nickname. -/
def longUser : Client :=
  { slashUser with id := List.replicate 63 'n', host := List.replicate 60 'h' ++ ['x'] }

/-- A ban on all nicknames that end in a backslash and `bob` does not find the user, and one on
hosts that end in `x` does not find the user whose host name is cut off. -/
theorem lists_miss_matching :
    ((listsMatch (banOn "*\\bob!*@*") (slashUser.maskShown "h") slashUser.mask).isSome = false ∧
      MaskMatches "*\\bob!*@*" (slashUser.hostmask "h")) ∧
    (listsMatch (banOn "*x") (longUser.maskShown longUser.host) longUser.mask).isSome = false ∧
      MaskMatches "*x" (longUser.hostmask longUser.host) := by
  have hglob : Glob ('*' :: "\\bob!*@*".toList) ("evil".toList ++ "\\bob!u@h".toList) :=
    .star _ (.lit (by decide) (.lit (by decide)
      (.lit (by decide) (.lit (by decide) (.lit (by decide)
      (.star ['u'] (.lit (by decide) (.star ['h'] .nil))))))))
  have hlong : Glob ['*', 'x']
      (List.replicate 63 'n' ++ "!u@".toList ++ List.replicate 60 'h' ++ ['x']) :=
    .star _ (.lit (by decide) .nil)
  exact ⟨⟨by decide, hglob⟩, by decide +kernel, hlong⟩

end Lists

end Ngircd
