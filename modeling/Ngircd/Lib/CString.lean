import Mathlib.Algebra.Ring.Int.Defs
import Mathlib.Algebra.Ring.Nat
import Mathlib.Data.List.Basic

/-!
# C strings and the string functions of the C library

A C string is the list of its characters before the terminating NUL.  Buffer
sizes are explicit: the bounded copies below take the size of the destination
and keep one character free for the terminator, as `strlcpy` and `strlcat` do.
Only what the C functions return is modelled; the in-place edits of `strtok`
appear as the list of the tokens it hands out.
-/

namespace Ngircd.Lib

variable {d c : Char} {n : Nat}

/-- The characters of a C string before its terminator. -/
abbrev Str := List Char

instance : Coe String Str := ⟨String.toList⟩

/-- What holds of every character of a string is decided by walking the string, and never by
walking all the characters there are. -/
instance (priority := high) decidableForallMem (s : Str) (P : Char → Prop) [DecidablePred P] :
    Decidable (∀ c ∈ s, P c) :=
  List.decidableBAll P s

@[inherit_doc decidableForallMem]
instance (priority := high) decidableExistsMem (s : Str) (P : Char → Prop) [DecidablePred P] :
    Decidable (∃ c ∈ s, P c) :=
  List.decidableBEx P s

@[inherit_doc decidableForallMem]
instance (priority := high) decidableForallLast (last : Option Char) (P : Char → Prop)
    [DecidablePred P] : Decidable (∀ c ∈ last, P c) :=
  Option.decidableForallMem last

/-- `tolower` on every character. -/
def lowerStr (s : Str) : Str := s.map Char.toLower

/-- `strcasecmp(a, b) == 0`. -/
def strcaseEq (a b : Str) : Bool := lowerStr a == lowerStr b

@[simp] theorem strcaseEq_refl (a : Str) : strcaseEq a a = true := by
  simp [strcaseEq]

theorem strcaseEq_comm (a b : Str) : strcaseEq a b = strcaseEq b a := by
  simp only [strcaseEq, Bool.beq_comm]

theorem strcaseEq_trans {a b d : Str} (hab : strcaseEq a b = true) (hbd : strcaseEq b d = true) :
    strcaseEq a d = true := by
  simp only [strcaseEq, beq_iff_eq] at hab hbd ⊢
  exact hab.trans hbd

theorem length_of_strcaseEq {a b : Str} (h : strcaseEq a b = true) : b.length = a.length := by
  rw [strcaseEq, beq_iff_eq] at h
  have hlength := congrArg List.length h
  simpa [lowerStr] using hlength.symm

/-- A character that is no letter is the lower case of itself only. -/
theorem eq_of_toLower {x y : Char} (hy : y.toNat < 97) (h : x.toLower = y) : x = y := by
  by_contra hne
  unfold Char.toLower at h
  split at h
  · rename_i hupper
    have hval := congrArg Char.toNat h
    have hlow := UInt32.le_iff_toNat_le.mp hupper.1
    have hhigh := UInt32.le_iff_toNat_le.mp hupper.2
    have ha : ('a'.val - 'A'.val).toNat = 32 := rfl
    have hA : 'A'.val.toNat = 65 := rfl
    have hZ : 'Z'.val.toNat = 90 := rfl
    simp only [Char.toNat, UInt32.toNat_add, ha] at hval hy
    omega
  · exact hne h

/-- `strlcpy` into a buffer of `size` bytes. -/
def strlcpy (src : Str) (size : Nat) : Str := src.take (size - 1)

/-- `strlcat` onto `dst` in a buffer of `size` bytes. -/
def strlcat (dst src : Str) (size : Nat) : Str :=
  if dst.length < size - 1 then dst ++ src.take (size - 1 - dst.length) else dst

/-- `isspace` of the C locale. -/
def isSpace (c : Char) : Bool :=
  c == ' ' || c == '\t' || c == '\n' || c == '\r' || c.toNat == 11 || c.toNat == 12

/-- The value of the leading decimal digits of a string. -/
def digitsVal (acc : Nat) : Str → Nat
  | [] => acc
  | c :: cs => if c.isDigit then digitsVal (acc * 10 + (c.toNat - '0'.toNat)) cs else acc

/-- `atoi` and `atol`: white space, an optional sign, then digits.  The result
is unbounded; the C functions are undefined where it does not fit. -/
def atoi (s : Str) : Int :=
  match s.dropWhile isSpace with
  | '-' :: cs => -(digitsVal 0 cs : Int)
  | '+' :: cs => digitsVal 0 cs
  | cs => digitsVal 0 cs

/-- Conversion to `unsigned long`, which has 32 bits on Windows. -/
def toULong (i : Int) : Nat := (i % 2 ^ 32).toNat

/-- Conversion to `long`, which has 32 bits there too. -/
def toLong (i : Int) : Int := i.bmod (2 ^ 32)

theorem toLong_of_lt {i : Int} (h0 : 0 ≤ i) (h : i < 2 ^ 31) : toLong i = i :=
  Int.bmod_eq_of_le (by omega) (by omega)

/-- Decimal rendering of `%lu`. -/
def natStr (n : Nat) : Str := Nat.toDigits 10 n

/-- Decimal rendering of `%d` and `%ld`. -/
def intStr (i : Int) : Str :=
  if i < 0 then '-' :: natStr i.natAbs else natStr i.natAbs

/-- Hexadecimal rendering of `%x`. -/
def hexStr (n : Nat) : Str := Nat.toDigits 16 n

/-- The tokens `strtok` and `strtok_r` hand out: maximal non-empty runs of
characters outside the delimiters. -/
def tokensFrom (isDelim : Char → Bool) (cur : Str) : Str → List Str
  | [] => if cur.isEmpty then [] else [cur.reverse]
  | c :: cs =>
    if isDelim c then
      if cur.isEmpty then tokensFrom isDelim [] cs
      else cur.reverse :: tokensFrom isDelim [] cs
    else tokensFrom isDelim (c :: cur) cs

/-- All tokens of `s` for the delimiters of `delims`. -/
def strtok (s : Str) (delims : Str) : List Str :=
  tokensFrom (fun c => delims.contains c) [] s

/-- The pieces between single delimiters, empty ones included (`strsep`). -/
def splitOn (delim : Char) (cur : Str) : Str → List Str
  | [] => [cur.reverse]
  | c :: cs => if c == delim then cur.reverse :: splitOn delim [] cs else splitOn delim (c :: cur) cs

/-- The conversions of `printf` the callers use, each consuming one rendered
argument.  A conversion without an argument prints nothing. -/
def format : Str → List Str → Str
  | [], _ => []
  | '%' :: '%' :: cs, args => '%' :: format cs args
  | '%' :: 's' :: cs, args => args.headD [] ++ format cs args.tail
  | '%' :: 'd' :: cs, args => args.headD [] ++ format cs args.tail
  | '%' :: 'u' :: cs, args => args.headD [] ++ format cs args.tail
  | '%' :: 'c' :: cs, args => args.headD [] ++ format cs args.tail
  | '%' :: 'x' :: cs, args => args.headD [] ++ format cs args.tail
  | '%' :: 'l' :: 'd' :: cs, args => args.headD [] ++ format cs args.tail
  | '%' :: 'l' :: 'u' :: cs, args => args.headD [] ++ format cs args.tail
  | c :: cs, args => c :: format cs args

/-- `vsnprintf` into a buffer of `size` bytes. -/
def snprintf (size : Nat) (fmt : Str) (args : List Str) : Str :=
  (format fmt args).take (size - 1)

/-- The length of a conversion of `format` that consumes an argument, at the front of the text
behind a percent sign. -/
def argConversion : Str → Option Nat
  | 's' :: _ | 'd' :: _ | 'u' :: _ | 'c' :: _ | 'x' :: _ => some 1
  | 'l' :: 'd' :: _ | 'l' :: 'u' :: _ => some 2
  | _ => none

/-- `format` for texts that are not known to be formats.  What other conversions there are is
a matter of the C library: `other` says of the text behind a percent sign what is printed
instead and how many characters it stands for.  The first characters are skipped. -/
def formatWith (other : Str → Option (Str × Nat)) : Nat → Str → List Str → Str
  | _, [], _ => []
  | k + 1, _ :: cs, args => formatWith other k cs args
  | 0, c :: cs, args =>
    if c ≠ '%' then c :: formatWith other 0 cs args
    else if cs.head? = some '%' then '%' :: formatWith other 1 cs args
    else match argConversion cs with
      | some k => args.headD [] ++ formatWith other k cs args.tail
      | none => match other cs with
        | some (out, k) => out ++ formatWith other k cs args
        | none => c :: formatWith other 0 cs args

/-- The text behind a percent sign makes a conversion of it. -/
def converts (other : Str → Option (Str × Nat)) (cs : Str) : Bool :=
  cs.head? == some '%' || (argConversion cs).isSome || (other cs).isSome

section FormatWith

variable {other : Str → Option (Str × Nat)} {s : Str}

/-- A text without conversions is printed as it is. -/
theorem formatWith_of_literal (h : ∀ rest, ('%' :: rest) <:+ s → converts other rest = false)
    (args : List Str) : formatWith other 0 s args = s := by
  induction s with
  | nil => rfl
  | cons c cs ih =>
    have hrest := ih fun rest hrest => h rest (hrest.trans (List.suffix_cons c cs))
    unfold formatWith
    split_ifs with hc hpercent
    · rw [hrest]
    · obtain rfl : c = '%' := not_not.mp hc
      have hnone := h cs (List.suffix_refl _)
      simp [converts, hpercent] at hnone
    · obtain rfl : c = '%' := not_not.mp hc
      have hnone := h cs (List.suffix_refl _)
      simp only [converts, Bool.or_eq_false_iff, Option.isSome_eq_false_iff,
        Option.isNone_iff_eq_none] at hnone
      simp only [hnone.1.2, hnone.2, hrest]

/-- Percent signs are only lost, if the other conversions print none. -/
theorem count_formatWith_le (h : ∀ cs out k, other cs = some (out, k) → '%' ∉ out) (k : Nat)
    (s : Str) : (formatWith other k s []).count '%' ≤ s.count '%' := by
  induction s generalizing k with
  | nil => simp [formatWith]
  | cons c cs ih =>
    have hcons : cs.count '%' ≤ (c :: cs).count '%' := List.count_le_count_cons
    cases k with
    | succ k => exact Nat.le_trans (ih k) hcons
    | zero =>
      unfold formatWith
      split_ifs with hc hpercent
      · rw [List.count_cons, List.count_cons]
        exact Nat.add_le_add_right (ih 0) _
      · obtain rfl : c = '%' := not_not.mp hc
        rw [List.count_cons_self, List.count_cons_self]
        exact Nat.succ_le_succ (ih 1)
      · cases argConversion cs with
        | some k => exact Nat.le_trans (ih k) hcons
        | none =>
          cases hother : other cs with
          | some p =>
            have hout := List.count_eq_zero_of_not_mem (h cs p.1 p.2 hother)
            simp only [List.count_append, hout, Nat.zero_add]
            exact Nat.le_trans (ih p.2) hcons
          | none =>
            simp only [List.count_cons]
            exact Nat.add_le_add_right (ih 0) _

/-- A conversion loses a percent sign. -/
theorem count_formatWith_lt (h : ∀ cs out k, other cs = some (out, k) → '%' ∉ out) {rest : Str}
    (hrest : ('%' :: rest) <:+ s) (hconverts : converts other rest = true) :
    (formatWith other 0 s []).count '%' < s.count '%' := by
  induction s with
  | nil => simp at hrest
  | cons c cs ih =>
    -- a conversion that starts here makes the rest lose nothing more than it may
    have hone (k : Nat) : (formatWith other k cs []).count '%' < ('%' :: cs).count '%' := by
      rw [List.count_cons_self]
      exact Nat.lt_succ_of_le (count_formatWith_le h k cs)
    have hbehind (hin : ('%' :: rest) <:+ cs) :
        (c :: formatWith other 0 cs []).count '%' < (c :: cs).count '%' := by
      rw [List.count_cons, List.count_cons]
      exact Nat.add_lt_add_right (ih hin) _
    unfold formatWith
    split_ifs with hc hpercent
    · rcases List.suffix_cons_iff.mp hrest with heq | hin
      · exact absurd (List.cons.inj heq).1.symm hc
      · exact hbehind hin
    · obtain rfl : c = '%' := not_not.mp hc
      obtain ⟨tail, rfl⟩ : ∃ tail, cs = '%' :: tail := by
        cases cs with
        | nil => simp at hpercent
        | cons x tail => exact ⟨tail, by simpa using hpercent⟩
      have hle := count_formatWith_le h 0 tail
      simp only [formatWith, List.count_cons_self]
      omega
    · obtain rfl : c = '%' := not_not.mp hc
      cases harg : argConversion cs with
      | some k => exact hone k
      | none =>
        cases hother : other cs with
        | some p =>
          have hout := List.count_eq_zero_of_not_mem (h cs p.1 p.2 hother)
          simp only [List.count_append, hout, Nat.zero_add]
          exact hone p.2
        | none =>
          rcases List.suffix_cons_iff.mp hrest with heq | hin
          · obtain rfl := (List.cons.inj heq).2
            simp [converts, harg, hother, hpercent] at hconverts
          · exact hbehind hin

end FormatWith

/-- Characters that are no delimiters are collected. -/
theorem tokensFrom_word (isDelim : Char → Bool) (cur : Str) {s : Str}
    (h : ∀ c ∈ s, isDelim c = false) (rest : Str) :
    tokensFrom isDelim cur (s ++ rest) = tokensFrom isDelim (s.reverse ++ cur) rest := by
  induction s generalizing cur with
  | nil => rfl
  | cons c s ih =>
    rw [List.cons_append, tokensFrom, h c (.head _), if_neg Bool.false_ne_true,
      ih _ fun d hd => h d (.tail _ hd)]
    simp

section

variable {s delims : Str} (hne : s ≠ []) (h : ∀ c ∈ s, delims.contains c = false)
include hne h

theorem strtok_single :
    strtok s delims = [s] := by
  have hword := tokensFrom_word (fun c => delims.contains c) [] h []
  rw [List.append_nil] at hword
  rw [strtok, hword]
  simp [tokensFrom, hne]

/-- A word that is followed by a delimiter is the first token. -/
theorem strtok_cons (hd : delims.contains d = true) (rest : Str) :
    strtok (s ++ d :: rest) delims = s :: strtok rest delims := by
  rw [strtok, tokensFrom_word _ [] h, tokensFrom, if_pos hd, List.append_nil, if_neg (by simp [hne]),
    List.reverse_reverse]
  rfl

end

/-- Words with a delimiter between them are the tokens. -/
theorem strtok_intercalate {words : List Str} (h : ∀ e ∈ words, e ≠ [] ∧ d ∉ e) :
    strtok ([d].intercalate words) [d] = words := by
  have hplain {e : Str} (he : d ∉ e) : ∀ c ∈ e, [d].contains c = false := by
    intro c hc
    have hne : c ≠ d := fun heq => he (heq ▸ hc)
    simp [hne]
  induction words with
  | nil => rfl
  | cons e rest ih =>
    obtain ⟨hne, he⟩ := h e (.head _)
    cases rest with
    | nil => rw [List.intercalate_singleton, strtok_single hne (hplain he)]
    | cons f rest =>
      rw [List.intercalate_cons_cons, List.append_assoc, List.singleton_append,
        strtok_cons hne (hplain he) (by simp), ih fun x hx => h x (.tail e hx)]

/-- Tokens and the delimiters behind them are not longer than the text. -/
theorem sum_length_strtok_le (s delims : Str) :
    ((strtok s delims).map (·.length + 1)).sum ≤ s.length + 1 := by
  have hfrom (isDelim : Char → Bool) (cur : Str) :
      ((tokensFrom isDelim cur s).map (·.length + 1)).sum ≤ cur.length + s.length + 1 := by
    induction s generalizing cur with
    | nil =>
      unfold tokensFrom
      split
      · simp
      · simp
    | cons c s ih =>
      rw [List.length_cons]
      unfold tokensFrom
      split
      · split
        · have hrest := ih []
          rw [List.length_nil] at hrest
          omega
        · have hrest := ih []
          simp only [List.map_cons, List.sum_cons, List.length_reverse, List.length_nil] at hrest ⊢
          omega
      · have hrest := ih (c :: cur)
        rw [List.length_cons] at hrest
        omega
  have hle := hfrom (fun c => delims.contains c) []
  rw [List.length_nil, Nat.zero_add] at hle
  exact hle

/-! ## Bounded copies -/

/-- What is added in two steps can be added in one. -/
theorem strlcat_strlcat (s t u : Str) (n : Nat) :
    strlcat (strlcat s t n) u n = strlcat s (t ++ u) n := by
  unfold strlcat
  by_cases hs : s.length < n - 1
  · simp only [if_pos hs, List.length_append, List.length_take]
    split_ifs with hroom
    · rw [List.take_append, List.append_assoc, List.take_of_length_le (l := t) (by omega)]
      congr 3
      omega
    · rw [List.take_append_of_le_length (by omega)]
  · simp only [if_neg hs]

theorem strlcat_of_room {s t : Str} (h : s.length + t.length < n) : strlcat s t n = s ++ t := by
  unfold strlcat
  split
  · rw [List.take_of_length_le (by omega)]
  · rw [List.length_eq_zero_iff.mp (show t.length = 0 by omega), List.append_nil]

/-! ## Numbers -/

theorem isDigit_toNat (h : c.isDigit = true) : 48 ≤ c.toNat ∧ c.toNat ≤ 57 := by
  simp only [Char.isDigit, Bool.and_eq_true, decide_eq_true_eq] at h
  exact ⟨UInt32.le_iff_toNat_le.mp h.1, UInt32.le_iff_toNat_le.mp h.2⟩

theorem isSpace_of_isDigit (h : c.isDigit = true) : isSpace c = false := by
  have hc := isDigit_toNat h
  have hne (d : Char) (hd : d.toNat < 48) : c ≠ d := by
    rintro rfl
    omega
  simp only [isSpace, Bool.or_eq_false_iff, beq_eq_false_iff_ne, ne_eq]
  exact ⟨⟨⟨⟨⟨hne ' ' (by decide), hne '\t' (by decide)⟩, hne '\n' (by decide)⟩,
    hne '\r' (by decide)⟩, by omega⟩, by omega⟩

theorem digitsVal_eq_ofDigitChars (acc : Nat) {cs : Str} (h : ∀ c ∈ cs, c.isDigit = true) :
    digitsVal acc cs = Nat.ofDigitChars 10 cs acc := by
  induction cs generalizing acc with
  | nil => simp [digitsVal]
  | cons c cs ih =>
    have hc := h c (.head _)
    have hcs : ∀ d ∈ cs, d.isDigit = true := fun d hd => h d (.tail _ hd)
    rw [digitsVal, if_pos hc, ih _ hcs, Nat.ofDigitChars_cons, Nat.mul_comm]

theorem isDigit_of_mem_natStr (h : c ∈ natStr n) : c.isDigit = true :=
  Nat.isDigit_of_mem_toDigits (by simp) (by simp) h

theorem natStr_ne_nil (n : Nat) : natStr n ≠ [] := Nat.toDigits_ne_nil

/-- Reading a number that has been printed. -/
@[simp] theorem atoi_natStr (n : Nat) : atoi (natStr n) = n := by
  have hval : digitsVal 0 (natStr n) = n := by
    rw [digitsVal_eq_ofDigitChars 0 fun c hc => isDigit_of_mem_natStr hc]
    exact Nat.ofDigitChars_ten_toDigits
  obtain ⟨c, cs, hcs⟩ := List.exists_cons_of_ne_nil (natStr_ne_nil n)
  have hdigit : c.isDigit = true := isDigit_of_mem_natStr (n := n) (by simp [hcs])
  have hskip : (natStr n).dropWhile isSpace = natStr n := by
    simp [hcs, isSpace_of_isDigit hdigit]
  have hsign (d : Char) (hd : d.toNat < 48) : c ≠ d := by
    rintro rfl
    have := (isDigit_toNat hdigit).1
    omega
  unfold atoi
  rw [hskip]
  split
  · rename_i rest hrest
    rw [hcs] at hrest
    exact absurd (List.cons.inj hrest).1 (hsign '-' (by decide))
  · rename_i rest hrest
    rw [hcs] at hrest
    exact absurd (List.cons.inj hrest).1 (hsign '+' (by decide))
  · rw [hval]

end Ngircd.Lib
