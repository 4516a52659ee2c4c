import Mathlib.Data.UInt
import Ngircd.Lib.DynArray

/-!
# The array library

The functions of `array.c` over the dynamic arrays of the library: what they answer, and the
array they leave.  `granted` tells whether `realloc` finds memory.
-/

namespace Ngircd

open Lib

/-- An array of bytes. -/
abbrev Bytes := DynArray UInt8

/-- `array_trunc`. -/
def arrayTrunc (a : Bytes) : Bytes := { a with used := 0, used_le := Nat.zero_le _ }

/-- `array_catb`. -/
def arrayCatb (granted : Bool) (dest : Bytes) (src : List UInt8) : Bool × Bytes :=
  ((dest.catb granted src).isSome, (dest.catb granted src).getD dest)

/-- `array_copyb`; `array_copys` is the same for the characters of a string. -/
def arrayCopyb (granted : Bool) (dest : Bytes) (src : List UInt8) : Bool × Bytes :=
  arrayCatb granted (arrayTrunc dest) src

/-- `array_copy`. -/
def arrayCopy (granted : Bool) (dest src : Bytes) : Bool × Bytes :=
  if src.mem.isEmpty then (false, dest) else arrayCopyb granted dest src.contents

/-- `array_cat`. -/
def arrayCat (granted : Bool) (dest src : Bytes) : Bool × Bytes :=
  if src.mem.isEmpty then (false, dest) else arrayCatb granted dest src.contents

/-- `array_cat0_temporary`. -/
def arrayCat0Temporary (granted : Bool) (a : Bytes) : Bool × Bytes :=
  match a.alloc granted 1 a.used with
  | none => (false, a)
  | some b =>
    (true, { b with
      mem := b.mem.set a.used 0, used_le := by rw [List.length_set]; exact b.used_le })

/-- `array_length`. -/
def arrayLength (a : Bytes) (membersize : Nat) : Nat :=
  if a.mem.isEmpty then 0 else if membersize ≠ 0 then a.used / membersize else 0

/-- `array_get`: where the element starts. -/
def arrayGet (a : Bytes) (membersize pos : Nat) : Option Nat :=
  let posplus1 := (pos + 1) % sizeBound
  if posplus1 = 0 ∨ a.mem.isEmpty then none
  else
    match safemult posplus1 membersize with
    | none => none
    | some totalsize => if a.mem.length < totalsize then none else some (pos * membersize)

/-! ## Byte sequences -/

/-- Calls on one array. -/
inductive ArrayCall where
  | copyb (granted : Bool) (src : List UInt8)
  | catb (granted : Bool) (src : List UInt8)
  | cat (granted : Bool) (src : Bytes)
  | cat0 (granted : Bool)
  | trunc
  | moveleft (membersize pos : Nat)
  | free

namespace ArrayCall

/-- What a call answers, and the array after it. -/
def run : ArrayCall → Bytes → Bool × Bytes
  | copyb granted src, a => arrayCopyb granted a src
  | catb granted src, a => arrayCatb granted a src
  | cat granted src, a => arrayCat granted a src
  | cat0 granted, a => arrayCatb granted a [0]
  | trunc, a => (true, arrayTrunc a)
  | moveleft membersize pos, a => (true, a.moveleft membersize pos)
  | free, _ => (true, .empty)

/-- The bytes that a call appends. -/
def added : ArrayCall → List UInt8
  | copyb _ src | catb _ src => src
  | cat _ src => src.contents
  | cat0 _ => [0]
  | trunc | moveleft .. | free => []

/-- What a call that has answered `ok` means for a sequence of bytes. -/
def meaning (ok : Bool) (s : List UInt8) : ArrayCall → List UInt8
  | trunc | free => []
  | moveleft membersize pos => s.drop (membersize * pos)
  | call@(copyb ..) => if ok then call.added else []
  | call => if ok then s ++ call.added else s

end ArrayCall

/-- An array, the sequence it stands for, and whether a non-empty append has succeeded since it
was freed last. -/
structure ArrayRun where
  array : Bytes := {}
  bytes : List UInt8 := []
  appended : Bool := false

/-- A call on an array that stands for a sequence. -/
def ArrayRun.call (r : ArrayRun) (c : ArrayCall) : ArrayRun :=
  let (ok, array) := c.run r.array
  { array, bytes := c.meaning ok r.bytes
    appended := (!(c matches .free) && r.appended) || (ok && !c.added.isEmpty) }

/-- The array holds the sequence, with a byte to spare once something has been appended. -/
structure ArrayRun.Sound (r : ArrayRun) : Prop where
  contents : r.array.contents = r.bytes
  room : r.appended = true → r.array.used < r.array.mem.length
  size : r.array.mem.length < sizeBound

theorem arrayCatb_spec (granted : Bool) {a : Bytes} (src : List UInt8)
    (hsize : a.mem.length < sizeBound) :
    (arrayCatb granted a src).2.contents =
        (if (arrayCatb granted a src).1 then a.contents ++ src else a.contents) ∧
      (a.used < a.mem.length ∨ (arrayCatb granted a src).1 = true ∧ src ≠ [] →
        (arrayCatb granted a src).2.used < (arrayCatb granted a src).2.mem.length) ∧
      (arrayCatb granted a src).2.mem.length < sizeBound := by
  unfold arrayCatb
  cases hcat : a.catb granted src with
  | none => exact ⟨rfl, by simp, hsize⟩
  | some b =>
    obtain ⟨hcontents, hroom, hlength⟩ := DynArray.catb_spec hcat
    refine ⟨hcontents, fun h => ?_, hlength hsize⟩
    by_cases hsrc : src = []
    · obtain rfl : a = b := by simpa [DynArray.catb, hsrc] using hcat
      exact h.resolve_right fun h => h.2 hsrc
    · exact hroom hsrc

namespace ArrayRun.Sound

variable {r : ArrayRun}

/-- An append to an array that holds `s`, which has room if the array before had. -/
theorem append (h : r.Sound) {a : Bytes} {s : List UInt8} (hs : a.contents = s)
    (hroom : r.array.used < r.array.mem.length → a.used < a.mem.length)
    (hsize : a.mem.length < sizeBound) (granted : Bool) (src : List UInt8) :
    Sound
      { array := (arrayCatb granted a src).2
        bytes := if (arrayCatb granted a src).1 then s ++ src else s
        appended := r.appended || ((arrayCatb granted a src).1 && !src.isEmpty) } := by
  obtain ⟨hcontents, hspare, hlength⟩ := arrayCatb_spec granted src hsize
  refine ⟨hs ▸ hcontents, fun happended => hspare ?_, hlength⟩
  rcases Bool.or_eq_true_iff.mp happended with hbefore | hnow
  · exact .inl (hroom (h.room hbefore))
  · exact .inr (by simpa using hnow)

theorem call (h : r.Sound) (c : ArrayCall) : (r.call c).Sound := by
  have hused := r.array.used_le
  cases c with
  | catb granted src => exact h.append h.contents id h.size granted src
  | cat0 granted => exact h.append h.contents id h.size granted [0]
  | cat granted src =>
    by_cases hsrc : src.mem.isEmpty = true
    · have hrun : (ArrayCall.cat granted src).run r.array = (false, r.array) := if_pos hsrc
      simpa [ArrayRun.call, hrun, ArrayCall.meaning] using h
    · have hrun : (ArrayCall.cat granted src).run r.array =
          arrayCatb granted r.array src.contents := if_neg hsrc
      have happend := h.append h.contents id h.size granted src.contents
      simpa [ArrayRun.call, hrun, ArrayCall.meaning, ArrayCall.added] using happend
  | copyb granted src =>
    exact h.append (a := arrayTrunc r.array) rfl (Nat.zero_lt_of_lt ·) h.size granted src
  | trunc =>
    refine ⟨rfl, fun happended => ?_, h.size⟩
    exact Nat.zero_lt_of_lt (h.room (by simpa [ArrayRun.call, ArrayCall.added] using happended))
  | moveleft membersize pos =>
    have hmem := r.array.length_mem_moveleft membersize pos
    have hcontents := DynArray.contents_moveleft (Nat.lt_of_le_of_lt hused h.size) membersize pos
    have hshorter : (r.array.moveleft membersize pos).used ≤ r.array.used := by
      rw [← DynArray.length_contents, hcontents, List.length_drop, DynArray.length_contents]
      exact Nat.sub_le _ _
    refine ⟨hcontents.trans (congrArg _ h.contents), fun happended => ?_, hmem ▸ h.size⟩
    have hroom := h.room (by simpa [ArrayRun.call, ArrayCall.added] using happended)
    exact Nat.lt_of_le_of_lt hshorter (hmem ▸ hroom)
  | free => exact ⟨rfl, nofun, show 0 < sizeBound by decide⟩

theorem calls (h : r.Sound) (calls : List ArrayCall) : (calls.foldl ArrayRun.call r).Sound := by
  induction calls generalizing r with
  | nil => exact h
  | cons c calls ih => exact ih (h.call c)

end ArrayRun.Sound

/-- The array implements a sequence of bytes, whatever is called. -/
theorem arrayRun_implements (calls : List ArrayCall) :
    let r := calls.foldl ArrayRun.call {}
    r.array.used ≤ r.array.mem.length ∧ r.array.contents = r.bytes ∧
      (r.appended = true → ∀ granted, (arrayCat0Temporary granted r.array).1 = true ∧
        (arrayCat0Temporary granted r.array).2.contents = r.bytes) := by
  intro r
  have hsound : r.Sound :=
    ArrayRun.Sound.calls (r := {}) ⟨rfl, nofun, show 0 < sizeBound by decide⟩ calls
  refine ⟨r.array.used_le, hsound.contents, fun happended granted => ?_⟩
  have hroom := hsound.room happended
  have hsize := hsound.size
  obtain ⟨b, hb⟩ : ∃ b, r.array.alloc granted 1 r.array.used = some b := by
    rw [← Option.isSome_iff_exists, DynArray.alloc_isSome (by omega)]
    exact ⟨by omega, .inl hroom⟩
  obtain ⟨⟨-, rfl⟩ | ⟨hfull, -⟩, -⟩ := DynArray.alloc_spec (by omega) hb
  · simp only [arrayCat0Temporary, hb, true_and]
    rw [← hsound.contents]
    exact List.take_set_of_le (Nat.le_refl _)
  · omega

/-! ## The promises of the header -/

/-- The bytes fit into the memory of the array, or there is memory for them. -/
def CopyFits (granted : Bool) (dest : Bytes) (src : List UInt8) : Prop :=
  src = [] ∨ src.length + 1 < sizeBound ∧ (src.length < dest.mem.length ∨ granted = true)

theorem arrayCopyb_keeps_iff (granted : Bool) (dest : Bytes) (src : List UInt8) :
    ((arrayCopyb granted dest src).1 = false → (arrayCopyb granted dest src).2 = dest) ↔
      dest.used = 0 ∨ CopyFits granted dest src := by
  have hsome : (arrayCopyb granted dest src).1 = true ↔ CopyFits granted dest src := by
    refine (DynArray.catb_isSome : ((arrayTrunc dest).catb granted src).isSome = true ↔ _).trans ?_
    simp [CopyFits, arrayTrunc]
  rw [← hsome]
  cases hok : (arrayCopyb granted dest src).1 with
  | true => simp
  | false =>
    have hleft : (arrayCopyb granted dest src).2 = arrayTrunc dest := by
      have hnone : (arrayTrunc dest).catb granted src = none := by
        simpa [arrayCopyb, arrayCatb] using hok
      simp [arrayCopyb, arrayCatb, hnone]
    rw [hleft]
    simp only [forall_const, Bool.false_eq_true, or_false]
    constructor
    · intro h
      rw [← h]
      rfl
    · intro h
      cases dest
      cases h
      rfl

section

variable {a : Bytes} {membersize pos : Nat} (hsize : a.mem.length < sizeBound)
  (hpos : pos < sizeBound) (hm : 0 < membersize)
include hsize hpos hm

theorem arrayGet_none_iff :
    arrayGet a membersize pos = none ↔ a.mem.length < (pos + 1) * membersize := by
  have hle : pos + 1 ≤ (pos + 1) * membersize := Nat.le_mul_of_pos_right _ hm
  unfold arrayGet
  dsimp only
  rw [safemult_eq]
  by_cases hwrap : pos + 1 < sizeBound
  · rw [Nat.mod_eq_of_lt hwrap]
    generalize (pos + 1) * membersize = total at hle ⊢
    by_cases hempty : a.mem = []
    · simp [hempty]
      omega
    · have hneither : ¬(pos + 1 = 0 ∨ a.mem.isEmpty = true) := by simpa using hempty
      rw [if_neg hneither]
      split_ifs with hfits <;> simp
      omega
  · have hend : pos + 1 = sizeBound := by omega
    rw [hend] at hle ⊢
    rw [Nat.mod_self, if_pos (.inl rfl)]
    exact iff_of_true rfl (Nat.lt_of_lt_of_le hsize hle)

/-- The promises of the header hold exactly in these cases: a copy that fails keeps its
destination if that was empty or there is no reason to fail; `array_get` knows the elements if
the one in question is not in the part of the memory that is not in use; and
`array_cat0_temporary` keeps the size if there is room or no memory at all. -/
theorem array_promises_iff (granted : Bool) (src : List UInt8) (b : Bytes) :
    (((arrayCopyb granted a src).1 = false → (arrayCopyb granted a src).2 = a) ↔
        a.used = 0 ∨ CopyFits granted a src) ∧
      (((arrayCopy granted a b).1 = false → (arrayCopy granted a b).2 = a) ↔
        a.used = 0 ∨ b.mem = [] ∨ CopyFits granted a b.contents) ∧
      ((arrayGet a membersize pos = none ↔ a.mem = [] ∨ arrayLength a membersize ≤ pos) ↔
        ¬(a.used < (pos + 1) * membersize ∧ (pos + 1) * membersize ≤ a.mem.length)) ∧
      ((arrayCat0Temporary granted a).2.used = a.used ↔
        a.used < a.mem.length ∨ granted = false ∨ a.used + 1 = sizeBound) := by
  have hused := a.used_le
  refine ⟨arrayCopyb_keeps_iff granted a src, ?_, ?_, ?_⟩
  · unfold arrayCopy
    split_ifs with hb
    · simp [List.isEmpty_iff.mp hb]
    · rw [arrayCopyb_keeps_iff]
      have hne : b.mem ≠ [] := by simpa using hb
      simp [hne]
  · have hle : pos + 1 ≤ (pos + 1) * membersize := Nat.le_mul_of_pos_right _ hm
    have hlength : arrayLength a membersize ≤ pos ↔ a.used < (pos + 1) * membersize := by
      unfold arrayLength
      rw [if_pos (Nat.ne_of_gt hm), ← Nat.div_lt_iff_lt_mul hm]
      split_ifs with hempty
      · have hnone : a.mem.length = 0 := by simpa using hempty
        have hzero : a.used = 0 := by omega
        simp [hzero]
      · exact Nat.lt_succ_iff.symm
    rw [arrayGet_none_iff hsize hpos hm, hlength, ← List.length_eq_zero_iff]
    omega
  · have hbound : a.used < sizeBound := Nat.lt_of_le_of_lt hused hsize
    have hsome : (a.alloc granted 1 a.used).isSome = true ↔ _ := DynArray.alloc_isSome hbound
    unfold arrayCat0Temporary
    cases halloc : a.alloc granted 1 a.used with
    | none =>
      rw [halloc] at hsome
      have hfails := fun h => Bool.false_ne_true (hsome.mpr h)
      refine iff_of_true rfl ?_
      by_contra hnot
      simp only [not_or, Bool.not_eq_false] at hnot
      exact hfails ⟨by omega, .inr hnot.2.1⟩
    | some c =>
      obtain ⟨hgrow, -⟩ := DynArray.alloc_spec hbound halloc
      rw [halloc] at hsome
      obtain ⟨hwrap, hmemory⟩ := hsome.mp rfl
      rcases hgrow with ⟨hroom, rfl⟩ | ⟨hfull, hgrown, -⟩
      · exact iff_of_true rfl (.inl hroom)
      · refine iff_of_false (by dsimp only; omega) ?_
        have hgranted := hmemory.resolve_left (Nat.not_lt.mpr hfull)
        simp only [hgranted, Bool.true_eq_false, false_or]
        omega

end

/-- An array of two bytes. -/
def twoBytes : Bytes := (ArrayRun.call ⟨.empty, [], false⟩ (.catb true [1, 2])).array

theorem array_promises_two : (arrayCat0Temporary true twoBytes).2.used = twoBytes.used ↔
    twoBytes.used < twoBytes.mem.length ∨ true = false ∨ twoBytes.used + 1 = sizeBound :=
  (array_promises_iff (a := twoBytes) (by decide +kernel) (by decide : 0 < sizeBound) Nat.one_pos
    true [1] twoBytes).2.2.2

/-- The header promises too much: after one append a copy that fails empties the array, and
`array_get` finds an element behind the last one; and `array_cat0_temporary` changes the size of
an array without memory. -/
theorem array_promises_broken :
    let a := (ArrayRun.call {} (.catb true [1, 2])).array
    (arrayCopyb false a [1, 2, 3]).1 = false ∧ (arrayCopyb false a [1, 2, 3]).2.used = 0 ∧
      a.used = 2 ∧ arrayLength a 1 = 2 ∧ arrayGet a 1 2 = some 2 ∧
      (arrayCat0Temporary true {}).2.used = 1 := by
  decide +kernel

end Ngircd
