import Mathlib.Algebra.Notation.Defs
import Mathlib.Algebra.Ring.Int.Defs
import Mathlib.Algebra.Ring.Nat
import Mathlib.Data.List.Basic

/-!
# Dynamic arrays

An array that grows on demand, as C programs write it: memory that is allocated, the part of
it that is in use, and sizes that wrap around.  Growing may fail.  What counts is the contents,
the cells in use; `contents_catb` and `contents_moveleft` say what the operations do to them.
-/

namespace Ngircd.Lib

variable {b pos : Nat} {granted : Bool}

/-- The number of values of `size_t`. -/
def sizeBound : Nat := 2 ^ 64

/-- The product of two sizes, unless it wraps around. -/
def safemult (a b : Nat) : Option Nat :=
  let product := a * b % sizeBound
  if b ≠ 0 ∧ product / b ≠ a then none else some product

theorem safemult_eq (a b : Nat) :
    safemult a b = if a * b < sizeBound then some (a * b) else none := by
  unfold safemult
  rcases Nat.eq_zero_or_pos b with rfl | hb
  · simp [sizeBound]
  dsimp only
  split_ifs with hwrap hfits hfits
  · rw [Nat.mod_eq_of_lt hfits, Nat.mul_div_cancel a hb] at hwrap
    exact absurd rfl hwrap.2
  · rfl
  · rw [Nat.mod_eq_of_lt hfits]
  · refine absurd ⟨Nat.ne_of_gt hb, fun hdiv => ?_⟩ hwrap
    have hle := Nat.div_mul_le_self (a * b % sizeBound) b
    rw [hdiv] at hle
    have hlt : a * b % sizeBound < sizeBound := Nat.mod_lt _ (by decide)
    omega

theorem safemult_one (h : b < sizeBound) : safemult 1 b = some b := by
  simp [safemult_eq, h]

/-- Memory, and how much of it is in use. -/
structure DynArray (α : Type) where
  mem : List α := []
  used : Nat := 0
  used_le : used ≤ mem.length := by decide

namespace DynArray

variable {α : Type}

def empty : DynArray α := ⟨[], 0, Nat.zero_le _⟩

/-- The cells in use. -/
def contents (a : DynArray α) : List α := a.mem.take a.used

@[simp] theorem length_contents (a : DynArray α) : a.contents.length = a.used :=
  List.length_take_of_le a.used_le

section

variable [Zero α]

/-- Make room for the member `pos` of the given size; `granted` tells whether there is memory.
New memory is cleared and counts as used. -/
def alloc (granted : Bool) (a : DynArray α) (size pos : Nat) : Option (DynArray α) :=
  let posPlus1 := (pos + 1) % sizeBound
  if posPlus1 = 0 then none
  else
    match safemult size posPlus1 with
    | none => none
    | some room =>
      if h : a.mem.length < room then
        if granted then
          some
            { mem := a.mem.take a.used ++ List.replicate (room - a.used) 0
              used := room
              used_le := by
                have := a.used_le
                rw [List.length_append, List.length_replicate, List.length_take_of_le this]
                omega }
        else none
      else some a

/-- Growing succeeds where there is room or memory, and where sizes do not wrap around. -/
theorem alloc_isSome {a : DynArray α} (hpos : pos < sizeBound) :
    (a.alloc granted 1 pos).isSome = true ↔
      pos + 1 < sizeBound ∧ (pos < a.mem.length ∨ granted = true) := by
  unfold alloc
  by_cases hwrap : pos + 1 < sizeBound
  · rw [Nat.mod_eq_of_lt hwrap, if_neg pos.succ_ne_zero, safemult_one hwrap]
    dsimp only
    split_ifs with hroom hgranted
    · simp [hwrap, hgranted]
    · simp only [hgranted]
      simp
      omega
    · simp
      omega
  · have hend : pos + 1 = sizeBound := by omega
    simp [hend]

/-- Where there is room for the member `pos`, the cells in use before are as they were. -/
theorem alloc_spec {a a' : DynArray α} (hpos : pos < sizeBound)
    (h : a.alloc granted 1 pos = some a') :
    (pos < a.mem.length ∧ a' = a ∨
      a.mem.length ≤ pos ∧ a'.used = pos + 1 ∧ a'.mem.length = pos + 1) ∧
      a'.mem.take a.used = a.contents := by
  have hwrap := ((alloc_isSome hpos).mp (by rw [h]; rfl)).1
  unfold alloc at h
  rw [Nat.mod_eq_of_lt hwrap, if_neg pos.succ_ne_zero, safemult_one hwrap] at h
  simp only at h
  split_ifs at h with hroom hgranted
  · obtain rfl := Option.some.inj h
    have hused := a.used_le
    refine ⟨.inr ⟨Nat.le_of_lt_succ hroom, rfl, ?_⟩, ?_⟩
    · rw [List.length_append, List.length_replicate, List.length_take_of_le hused]
      omega
    · rw [List.take_append_of_le_length (Nat.le_of_eq (List.length_take_of_le hused).symm),
        List.take_take, Nat.min_self]
      rfl
  · obtain rfl := Option.some.inj h
    exact ⟨.inl ⟨by omega, rfl⟩, rfl⟩

/-- Append cells; `none` if there is no memory. -/
def catb (granted : Bool) (a : DynArray α) (src : List α) : Option (DynArray α) :=
  if src.length = 0 then some a
  else if (a.used + src.length) % sizeBound < a.used ∨
      (a.used + src.length) % sizeBound < src.length then none
  else
    match a.alloc granted 1 ((a.used + src.length) % sizeBound) with
    | none => none
    | some b =>
      if h : (a.used + src.length) % sizeBound ≤
          (b.mem.take a.used ++ src ++ b.mem.drop (a.used + src.length)).length then
        some { used := (a.used + src.length) % sizeBound, used_le := h }
      else none

/-- The sum of two sizes that does not look smaller has not wrapped around. -/
theorem sum_eq_of_not_wrapped {a : Nat}
    (h : ¬ ((a + b) % sizeBound < a ∨ (a + b) % sizeBound < b)) :
    (a + b) % sizeBound = a + b ∧ a + b < sizeBound := by
  have hlt : (a + b) % sizeBound < sizeBound := Nat.mod_lt _ (by decide)
  have hsum : a + b < sizeBound := by
    by_contra hge
    have hsub : (a + b - sizeBound) % sizeBound = (a + b) % sizeBound := by
      rw [← Nat.mod_eq_sub_mod (by omega)]
    have hle := Nat.mod_le (a + b - sizeBound) sizeBound
    omega
  exact ⟨Nat.mod_eq_of_lt hsum, hsum⟩

/-- Appending succeeds where growing does. -/
theorem catb_isSome {a : DynArray α} {src : List α} :
    (a.catb granted src).isSome = true ↔ src = [] ∨ a.used + src.length + 1 < sizeBound ∧
      (a.used + src.length < a.mem.length ∨ granted = true) := by
  unfold catb
  split_ifs with hsrc hwrap
  · simp [List.length_eq_zero_iff.mp hsrc]
  · have hge : ¬ a.used + src.length + 1 < sizeBound := by
      intro hlt
      rw [Nat.mod_eq_of_lt (Nat.lt_of_succ_lt hlt)] at hwrap
      omega
    have hne : src ≠ [] := fun h => hsrc (by rw [h]; rfl)
    simp [hge, hne]
  · obtain ⟨hsum, hlt⟩ := sum_eq_of_not_wrapped hwrap
    have hne : src ≠ [] := fun h => hsrc (by rw [h]; rfl)
    simp only [hsum, hne, false_or]
    rw [← alloc_isSome hlt]
    cases halloc : a.alloc granted 1 (a.used + src.length) with
    | none => rfl
    | some b =>
      dsimp only
      rw [dif_pos]
      · rfl
      · simp [(alloc_spec hlt halloc).2]

variable {a a' : DynArray α} {src : List α} (h : a.catb granted src = some a')
include h

/-- The cells are appended, with room for one more behind them. -/
theorem catb_spec : a'.contents = a.contents ++ src ∧
      (src ≠ [] → a'.used < a'.mem.length) ∧
      (a.mem.length < sizeBound → a'.mem.length < sizeBound) := by
  have hsome := catb_isSome.mp (by rw [h]; rfl)
  unfold catb at h
  split_ifs at h with hsrc hwrap
  · obtain rfl := Option.some.inj h
    rw [List.length_eq_zero_iff.mp hsrc, List.append_nil]
    exact ⟨rfl, fun hne => absurd rfl hne, id⟩
  · obtain ⟨hsum, hlt⟩ := sum_eq_of_not_wrapped hwrap
    simp only [hsum] at h
    cases halloc : a.alloc granted 1 (a.used + src.length) with
    | none => simp [halloc] at h
    | some b =>
      obtain ⟨hroom, hsame⟩ := alloc_spec hlt halloc
      simp only [halloc] at h
      split_ifs at h with hle
      obtain rfl := Option.some.inj h
      have hlength : (b.mem.take a.used ++ src ++ b.mem.drop (a.used + src.length)).length =
          max b.mem.length (a.used + src.length) := by
        rw [hsame]
        simp
        omega
      refine ⟨?_, fun _ => ?_, fun hmem => ?_⟩
      · unfold contents
        simp only
        rw [hsame, List.take_append_of_le_length, List.take_of_length_le]
        · rfl
        · simp
        · simp
      · dsimp only
        rw [hlength]
        rcases hroom with ⟨_, rfl⟩ | ⟨-, -, hgrown⟩ <;> omega
      · dsimp only
        rw [hlength]
        rcases hroom with ⟨-, rfl⟩ | ⟨-, -, hgrown⟩
        · omega
        · rcases hsome with rfl | hsome
          · exact absurd rfl hsrc
          · omega

theorem contents_catb : a'.contents = a.contents ++ src :=
  (catb_spec h).1

end

/-- Move the members from `pos` on to the front. -/
def moveleft (a : DynArray α) (membersize pos : Nat) : DynArray α :=
  match safemult membersize pos with
  | none => { a with used := 0, used_le := Nat.zero_le _ }
  | some bytepos =>
    if bytepos = 0 then a
    else if h : a.used ≤ bytepos then { a with used := 0, used_le := Nat.zero_le _ }
    else
      { mem := (a.mem.drop bytepos).take (a.used - bytepos) ++ a.mem.drop (a.used - bytepos)
        used := a.used - bytepos
        used_le := by
          have := a.used_le
          simp only [List.length_append, List.length_take, List.length_drop]
          omega }

/-- Everything is dropped if the position does not exist, also if its size wraps around. -/
theorem contents_moveleft {a : DynArray α} (ha : a.used < sizeBound) (membersize pos : Nat) :
    (a.moveleft membersize pos).contents = a.contents.drop (membersize * pos) := by
  unfold moveleft
  rw [safemult_eq]
  split_ifs with hfits
  · simp only
    split_ifs with hzero hall
    · rw [hzero, List.drop_zero]
    · rw [List.drop_of_length_le (by rwa [length_contents])]
      rfl
    · have hlength : ((a.mem.drop (membersize * pos)).take (a.used - membersize * pos)).length =
          a.used - membersize * pos := by
        have hused := a.used_le
        rw [List.length_take_of_le]
        rw [List.length_drop]
        omega
      unfold contents
      simp only
      rw [List.take_append_of_le_length (Nat.le_of_eq hlength.symm),
        List.take_of_length_le (Nat.le_of_eq hlength), List.drop_take]
  · rw [List.drop_of_length_le (by rw [length_contents]; omega)]
    rfl

theorem length_mem_moveleft (a : DynArray α) (membersize pos : Nat) :
    (a.moveleft membersize pos).mem.length = a.mem.length := by
  have hused := a.used_le
  unfold moveleft
  split
  · rfl
  · split_ifs with hzero hall
    · rfl
    · rfl
    · simp only [List.length_append, List.length_take, List.length_drop]
      omega

end DynArray

end Ngircd.Lib
