import Ngircd.Lib.Prog

/-!
# Weakest preconditions of programs

Each operation is given a predicate transformer; the weakest precondition of a
program folds them over its tree.  A transformer may say less than what the
operation does, for instance leave open what a routine changes that the
operation calls.

`wp_sound` connects the transformers to an interpretation with faults.  Faults
have a postcondition of their own: with `fun _ => True` a weakest precondition
speaks about the normal ends of a program, with `fun _ => False` it also says
that there is no other end.
-/

namespace Ngircd.Lib

/-- For each operation: the states from which it ends with a postcondition. -/
abbrev Transformer {Op : Type} (Res : Op → Type) (σ : Type) :=
  (op : Op) → (Res op → σ → Prop) → σ → Prop

section Ends

variable {σ ε α β : Type}

/-- A run of `m` from `s` ends in `Q`, or with a fault in `E`. -/
def Exec.Ends (E : ε → Prop) (m : Exec σ ε α) (Q : α → σ → Prop) (s : σ) : Prop :=
  match m s with
  | .ok (a, s') => Q a s'
  | .error e => E e

section

variable {E : ε → Prop} {m : Exec σ ε α}

theorem Exec.Ends.mono {Q Q' : α → σ → Prop} {s : σ} (h : ∀ a s', Q a s' → Q' a s')
    (hm : Exec.Ends E m Q s) : Exec.Ends E m Q' s := by
  unfold Exec.Ends at hm ⊢
  split at hm
  · exact h _ _ hm
  · exact hm

theorem Exec.Ends.bind {f : α → Exec σ ε β} {Q : β → σ → Prop} {s : σ}
    (hm : Exec.Ends E m (fun a => Exec.Ends E (f a) Q) s) :
    Exec.Ends E (m >>= f) Q s := by
  unfold Exec.Ends at hm ⊢
  rw [Exec.bind_apply]
  cases hrun : m s with
  | error e => simpa [hrun] using hm
  | ok r => simpa [hrun] using hm

theorem Exec.Ends.and {Q Q' : α → σ → Prop} {s : σ} (h : Exec.Ends E m Q s)
    (h' : Exec.Ends E m Q' s) :
    Exec.Ends E m (fun a s' => Q a s' ∧ Q' a s') s := by
  unfold Exec.Ends at h h' ⊢
  cases hrun : m s with
  | error e => simpa [hrun] using h
  | ok r =>
    simp only [hrun] at h h'
    exact ⟨h, h'⟩

/-- What a normal end satisfies. -/
theorem Exec.Ends.of_ok {Q : α → σ → Prop} {s s' : σ} {a : α} (hm : Exec.Ends E m Q s)
    (h : m s = .ok (a, s')) : Q a s' := by
  unfold Exec.Ends at hm
  rw [h] at hm
  exact hm

end

/-- Without faults there is a normal end. -/
theorem Exec.Ends.exists_ok {m : Exec σ ε α} {Q : α → σ → Prop} {s : σ}
    (hm : Exec.Ends (fun _ => False) m Q s) : ∃ a s', m s = .ok (a, s') ∧ Q a s' := by
  unfold Exec.Ends at hm
  split at hm
  · exact ⟨_, _, by assumption, hm⟩
  · exact hm.elim

/-- Without a normal end there is the fault. -/
theorem Exec.Ends.error_eq {m : Exec σ ε α} {s : σ} {e : ε}
    (hm : Exec.Ends (· = e) m (fun _ _ => False) s) : m s = .error e := by
  unfold Exec.Ends at hm
  split at hm
  · exact hm.elim
  · next hrun => rw [hrun, hm]

end Ends

namespace Prog

variable {Op Op' : Type} {Res : Op → Type} {Res' : Op' → Type} {σ α β : Type}

/-- The weakest precondition of a program. -/
def wp (t : Transformer Res σ) : Prog Res α → (α → σ → Prop) → σ → Prop
  | .done a, Q, s => Q a s
  | .call op next, Q, s => t op (fun r => (next r).wp t Q) s

variable {t : Transformer Res σ} {Q Q' : α → σ → Prop} {s : σ}

@[simp] theorem wp_done (a : α) : (Prog.done a : Prog Res α).wp t Q s ↔ Q a s := Iff.rfl

@[simp] theorem wp_pure (a : α) : (pure a : Prog Res α).wp t Q s ↔ Q a s := Iff.rfl

@[simp] theorem wp_call (op : Op) (next : Res op → Prog Res α) :
    (Prog.call op next).wp t Q s ↔ t op (fun r => (next r).wp t Q) s := Iff.rfl

@[simp] theorem wp_perform (op : Op) (Q : Res op → σ → Prop) :
    (perform op : Prog Res (Res op)).wp t Q s ↔ t op Q s := Iff.rfl

theorem wp_bind_eq (p : Prog Res α) (f : α → Prog Res β) (Q : β → σ → Prop) :
    (p >>= f).wp t Q = p.wp t fun a => (f a).wp t Q := by
  induction p with
  | done a => rfl
  | call op next ih =>
    funext s
    simp only [call_bind, wp, ih]

@[simp] theorem wp_bind (p : Prog Res α) (f : α → Prog Res β) (Q : β → σ → Prop) :
    (p >>= f).wp t Q s ↔ p.wp t (fun a => (f a).wp t Q) s := by
  rw [wp_bind_eq]

@[simp] theorem wp_ite (c : Prop) [Decidable c] (p q : Prog Res α) :
    (if c then p else q).wp t Q s ↔ (c → p.wp t Q s) ∧ (¬c → q.wp t Q s) := by
  split <;> simp_all

/-- A program over translated operations is judged by the translations. -/
theorem wp_run {t : Transformer Res' σ} (translate : ∀ op, Prog Res' (Res op)) (p : Prog Res α) :
    (p.run translate).wp t Q s ↔ p.wp (fun op Q => (translate op).wp t Q) Q s := by
  suffices h : (p.run translate).wp t Q = p.wp (fun op Q => (translate op).wp t Q) Q by rw [h]
  induction p with
  | done a => rfl
  | call op next ih =>
    funext s
    simp only [run_call, wp_bind_eq, wp, ih]

/-- A transformer that is monotone in the postcondition. -/
class Monotone (t : Transformer Res σ) : Prop where
  mono : ∀ op Q Q' s, (∀ r s', Q r s' → Q' r s') → t op Q s → t op Q' s

theorem wp_mono [ht : Monotone t] {p : Prog Res α} (h : ∀ a s', Q a s' → Q' a s')
    (hp : p.wp t Q s) : p.wp t Q' s := by
  induction p generalizing s with
  | done a => exact h a s hp
  | call op next ih => exact ht.mono op _ _ s (fun r s' hr => ih r hr) hp

/-- Transformers that ask for less. -/
theorem wp_weaken {t' : Transformer Res σ} [ht' : Monotone t']
    (h : ∀ op Q s, t op Q s → t' op Q s) {p : Prog Res α} (hp : p.wp t Q s) : p.wp t' Q s := by
  induction p generalizing s with
  | done a => exact hp
  | call op next ih => exact ht'.mono op _ _ s (fun r s' hr => ih r hr) (h op _ s hp)

/-- A transformer for which two guarantees hold together. -/
def Conjunctive (t : Transformer Res σ) : Prop :=
  ∀ op Q Q' s, t op Q s → t op Q' s → t op (fun r s' => Q r s' ∧ Q' r s') s

/-- The rule of conjunction. -/
theorem wp_and [hmono : Monotone t] (ht : Conjunctive t) {p : Prog Res α} (h : p.wp t Q s)
    (h' : p.wp t Q' s) : p.wp t (fun a s' => Q a s' ∧ Q' a s') s := by
  induction p generalizing s with
  | done a => exact ⟨h, h'⟩
  | call op next ih => exact hmono.mono op _ _ s (fun r s' hr => ih r hr.1 hr.2) (ht op _ _ s h h')

/-- Every end of an operation is related to its start. -/
def Within (R : σ → σ → Prop) (t : Transformer Res σ) : Prop :=
  ∀ op Q s, (∀ r s', R s s' → Q r s') → t op Q s

/-- The frame rule: what holds between start and end of every operation holds
between start and end of every program. -/
theorem wp_of_within {R : σ → σ → Prop} (hrefl : ∀ s, R s s)
    (htrans : ∀ s t u, R s t → R t u → R s u) (ht : Within R t) (p : Prog Res α)
    (h : ∀ a s', R s s' → Q a s') : p.wp t Q s := by
  induction p generalizing s with
  | done a => exact h a s (hrefl s)
  | call op next ih =>
    refine ht op _ s fun r s' hr => ih r fun a s'' hr' => ?_
    exact h a s'' (htrans s s' s'' hr hr')

/-- Whatever an operation guarantees, it also keeps to a relation. -/
def Keeps (R : σ → σ → Prop) (t : Transformer Res σ) : Prop :=
  ∀ op Q s, t op Q s → t op (fun r s' => Q r s' ∧ R s s') s

/-- The rule of conjunction with a frame: what a program guarantees, and that
it keeps to the relation. -/
theorem wp_and_of_keeps {R : σ → σ → Prop} [hmono : Monotone t] (hrefl : ∀ s, R s s)
    (htrans : ∀ s t u, R s t → R t u → R s u) (ht : Keeps R t) (p : Prog Res α)
    (hp : p.wp t Q s) : p.wp t (fun a s' => Q a s' ∧ R s s') s := by
  induction p generalizing s with
  | done a => exact ⟨hp, hrefl s⟩
  | call op next ih =>
    refine hmono.mono op _ _ s (fun r s' hr => ?_) (ht op _ s hp)
    refine wp_mono (fun a s'' ha => ?_) (ih r hr.1)
    exact ⟨ha.1, htrans s s' s'' hr.2 ha.2⟩

/-- The rule for a loop over a list, with an invariant. -/
theorem wp_forEach {t : Transformer Res σ} [ht : Monotone t] {f : β → Prog Res Unit}
    {I : σ → Prop} {Q : Unit → σ → Prop} (l : List β)
    (hbody : ∀ b ∈ l, ∀ s, I s → (f b).wp t (fun _ => I) s)
    (hend : ∀ s, I s → Q () s) (hI : I s) : (forEach f l).wp t Q s := by
  induction l generalizing s with
  | nil => exact hend s hI
  | cons b l ih =>
    simp only [forEach, wp_bind]
    refine wp_mono (fun _ s' hs' => ?_) (hbody b (.head _) s hI)
    exact ih (fun b' hb' => hbody b' (.tail b hb')) hs'

/-- The program keeps an invariant. -/
def Stable (t : Transformer Res σ) (J : σ → Prop) (p : Prog Res α) : Prop :=
  ∀ s, J s → p.wp t (fun _ => J) s

section Stable

variable {J : σ → Prop} {p : Prog Res α}

theorem Stable.pure (a : α) : Stable t J (pure a : Prog Res α) := fun _ h => h

theorem Stable.bind [ht : Monotone t] {f : α → Prog Res β} (hp : Stable t J p)
    (hf : ∀ a, Stable t J (f a)) : Stable t J (p >>= f) := by
  intro s hs
  rw [wp_bind]
  exact wp_mono (fun a s' hs' => hf a s' hs') (hp s hs)

theorem Stable.ite {c : Prop} [Decidable c] {q : Prog Res α} (hp : Stable t J p)
    (hq : Stable t J q) : Stable t J (if c then p else q) := by
  split
  · exact hp
  · exact hq

/-- Something that is done only under a condition, before the rest. -/
theorem Stable.opt {c : Prop} [Decidable c] {rest : Prog Res α} (hrest : Stable t J rest)
    (hp : Stable t J rest → Stable t J p) : Stable t J (if c then p else rest) :=
  .ite (hp hrest) hrest

theorem Stable.forEach [ht : Monotone t] {f : β → Prog Res Unit} (hf : ∀ b, Stable t J (f b))
    (l : List β) : Stable t J (forEach f l) :=
  fun _ hs => wp_forEach l (fun b _ s' hs' => hf b s' hs') (fun _ h => h) hs

end Stable

/-! ## Results -/

/-- Whatever the operations answer, the program ends with a result in `P`. -/
def Returns (P : α → Prop) : Prog Res α → Prop
  | .done a => P a
  | .call _ next => ∀ r, Returns P (next r)

section Returns

variable {P : α → Prop} {p : Prog Res α}

theorem Returns.pure {a : α} (h : P a) : Returns P (pure a : Prog Res α) := h

theorem Returns.any (p : Prog Res α) : Returns (fun _ => True) p := by
  induction p with
  | done a => exact True.intro
  | call op next ih => exact ih

theorem Returns.bind {R : β → Prop} {f : α → Prog Res β} (hp : Returns P p)
    (hf : ∀ a, P a → Returns R (f a)) : Returns R (p >>= f) := by
  induction p with
  | done a => exact hf a hp
  | call op next ih => exact fun r => ih r (hp r)

theorem Returns.ite {c : Prop} [Decidable c] {q : Prog Res α} (hp : Returns P p)
    (hq : Returns P q) : Returns P (if c then p else q) := by
  split
  · exact hp
  · exact hq

theorem Returns.run (hp : Returns P p) (translate : ∀ op, Prog Res' (Res op)) :
    Returns P (p.run translate) := by
  induction p with
  | done a => exact hp
  | call op next ih =>
    rw [run_call]
    exact .bind (.any _) fun r _ => ih r (hp r)

/-- What is known about the result may be used. -/
theorem wp_returns [ht : Monotone t] (hp : Returns P p) (h : p.wp t Q s) :
    p.wp t (fun a s' => P a ∧ Q a s') s := by
  induction p generalizing s with
  | done a => exact ⟨hp, h⟩
  | call op next ih => exact ht.mono op _ _ s (fun r s' hr => ih r (hp r) hr) h

theorem Stable.bind_returns {J : σ → Prop} [ht : Monotone t] {f : α → Prog Res β}
    (hret : Returns P p) (hp : Stable t J p) (hf : ∀ a, P a → Stable t J (f a)) :
    Stable t J (p >>= f) := by
  intro s hs
  rw [wp_bind]
  exact wp_mono (fun a s' hs' => hf a hs'.1 s' hs'.2) (wp_returns hret (hp s hs))

end Returns

/-- Soundness: if the transformers are right about the interpretation of every
operation, then so are weakest preconditions. -/
theorem wp_sound {ε : Type} {E : ε → Prop} {step : ∀ op, Exec σ ε (Res op)}
    (hstep : ∀ op Q s, t op Q s → Exec.Ends E (step op) Q s) {p : Prog Res α}
    (hp : p.wp t Q s) : Exec.Ends E (p.run step) Q s := by
  induction p generalizing s with
  | done a => exact hp
  | call op next ih =>
    rw [run_call]
    refine Exec.Ends.bind ?_
    exact Exec.Ends.mono (fun r s' hr => ih r hr) (hstep op _ s hp)

end Prog

end Ngircd.Lib
