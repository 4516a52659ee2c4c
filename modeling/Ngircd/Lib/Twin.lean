import Ngircd.Lib.Prog

/-!
# Two runs side by side

The outcomes of two runs are alike if both end in states that are related as they should
be, or both end in a fault.  A family of states may be given in which the runs are
allowed to have come apart: states that no computation leads out of, so that it does not
matter what the runs do from there on, or whether they end.
-/

namespace Ngircd.Lib

variable {ι σ ε α β : Type} {F : ι → σ → Prop}

/-- The outcomes are related by `Q`, or both runs have left for the same `F l`.  Where one
of them ends in a fault, the other does or has left. -/
def Exec.Alike (F : ι → σ → Prop) (Q : α → α → σ → σ → Prop) :
    Except ε (α × σ) → Except ε (α × σ) → Prop
  | .ok (a, t), .ok (b, t') => Q a b t t' ∨ ∃ l, F l t ∧ F l t'
  | .ok (_, t), .error _ => ∃ l, F l t
  | .error _, .ok (_, t') => ∃ l, F l t'
  | .error _, .error _ => True

/-- Nothing leads out of a state of the family. -/
def Exec.Stays (F : ι → σ → Prop) (m : Exec σ ε α) : Prop :=
  ∀ l s a t, F l s → m s = .ok (a, t) → F l t

theorem Exec.Stays.pure (a : α) : Exec.Stays F (pure a : Exec σ ε α) := by
  intro l s b t hs hrun
  obtain ⟨-, rfl⟩ := Prod.mk.inj (Except.ok.inj hrun)
  exact hs

theorem Exec.Stays.bind {m : Exec σ ε α} {f : α → Exec σ ε β} (hm : Exec.Stays F m)
    (hf : ∀ a, Exec.Stays F (f a)) : Exec.Stays F (m >>= f) := by
  intro l s b t hs hrun
  rw [Exec.bind_apply] at hrun
  cases hfirst : m s with
  | error e =>
    rw [hfirst] at hrun
    exact nomatch hrun
  | ok x =>
    rw [hfirst] at hrun
    exact hf x.1 l x.2 b t (hm l s x.1 x.2 hs hfirst) hrun

namespace Exec.Alike

variable {Q : α → α → σ → σ → Prop} {Q' : β → β → σ → σ → Prop}

theorem mono {Q₁ : α → α → σ → σ → Prop} {x x' : Except ε (α × σ)}
    (hQ : ∀ a b t t', Q a b t t' → Q₁ a b t t') (h : Exec.Alike F Q x x') :
    Exec.Alike F Q₁ x x' := by
  match x, x' with
  | .ok (a, t), .ok (b, t') => exact h.imp (hQ a b t t') id
  | .ok _, .error _ => exact h
  | .error _, .ok _ => exact h
  | .error _, .error _ => trivial

/-- What follows the first part of the runs may stop those that have come apart: `g` tells
which of the ways of leaving are still open afterwards. -/
theorem bind_of {κ : Type} {G : κ → σ → Prop} (g : ι → Option κ) {m m' : Exec σ ε α}
    {f f' : α → Exec σ ε β} {s s' : σ} (hm : Exec.Alike F Q (m s) (m' s'))
    (hf : ∀ a b t t', Q a b t t' → Exec.Alike G Q' (f a t) (f' b t'))
    (hstays : ∀ l a t b u, F l t → f a t = .ok (b, u) → ∃ k, g l = some k ∧ G k u)
    (hstays' : ∀ l a t b u, F l t → f' a t = .ok (b, u) → ∃ k, g l = some k ∧ G k u) :
    Exec.Alike G Q' ((m >>= f) s) ((m' >>= f') s') := by
  rw [Exec.bind_apply, Exec.bind_apply]
  cases hrun : m s with
  | error e =>
    cases hrun' : m' s' with
    | error e' => trivial
    | ok y =>
      rw [hrun, hrun'] at hm
      obtain ⟨l, ht'⟩ := hm
      cases hnext : f' y.1 y.2 with
      | error e' => simp only [hnext, Exec.Alike]
      | ok z =>
        obtain ⟨k, -, hk⟩ := hstays' l y.1 y.2 z.1 z.2 ht' hnext
        simpa only [hnext, Exec.Alike] using ⟨k, hk⟩
  | ok x =>
    cases hrun' : m' s' with
    | error e' =>
      rw [hrun, hrun'] at hm
      obtain ⟨l, ht⟩ := hm
      cases hnext : f x.1 x.2 with
      | error e => simp only [hnext, Exec.Alike]
      | ok z =>
        obtain ⟨k, -, hk⟩ := hstays l x.1 x.2 z.1 z.2 ht hnext
        simpa only [hnext, Exec.Alike] using ⟨k, hk⟩
    | ok y =>
      rw [hrun, hrun'] at hm
      rcases hm with hQ | ⟨l, ht, ht'⟩
      · exact hf x.1 y.1 x.2 y.2 hQ
      · -- A run that has left ends where it is, or in a fault.
        simp only
        cases hnext : f x.1 x.2 with
        | error e =>
          cases hnext' : f' y.1 y.2 with
          | error e' => trivial
          | ok z =>
            obtain ⟨k, -, hk⟩ := hstays' l y.1 y.2 z.1 z.2 ht' hnext'
            exact ⟨k, hk⟩
        | ok u =>
          obtain ⟨k, hl, hk⟩ := hstays l x.1 x.2 u.1 u.2 ht hnext
          cases hnext' : f' y.1 y.2 with
          | error e' => exact ⟨k, hk⟩
          | ok z =>
            obtain ⟨k', hl', hk'⟩ := hstays' l y.1 y.2 z.1 z.2 ht' hnext'
            obtain rfl : k = k' := Option.some.inj (hl.symm.trans hl')
            exact .inr ⟨k, hk, hk'⟩

theorem bind {m m' : Exec σ ε α} {f f' : α → Exec σ ε β} {s s' : σ}
    (hm : Exec.Alike F Q (m s) (m' s'))
    (hf : ∀ a b t t', Q a b t t' → Exec.Alike F Q' (f a t) (f' b t'))
    (hstays : ∀ a, Exec.Stays F (f a)) (hstays' : ∀ a, Exec.Stays F (f' a)) :
    Exec.Alike F Q' ((m >>= f) s) ((m' >>= f') s') :=
  bind_of some hm hf (fun l a t b u ht hrun => ⟨l, rfl, hstays a l t b u ht hrun⟩)
    fun l a t b u ht hrun => ⟨l, rfl, hstays' a l t b u ht hrun⟩

end Exec.Alike

end Ngircd.Lib
