import Mathlib.Order.Defs.PartialOrder
import Mathlib.Logic.Function.Basic

/-!
# Programs over a signature of operations

A program is a tree of operation calls: it names an operation, waits for the
answer and goes on.  What an operation does is not part of the program; it is
given by an interpretation into a monad, here a state monad with faults.

Keeping the two apart gives two things to the developments that use this file.
A program whose operations are taken from a small signature cannot do more than
that signature allows, so a fact about every operation is a fact about every
program (`Prog.wp_of_within`).  And a routine that calls itself through one of its own
operations (a write that closes a connection that writes) is an ordinary,
non-recursive program; only its interpretation carries the recursion.
-/

namespace Ngircd.Lib

/-- A program over the operations `Op`, each answered by a value of `Res op`. -/
inductive Prog {Op : Type} (Res : Op → Type) (α : Type) where
  | done (a : α)
  | call (op : Op) (next : Res op → Prog Res α)

namespace Prog

variable {Op Op' : Type} {Res : Op → Type} {Res' : Op' → Type} {α β γ : Type}

/-- Sequential composition: graft `f` onto every leaf. -/
def bind (p : Prog Res α) (f : α → Prog Res β) : Prog Res β :=
  match p with
  | .done a => f a
  | .call op next => .call op fun r => (next r).bind f

instance : Monad (Prog Res) where
  pure := .done
  bind := bind

/-- The program that performs one operation and returns its answer. -/
def perform (op : Op) : Prog Res (Res op) :=
  .call op .done

@[simp] theorem pure_eq_done (a : α) : (pure a : Prog Res α) = .done a := rfl

@[simp] theorem done_bind (a : α) (f : α → Prog Res β) : (Prog.done a >>= f) = f a := rfl

@[simp] theorem call_bind (op : Op) (next : Res op → Prog Res α)
    (f : α → Prog Res β) :
    (Prog.call op next >>= f) = .call op fun r => next r >>= f := rfl

@[simp] theorem perform_bind (op : Op) (f : Res op → Prog Res β) :
    (perform op >>= f) = .call op f := rfl

theorem bind_done (p : Prog Res α) : (p >>= Prog.done) = p := by
  induction p with
  | done a => rfl
  | call op next ih =>
    rw [call_bind]
    congr 1
    funext r
    exact ih r

theorem bind_bind (p : Prog Res α) (f : α → Prog Res β) (g : β → Prog Res γ) :
    (p >>= f) >>= g = p >>= fun a => f a >>= g := by
  induction p with
  | done a => rfl
  | call op next ih =>
    simp only [call_bind]
    congr 1
    funext r
    exact ih r

instance : LawfulMonad (Prog Res) :=
  LawfulMonad.mk' (Prog Res) (fun p => bind_done p) (fun _ _ => rfl) bind_bind

/-- Run `f` on every element, in order. -/
def forEach (f : α → Prog Res Unit) : List α → Prog Res Unit
  | [] => .done ()
  | a :: as => f a >>= fun _ => forEach f as

/-- Run `f` on the elements in order until one of the runs answers `false`. -/
def whileTrue (f : α → Prog Res Bool) : List α → Prog Res Bool
  | [] => .done true
  | a :: as => f a >>= fun ok => if ok then whileTrue f as else .done false

/-- Interpret every operation in a monad. -/
def run {m : Type → Type} [Monad m] (step : ∀ op, m (Res op)) :
    Prog Res α → m α
  | .done a => pure a
  | .call op next => step op >>= fun r => (next r).run step

variable {m : Type → Type}

@[simp] theorem run_done [Monad m] (step : ∀ op, m (Res op)) (a : α) :
    (Prog.done a : Prog Res α).run step = pure a := rfl

@[simp] theorem run_call [Monad m] (step : ∀ op, m (Res op)) (op : Op) (next : Res op → Prog Res α) :
    (Prog.call op next).run step = step op >>= fun r => (next r).run step := rfl

/-- Interpretation is a monad morphism. -/
theorem run_bind [Monad m] [LawfulMonad m] (step : ∀ op, m (Res op)) (p : Prog Res α)
    (f : α → Prog Res β) :
    (p >>= f).run step = p.run step >>= fun a => (f a).run step := by
  induction p with
  | done a => simp
  | call op next ih =>
    simp only [call_bind, run_call, bind_assoc]
    congr 1
    funext r
    exact ih r

theorem run_perform [Monad m] [LawfulMonad m] (step : ∀ op, m (Res op)) (op : Op) :
    (perform op : Prog Res (Res op)).run step = step op := by
  simp [perform]

/-- Translating the operations of one signature into programs over another and
then interpreting is interpreting each translated operation. -/
theorem run_run [Monad m] [LawfulMonad m] (step : ∀ op, m (Res' op))
    (translate : ∀ op, Prog Res' (Res op)) (p : Prog Res α) :
    (p.run translate).run step = p.run fun op => (translate op).run step := by
  induction p with
  | done a => rfl
  | call op next ih =>
    simp only [run_call, run_bind]
    congr 1
    funext r
    exact ih r

end Prog

/-! ## Interpretation in a state monad with faults -/

/-- A computation on states of type `σ` that ends in a result or in a fault. -/
abbrev Exec (σ ε : Type) : Type → Type := StateT σ (Except ε)

section Exec

variable {σ ε α β : Type}

theorem Exec.pure_apply (a : α) (s : σ) : (pure a : Exec σ ε α) s = .ok (a, s) := rfl

theorem Exec.bind_apply (m : Exec σ ε α) (f : α → Exec σ ε β) (s : σ) :
    (m >>= f) s = match m s with
      | .error e => .error e
      | .ok (a, s') => f a s' := by
  simp only [bind, StateT.bind, Except.bind]
  cases m s <;> rfl

/-- A sequence ends normally exactly when both parts do. -/
theorem Exec.bind_eq_ok {m : Exec σ ε α} {f : α → Exec σ ε β} {s : σ} {b : β} {s'' : σ} :
    (m >>= f) s = .ok (b, s'') ↔ ∃ a s', m s = .ok (a, s') ∧ f a s' = .ok (b, s'') := by
  rw [Exec.bind_apply]
  cases hm : m s with
  | error e => simp
  | ok r =>
    obtain ⟨a, s'⟩ := r
    constructor
    · intro h
      exact ⟨a, s', rfl, h⟩
    · rintro ⟨a', t, heq, h⟩
      cases heq
      exact h

end Exec

end Ngircd.Lib
