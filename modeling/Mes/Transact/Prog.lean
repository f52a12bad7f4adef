import Mathlib.Tactic

/-!
Programs that stop at every operation of their environment. A handler that
runs beside others is written as such a program: between two operations it is
pure, and at an operation the scheduler may let any other program run first.
The answer to an operation is part of the environment, so nothing here says
what an operation does.

`attempt` is the `try`/`catch` of the source language. It catches only errors
that the program raises itself; an operation reports its failure as an answer,
and the program decides what to raise.
-/

namespace Transact

/-- The operations that a program may ask for, each with its type of answers. -/
structure Signature where
  Op : Type
  Res : Op → Type

/-- A program that ends with a value of `α` or an error of `ε`, or asks for
one operation and continues with its answer. -/
inductive Prog (S : Signature) (ε α : Type) where
  | ret (value : α) : Prog S ε α
  | throw (error : ε) : Prog S ε α
  | step (op : S.Op) (next : S.Res op → Prog S ε α) : Prog S ε α

namespace Prog

variable {S : Signature} {ε α β : Type}

/-- Sequencing. An error skips the continuation. -/
def andThen : Prog S ε α → (α → Prog S ε β) → Prog S ε β
  | .ret a, f => f a
  | .throw e, _ => .throw e
  | .step op k, f => .step op fun r => (k r).andThen f

/-- `try`/`catch`: the handler runs on an error of the program. -/
def attempt : Prog S ε α → (ε → Prog S ε α) → Prog S ε α
  | .ret a, _ => .ret a
  | .throw e, handler => handler e
  | .step op k, handler => .step op fun r => (k r).attempt handler

instance : Monad (Prog S ε) where
  pure := .ret
  bind := .andThen

/-- How a program that has ended did end. -/
def outcome : Prog S ε α → Option (Except ε α)
  | .ret a => some (.ok a)
  | .throw e => some (.error e)
  | .step _ _ => none

@[simp] theorem pure_eq (a : α) : (pure a : Prog S ε α) = .ret a := rfl

@[simp] theorem bind_eq (x : Prog S ε α) (f : α → Prog S ε β) :
    x >>= f = x.andThen f := rfl

@[simp] theorem andThen_ret (a : α) (f : α → Prog S ε β) :
    (Prog.ret a).andThen f = f a := rfl

@[simp] theorem andThen_throw (e : ε) (f : α → Prog S ε β) :
    (Prog.throw e : Prog S ε α).andThen f = .throw e := rfl

@[simp] theorem andThen_step (op : S.Op) (k : S.Res op → Prog S ε α)
    (f : α → Prog S ε β) :
    (Prog.step op k).andThen f = .step op fun r => (k r).andThen f := rfl

@[simp] theorem attempt_ret (a : α) (handler : ε → Prog S ε α) :
    (Prog.ret a).attempt handler = .ret a := rfl

@[simp] theorem attempt_throw (e : ε) (handler : ε → Prog S ε α) :
    (Prog.throw e : Prog S ε α).attempt handler = handler e := rfl

@[simp] theorem outcome_ret (a : α) :
    (Prog.ret a : Prog S ε α).outcome = some (.ok a) := rfl

@[simp] theorem outcome_throw (e : ε) :
    (Prog.throw e : Prog S ε α).outcome = some (.error e) := rfl

/-- A program that has ended with a value is that value. -/
theorem eq_ret_of_outcome {x : Prog S ε α} {a : α}
    (houtcome : x.outcome = some (.ok a)) : x = .ret a := by
  cases x with
  | ret b => simpa [outcome] using houtcome
  | throw e => simp [outcome] at houtcome
  | step op k => simp [outcome] at houtcome

theorem eq_throw_of_outcome {x : Prog S ε α} {e : ε}
    (houtcome : x.outcome = some (.error e)) : x = .throw e := by
  cases x with
  | ret b => simp [outcome] at houtcome
  | throw e' => simpa [outcome] using houtcome
  | step op k => simp [outcome] at houtcome

/-- Whatever the answers, the program asks only for operations in `ok`. -/
def Uses (ok : S.Op → Prop) : Prog S ε α → Prop
  | .ret _ => True
  | .throw _ => True
  | .step op k => ok op ∧ ∀ r, (k r).Uses ok

variable {ok : S.Op → Prop}

@[simp] theorem uses_ret (a : α) : (Prog.ret a : Prog S ε α).Uses ok := trivial

@[simp] theorem uses_throw (e : ε) : (Prog.throw e : Prog S ε α).Uses ok := trivial

theorem Uses.mono {ok' : S.Op → Prop} {x : Prog S ε α} (hx : x.Uses ok)
    (hok : ∀ op, ok op → ok' op) : x.Uses ok' := by
  induction x with
  | ret a => trivial
  | throw e => trivial
  | step op k ih => exact ⟨hok op hx.1, fun r => ih r (hx.2 r)⟩

theorem Uses.andThen {x : Prog S ε α} {f : α → Prog S ε β} (hx : x.Uses ok)
    (hf : ∀ a, (f a).Uses ok) : (x.andThen f).Uses ok := by
  induction x with
  | ret a => exact hf a
  | throw e => trivial
  | step op k ih => exact ⟨hx.1, fun r => ih r (hx.2 r)⟩

theorem Uses.attempt {x : Prog S ε α} {handler : ε → Prog S ε α} (hx : x.Uses ok)
    (hhandler : ∀ e, (handler e).Uses ok) : (x.attempt handler).Uses ok := by
  induction x with
  | ret a => trivial
  | throw e => exact hhandler e
  | step op k ih => exact ⟨hx.1, fun r => ih r (hx.2 r)⟩

/-- The answers to the operations in `ok` make no difference. -/
def Ignores (ok : S.Op → Prop) : Prog S ε α → Prop
  | .ret _ => True
  | .throw _ => True
  | .step op k => (ok op → ∀ r r', k r = k r') ∧ ∀ r, (k r).Ignores ok

theorem Uses.ignores {ok' : S.Op → Prop} {x : Prog S ε α} (hx : x.Uses ok')
    (hok : ∀ op, ok' op → ¬ ok op) : x.Ignores ok := by
  induction x with
  | ret a => trivial
  | throw e => trivial
  | step op k ih =>
      exact ⟨fun hop => absurd hop (hok op hx.1), fun r => ih r (hx.2 r)⟩

theorem Ignores.andThen {x : Prog S ε α} {f : α → Prog S ε β} (hx : x.Ignores ok)
    (hf : ∀ a, (f a).Ignores ok) : (x.andThen f).Ignores ok := by
  induction x with
  | ret a => exact hf a
  | throw e => trivial
  | step op k ih =>
      refine ⟨fun hop r r' => ?_, fun r => ih r (hx.2 r)⟩
      show (k r).andThen f = (k r').andThen f
      rw [hx.1 hop r r']

theorem andThen_assoc {γ : Type} (x : Prog S ε α) (f : α → Prog S ε β)
    (g : β → Prog S ε γ) :
    (x.andThen f).andThen g = x.andThen fun a => (f a).andThen g := by
  induction x with
  | ret a => rfl
  | throw e => rfl
  | step op k ih => simp only [andThen_step, ih]

end Prog

end Transact
