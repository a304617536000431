/-
How a call of a Rust function ends: a value, the `Err` of its `Result`, or a panic. Every function
of the source that returns a `Result` or can panic is modelled with `Outcome`, `?` as the monad's
bind, so a theorem that a call returns `Err` also says that it does not panic.
-/
import Mathlib.Tactic

namespace Rust

/-- The end of a call: a value, an `Err`, or a panic. -/
inductive Outcome (ε α : Type) where
  | ok (a : α)
  | err (e : ε)
  | panic
  deriving DecidableEq, Repr

namespace Outcome

variable {ε ε' α β γ : Type}

protected def bind (x : Outcome ε α) (f : α → Outcome ε β) : Outcome ε β :=
  match x with
  | ok a => f a
  | err e => err e
  | panic => panic

instance : Monad (Outcome ε) where
  pure := ok
  bind := Outcome.bind

instance : LawfulMonad (Outcome ε) :=
  LawfulMonad.mk' _ (fun x => by cases x <;> rfl) (fun _ _ => rfl) (fun x _ _ => by cases x <;> rfl)

/-- `Result::map_err`. -/
def mapErr (f : ε → ε') : Outcome ε α → Outcome ε' α
  | ok a => ok a
  | err e => err (f e)
  | panic => panic

/-- `if c { return Err(e); }` in front of the rest of a body. -/
def rejectIf (c : Prop) [Decidable c] (e : ε) : Outcome ε Unit := if c then err e else ok ()

/-- `if let Some(a) = o { .. }` in front of the rest of a body. -/
def ifLetSome (o : Option α) (f : α → Outcome ε Unit) : Outcome ε Unit :=
  match o with
  | some a => f a
  | none => ok ()

/-- `Result::expect`: an `Err` becomes a panic. -/
def expect : Outcome ε α → Outcome ε' α
  | ok a => ok a
  | err _ => panic
  | panic => panic

/-- The `Result` of a function that does not panic. -/
def ofResult : Except ε α → Outcome ε α
  | .ok a => ok a
  | .error e => err e

/-- The call returned an `Err`. -/
def IsErr (x : Outcome ε α) : Prop := ∃ e, x = err e

/-! ## Reading a sequence of calls apart -/

@[simp] theorem pure_eq (a : α) : (pure a : Outcome ε α) = ok a := rfl
@[simp] theorem ok_bind (a : α) (f : α → Outcome ε β) : (ok a >>= f) = f a := rfl
@[simp] theorem err_bind (e : ε) (f : α → Outcome ε β) : (err e >>= f) = err e := rfl
@[simp] theorem panic_bind (f : α → Outcome ε β) : (panic >>= f) = panic := rfl

@[simp] theorem mapErr_ok (f : ε → ε') (a : α) : mapErr f (ok a) = ok a := rfl
@[simp] theorem mapErr_err (f : ε → ε') (e : ε) : mapErr f (err e : Outcome ε α) = err (f e) := rfl
@[simp] theorem mapErr_panic (f : ε → ε') : mapErr f (panic : Outcome ε α) = panic := rfl

@[simp] theorem expect_ok (a : α) : (expect (ok a : Outcome ε α) : Outcome ε' α) = ok a := rfl

theorem expect_of_ok {x : Outcome ε α} {a : α} (h : x = ok a) : (expect x : Outcome ε' α) = ok a := by rw [h, expect_ok]

theorem expect_eq_ok {x : Outcome ε α} {a : α} : (expect x : Outcome ε' α) = ok a ↔ x = ok a := by
  cases x <;> simp [expect]

theorem bind_eq_ok {x : Outcome ε α} {f : α → Outcome ε β} {b : β} :
    (x >>= f) = ok b ↔ ∃ a, x = ok a ∧ f a = ok b := by
  cases x with
  | ok a => simp
  | err e => simp
  | panic => simp

theorem bind_eq_panic {x : Outcome ε α} {f : α → Outcome ε β} :
    (x >>= f) = panic ↔ x = panic ∨ ∃ a, x = ok a ∧ f a = panic := by
  cases x with
  | ok a => simp
  | err e => simp
  | panic => simp

theorem mapErr_eq_ok {f : ε → ε'} {x : Outcome ε α} {a : α} : mapErr f x = ok a ↔ x = ok a := by
  cases x <;> simp

theorem mapErr_eq_panic {f : ε → ε'} {x : Outcome ε α} : mapErr f x = panic ↔ x = panic := by
  cases x <;> simp

theorem rejectIf_eq_ok {c : Prop} [Decidable c] {e : ε} {u : Unit} : rejectIf c e = ok u ↔ ¬c := by
  unfold rejectIf; split <;> simp_all

@[simp] theorem ifLetSome_some (a : α) (f : α → Outcome ε Unit) : ifLetSome (some a) f = f a := rfl
@[simp] theorem ifLetSome_none (f : α → Outcome ε Unit) : ifLetSome none f = ok () := rfl

theorem ifLetSome_eq_ok {o : Option α} {f : α → Outcome ε Unit} {u : Unit} :
    ifLetSome o f = ok u ↔ ∀ a, o = some a → f a = ok u := by
  cases o <;> simp

theorem rejectIf_pos {c : Prop} [Decidable c] {e : ε} (h : c) : rejectIf c e = err e := if_pos h
theorem rejectIf_neg {c : Prop} [Decidable c] {e : ε} (h : ¬c) : rejectIf c e = ok () := if_neg h

@[simp] theorem rejectIf_ne_panic (c : Prop) [Decidable c] (e : ε) : rejectIf c e ≠ panic := by
  unfold rejectIf; split <;> simp

theorem ofResult_eq_ok {x : Except ε α} {a : α} : ofResult x = ok a ↔ x = .ok a := by
  cases x <;> simp [ofResult]

@[simp] theorem ofResult_ne_panic (x : Except ε α) : ofResult x ≠ panic := by
  cases x <;> simp [ofResult]

/-- A call that neither succeeds nor panics returns an `Err`. -/
theorem isErr_iff {x : Outcome ε α} : x.IsErr ↔ x ≠ panic ∧ ∀ a, x ≠ ok a := by
  cases x <;> simp [IsErr]

/-- A call that does not panic returns. -/
theorem ok_or_isErr {x : Outcome ε α} (h : x ≠ panic) : (∃ a, x = ok a) ∨ x.IsErr := by
  cases x with
  | ok a => exact Or.inl ⟨a, rfl⟩
  | err e => exact Or.inr ⟨e, rfl⟩
  | panic => contradiction

end Outcome

end Rust
