import Mathlib.Tactic

/-!
# Computations that avoid bad errors

`Avoids.bind_iff` takes a sequence of steps apart, `bind_eq_ok_iff` where it returns. That a
computation returns a value with a decidable property is decidable.
-/

variable {ε α β : Type} {Bad : ε → Prop}

def Avoids (Bad : ε → Prop) (x : Except ε α) : Prop := ∀ e, x = .error e → ¬ Bad e

variable {x : Except ε α} {f : α → Except ε β}

theorem bind_eq_ok_iff {b : β} : x >>= f = .ok b ↔ ∃ a, x = .ok a ∧ f a = .ok b := by
  cases x with
  | error e => simp [bind, Except.bind]
  | ok a => simp [bind, Except.bind]

theorem map_eq_ok_iff {g : α → β} {b : β} : x.map g = .ok b ↔ ∃ a, x = .ok a ∧ g a = b := by
  cases x <;> simp [Except.map]

section
variable {p : α → Prop} [DecidablePred p]

instance decidableExistsOk : (x : Except ε α) → Decidable (∃ a, x = .ok a ∧ p a)
  | .ok a => decidable_of_iff (p a) (by simp)
  | .error _ => isFalse (by simp)

instance decidableExistsSome : (x : Option α) → Decidable (∃ a, x = some a ∧ p a)
  | some a => decidable_of_iff (p a) (by simp)
  | none => isFalse (by simp)

instance decidableExistsOkSome :
    (x : Except ε (Option α)) → Decidable (∃ a, x = .ok (some a) ∧ p a)
  | .ok (some a) => decidable_of_iff (p a) (by simp)
  | .ok none | .error _ => isFalse (by simp)

instance decidableExistsReturned (x : Except ε (Option α)) : Decidable (∃ a, x = .ok (some a)) :=
  decidable_of_iff (∃ a, x = .ok (some a) ∧ True) (by simp)

end

namespace Avoids

@[simp] theorem pure_iff (a : α) : Avoids Bad (pure a : Except ε α) ↔ True := by
  simp [Avoids, pure, Except.pure]

@[simp] theorem ok_iff (a : α) : Avoids Bad (.ok a : Except ε α) ↔ True := by
  simp [Avoids]

@[simp] theorem error_iff (e : ε) : Avoids Bad (.error e : Except ε α) ↔ ¬ Bad e := by
  simp [Avoids]

@[simp] theorem throw_iff (e : ε) : Avoids Bad (throw e : Except ε α) ↔ ¬ Bad e := by
  simp [Avoids, throw, throwThe, MonadExceptOf.throw]

theorem bind_iff : Avoids Bad (x >>= f) ↔ Avoids Bad x ∧ ∀ a, x = .ok a → Avoids Bad (f a) := by
  cases x with
  | error e => simp [Avoids, bind, Except.bind]
  | ok a => simp [Avoids, bind, Except.bind]

end Avoids
