/-!
# Results of checks

`Except` computations, reduced to the result or the failure they end with.
-/

namespace Lib

variable {ε α β : Type}

@[simp] theorem throw_eq_error (e : ε) : (throw e : Except ε α) = .error e := rfl

@[simp] theorem pure_eq_ok (a : α) : (pure a : Except ε α) = .ok a := rfl

@[simp] theorem bind_ok (a : α) (f : α → Except ε β) : (Except.ok a >>= f) = f a := rfl

@[simp] theorem bind_error (e : ε) (f : α → Except ε β) : ((Except.error e : Except ε α) >>= f) = .error e := rfl

theorem unless_error {p : Prop} [Decidable p] {e : ε} {a b : α} :
    (if p then Except.error e else .ok a) = .ok b ↔ ¬ p ∧ a = b := by
  by_cases hp : p <;> simp [hp]

theorem bind_eq_ok {x : Except ε α} {f : α → Except ε β} {b : β} :
    (x >>= f) = .ok b ↔ ∃ a, x = .ok a ∧ f a = .ok b := by
  cases x <;> simp

/-- Both fail in the same way, or both succeed with related results. -/
inductive Alike (R : α → β → Prop) : Except ε α → Except ε β → Prop
  | ok {a b} : R a b → Alike R (.ok a) (.ok b)
  | error {e} : Alike R (.error e) (.error e)

theorem Alike.refl (x : Except ε α) : Alike Eq x x := by
  cases x with
  | ok a => exact .ok rfl
  | error e => exact .error

theorem Alike.bind {α' β' : Type} {R : α → β → Prop} {T : α' → β' → Prop} {x : Except ε α} {y : Except ε β}
    {f : α → Except ε α'} {g : β → Except ε β'} (h : Alike R x y) (hf : ∀ a b, R a b → Alike T (f a) (g b)) :
    Alike T (x >>= f) (y >>= g) := by
  cases h with
  | ok h => exact hf _ _ h
  | error => exact .error

theorem Alike.results {R : α → β → Prop} {x : Except ε α} {y : Except ε β} (h : Alike R x y) :
    Alike (fun a b => R a b ∧ x = .ok a ∧ y = .ok b) x y := by
  cases h with
  | ok h => exact .ok ⟨h, rfl, rfl⟩
  | error => exact .error

theorem refused_iff {x : Except ε α} : (∃ e, x = .error e) ↔ ∀ a, x ≠ .ok a := by
  cases x <;> simp

end Lib
