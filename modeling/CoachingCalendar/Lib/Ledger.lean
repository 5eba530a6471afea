import Mathlib.Logic.Function.Basic
import Mathlib.Order.Defs.PartialOrder

/-!
# Ledgers of exclusive holds

A holder has a resource for an interval `[start, stop)`. A ledger is an assignment of holds in which
no resource is held twice at one time. This is what a booking table is for: the ledger says nothing
about rows, statements or transactions.
-/

namespace Lib

variable {ι ρ τ : Type}

/-- A resource for the half-open interval `[start, stop)`. -/
structure Hold (ρ τ : Type) where
  resource : ρ
  start : τ
  stop : τ
  deriving DecidableEq, Repr

variable [LT τ]

/-- The two intervals have a common point when neither is empty. -/
def Hold.Meets (x y : Hold ρ τ) : Prop := x.start < y.stop ∧ y.start < x.stop

theorem Hold.Meets.symm {x y : Hold ρ τ} (h : x.Meets y) : y.Meets x := ⟨h.2, h.1⟩

/-- Nobody but `i` has the resource of `x` at a time of `x`. -/
def FreeFor (held : ι → Option (Hold ρ τ)) (i : ι) (x : Hold ρ τ) : Prop :=
  ∀ j y, j ≠ i → held j = some y → y.resource = x.resource → ¬ y.Meets x

/-- Every hold of `held` is also one of `held'`. -/
def Below (held held' : ι → Option (Hold ρ τ)) : Prop := ∀ i x, held i = some x → held' i = some x

omit [LT τ] in
theorem Below.refl (held : ι → Option (Hold ρ τ)) : Below held held := fun _ _ h => h

theorem FreeFor.anti {held held' : ι → Option (Hold ρ τ)} {i : ι} {x : Hold ρ τ}
    (hb : Below held held') (h : FreeFor held' i x) : FreeFor held i x :=
  fun j y hj hy => h j y hj (hb j y hy)

/-- Holds of which no two are for one resource at one time. -/
structure Ledger (ι ρ τ : Type) [LT τ] where
  held : ι → Option (Hold ρ τ)
  exclusive : ∀ i x, held i = some x → FreeFor held i x

namespace Ledger

def empty : Ledger ι ρ τ := ⟨fun _ => none, by simp⟩

variable [DecidableEq ι]

/-- `i` gives up its hold. -/
def release (ℓ : Ledger ι ρ τ) (i : ι) : Ledger ι ρ τ where
  held := Function.update ℓ.held i none
  exclusive j x hj k y hk hy := by
    have keep : ∀ {m z}, Function.update ℓ.held i none m = some z → ℓ.held m = some z := by
      intro m z hm
      by_cases he : m = i
      · subst he; simp at hm
      · rwa [Function.update_of_ne he] at hm
    exact ℓ.exclusive j x (keep hj) k y hk (keep hy)

/-- `i` takes `x` in place of what it had. -/
def place (ℓ : Ledger ι ρ τ) (i : ι) (x : Hold ρ τ) (hx : FreeFor ℓ.held i x) : Ledger ι ρ τ where
  held := Function.update ℓ.held i (some x)
  exclusive j y hj k z hk hz hr := by
    by_cases hji : j = i
    · subst hji
      rw [Function.update_self] at hj; cases hj
      rw [Function.update_of_ne hk] at hz
      exact hx k z hk hz hr
    · rw [Function.update_of_ne hji] at hj
      by_cases hki : k = i
      · subst hki
        rw [Function.update_self] at hz; cases hz
        exact fun hm => hx j y hji hj hr.symm hm.symm
      · rw [Function.update_of_ne hki] at hz
        exact ℓ.exclusive j y hj k z hk hz hr

@[simp] theorem release_held (ℓ : Ledger ι ρ τ) (i : ι) :
    (ℓ.release i).held = Function.update ℓ.held i none := rfl

@[simp] theorem place_held (ℓ : Ledger ι ρ τ) (i : ι) (x : Hold ρ τ) (hx : FreeFor ℓ.held i x) :
    (ℓ.place i x hx).held = Function.update ℓ.held i (some x) := rfl

/-- The changes a ledger admits. -/
inductive Step : Ledger ι ρ τ → Ledger ι ρ τ → Prop
  | stay {ℓ} : Step ℓ ℓ
  | release {ℓ} (i : ι) : Step ℓ (ℓ.release i)
  | place {ℓ} (i : ι) (x : Hold ρ τ) (hx : FreeFor ℓ.held i x) : Step ℓ (ℓ.place i x hx)

end Ledger

end Lib
