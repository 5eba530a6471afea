import CoachingCalendar.Lib.Prog

/-!
# Programs over two sets of operations

A program over one of them is a program over both. It follows a protocol over both when it follows the part of it
that is about its own operations.
-/

namespace Lib

variable {Op₁ Op₂ : Type} {A : Op₁ → Type} {B : Op₂ → Type} {ε α β σ : Type}

/-- The answers to the operations of both. -/
@[reducible] def SumAns (A : Op₁ → Type) (B : Op₂ → Type) : Op₁ ⊕ Op₂ → Type
  | .inl o => A o
  | .inr o => B o

namespace Prog

def inl : Prog A ε α → Prog (SumAns A B) ε α
  | .pure a => .pure a
  | .throw e => .throw e
  | .op o k => .op (.inl o) fun r => (k r).inl

def inr : Prog B ε α → Prog (SumAns A B) ε α
  | .pure a => .pure a
  | .throw e => .throw e
  | .op o k => .op (.inr o) fun r => (k r).inr

end Prog

namespace Protocol

/-- What it says about the operations of the first set. -/
def left (R : Protocol (SumAns A B) ε σ) : Protocol A ε σ where
  answers o r := R.answers (.inl o) r
  next s e := R.next s ⟨.inl e.op, e.res⟩
  allowed s o := R.allowed s (.inl o)

def right (R : Protocol (SumAns A B) ε σ) : Protocol B ε σ where
  answers o r := R.answers (.inr o) r
  next s e := R.next s ⟨.inr e.op, e.res⟩
  allowed s o := R.allowed s (.inr o)

end Protocol

namespace Prog

variable {R : Protocol (SumAns A B) ε σ} {final : σ → Except ε α → Prop} {s : σ}

@[simp] theorem follows_inl {p : Prog A ε α} :
    (p.inl : Prog (SumAns A B) ε α).Follows R final s ↔ p.Follows R.left final s := by
  induction p generalizing s with
  | pure a => rfl
  | throw e => rfl
  | op o k ih => exact and_congr Iff.rfl (forall_congr' fun r => imp_congr Iff.rfl (ih r))

@[simp] theorem follows_inr {p : Prog B ε α} :
    (p.inr : Prog (SumAns A B) ε α).Follows R final s ↔ p.Follows R.right final s := by
  induction p generalizing s with
  | pure a => rfl
  | throw e => rfl
  | op o k ih => exact and_congr Iff.rfl (forall_congr' fun r => imp_congr Iff.rfl (ih r))

end Prog

end Lib
