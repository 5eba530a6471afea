import Mathlib.Algebra.BigOperators.Ring.Finset
import Mathlib.Algebra.Order.BigOperators.Group.Finset
import CoachingCalendar.Lib.Pool

/-!
# Counting calls

A tally adds up a number for every call of a pool, which depends on the call and on its own events. A move changes the
number of one call at most.
-/

namespace Lib
open Finset

variable {Op : Type} {Ans : Op → Type} {ε α World Choice Call Drift : Type}
variable {S : System Ans ε α World Choice Call Drift} {G : Guard Ans ε α World Call}
variable {c : Config Ans ε α World Call} {f g : Thread Ans ε α Call → List (Event Ans ε) → Nat}
variable {th th' : Thread Ans ε α Call} {w w' : World} {i : Nat}

namespace Config

/-- The number of call `i`. -/
def share (c : Config Ans ε α World Call) (f : Thread Ans ε α Call → List (Event Ans ε) → Nat) (i : Nat) : Nat :=
  c.threads[i]?.elim 0 fun th => f th (c.past i)

def tally (c : Config Ans ε α World Call) (f : Thread Ans ε α Call → List (Event Ans ε) → Nat) : Nat :=
  ∑ i ∈ range c.threads.length, c.share f i

theorem share_of_some (hi : c.threads[i]? = some th) : c.share f i = f th (c.past i) := by
  simp [share, hi]

theorem tally_congr (h : ∀ (i : Nat) th, c.threads[i]? = some th → f th (c.past i) = g th (c.past i)) :
    c.tally f = c.tally g := by
  refine sum_congr rfl fun i hi => ?_
  have hth := List.getElem?_eq_getElem (mem_range.mp hi)
  rw [share_of_some hth, share_of_some hth, h i _ hth]

theorem tally_le (h : ∀ (i : Nat) th, c.threads[i]? = some th → f th (c.past i) ≤ g th (c.past i)) :
    c.tally f ≤ c.tally g := by
  refine sum_le_sum fun i hi => ?_
  have hth := List.getElem?_eq_getElem (mem_range.mp hi)
  rw [share_of_some hth, share_of_some hth]
  exact h i _ hth

theorem tally_add : c.tally (fun th past => f th past + g th past) = c.tally f + c.tally g := by
  rw [tally, tally, tally, ← sum_add_distrib]
  refine sum_congr rfl fun i _ => ?_
  cases h : c.threads[i]? <;> simp [share, h]

theorem tally_mul (n : Nat) : c.tally (fun th past => n * f th past) = n * c.tally f := by
  rw [tally, tally, mul_sum]
  refine sum_congr rfl fun i _ => ?_
  cases h : c.threads[i]? <;> simp [share, h]

end Config

namespace System

/-- A call that is made counts as one that has done nothing. -/
theorem Run.tally_spawn (h : S.Run G (.start w) c) (f : Thread Ans ε α Call → List (Event Ans ε) → Nat) :
    (⟨w', c.threads ++ [th], c.log⟩ : Config Ans ε α World Call).tally f = c.tally f + f th [] := by
  unfold Config.tally
  rw [List.length_append, List.length_singleton, sum_range_succ]
  congr 1
  · refine sum_congr rfl fun i hi => ?_
    unfold Config.share
    rw [List.getElem?_append_left (mem_range.mp hi)]
    rfl
  · rw [Config.share_of_some (List.getElem?_concat_length ..)]
    congr 1
    exact h.past_nil (Nat.le_refl _)

/-- An operation changes the number of the call that issues it. -/
theorem tally_fire (w' : World) (th' : Thread Ans ε α Call) (hi : c.threads[i]? = some th)
    (f : Thread Ans ε α Call → List (Event Ans ε) → Nat) (e : Event Ans ε) :
    (⟨w', c.threads.set i th', c.log ++ [⟨e, i⟩]⟩ : Config Ans ε α World Call).tally f +
      f th (c.past i) = c.tally f + f th' (c.past i ++ [e]) := by
  have hlt := (List.getElem?_eq_some_iff.mp hi).1
  have hmem := mem_range.mpr hlt
  have hself : (⟨w', c.threads.set i th', c.log ++ [⟨e, i⟩]⟩ : Config Ans ε α World Call).share f i =
      f th' (c.past i ++ [e]) := by
    rw [Config.share_of_some (List.getElem?_set_self hlt), past_append, if_pos rfl]
  have hrest : ∑ j ∈ (range c.threads.length).erase i,
      (⟨w', c.threads.set i th', c.log ++ [⟨e, i⟩]⟩ : Config Ans ε α World Call).share f j =
      ∑ j ∈ (range c.threads.length).erase i, c.share f j := by
    refine sum_congr rfl fun j hj => ?_
    have hji := (mem_erase.mp hj).1
    rw [Config.share, Config.share, List.getElem?_set_ne (Ne.symm hji), past_append, if_neg (Ne.symm hji),
      List.append_nil]
  unfold Config.tally
  rw [List.length_set, ← add_sum_erase _ _ hmem, ← add_sum_erase (range c.threads.length) (c.share f) hmem, hself,
    hrest, Config.share_of_some hi]
  omega

end System

end Lib
