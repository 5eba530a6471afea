import Mathlib.Data.List.Basic
import Mathlib.Data.Nat.Find
import Mathlib.Logic.Function.Iterate

/-!
# Counting loops

`for (let x = init; cond(x); x = step(x))` visits a list of values. The fuel bounds the number of
tests. Without enough fuel there is no result.
-/

namespace Lib

variable {σ : Type}

/-- The values for which the body of the loop runs, in order. -/
def visited (cond : σ → Bool) (step : σ → σ) : Nat → σ → Option (List σ)
  | 0, _ => none
  | n + 1, x => if cond x then (visited cond step n (step x)).map (x :: ·) else some []

variable {cond : σ → Bool} {step : σ → σ}

/-- A loop ends after the first value that fails the test, and visits all values before it. -/
theorem visited_eq_some_iff {fuel : Nat} {x : σ} {xs : List σ} : visited cond step fuel x = some xs ↔
    ∃ n < fuel, xs = (List.range n).map (fun j => step^[j] x) ∧ (∀ j < n, cond (step^[j] x) = true) ∧
      cond (step^[n] x) = false := by
  induction fuel generalizing x xs with
  | zero => simp [visited]
  | succ fuel ih =>
      cases hc : cond x with
      | false =>
          simp only [visited, hc, Bool.false_eq_true, if_false, Option.some.injEq]
          constructor
          · rintro rfl
            exact ⟨0, Nat.succ_pos _, rfl, by simp, hc⟩
          · rintro ⟨n, -, rfl, hall, -⟩
            rcases n with _ | n
            · rfl
            · exact absurd (hc.symm.trans (hall 0 n.succ_pos)) (by decide)
      | true =>
          simp only [visited, hc, if_true, Option.map_eq_some_iff, ih]
          constructor
          · rintro ⟨_, ⟨n, hn, rfl, hall, hend⟩, rfl⟩
            refine ⟨n + 1, by omega, ?_, fun j hj => ?_, hend⟩
            · rw [List.range_succ_eq_map, List.map_cons, List.map_map]
              rfl
            · rcases j with _ | j
              · exact hc
              · exact hall j (by omega)
          · rintro ⟨n, hn, rfl, hall, hend⟩
            rcases n with _ | n
            · exact absurd (hend.symm.trans hc) (by decide)
            · refine ⟨_, ⟨n, by omega, rfl, fun j hj => hall (j + 1) (by omega), hend⟩, ?_⟩
              rw [List.range_succ_eq_map, List.map_cons, List.map_map]
              rfl

theorem visited_ends {n : Nat} {x : σ} (h : cond (step^[n] x) = false) :
    ∃ xs, ∀ fuel, n < fuel → visited cond step fuel x = some xs := by
  have hex : ∃ n, cond (step^[n] x) = false := ⟨n, h⟩
  refine ⟨_, fun fuel hf => visited_eq_some_iff.mpr ⟨Nat.find hex, ?_, rfl, fun j hj => ?_, Nat.find_spec hex⟩⟩
  · exact lt_of_le_of_lt (Nat.find_min' hex h) hf
  · simpa using Nat.find_min hex hj

theorem mem_of_mapM {α β : Type} {f : α → Option β} {xs : List α} {ys : List β} (h : xs.mapM f = some ys)
    {y : β} (hy : y ∈ ys) : ∃ x ∈ xs, f x = some y := by
  induction xs generalizing ys with
  | nil => simp at h; subst h; cases hy
  | cons x xs ih =>
      simp only [List.mapM_cons, Option.bind_eq_bind, Option.bind_eq_some_iff, Option.pure_def,
        Option.some.injEq] at h
      obtain ⟨z, hz, zs, hzs, rfl⟩ := h
      rcases List.mem_cons.mp hy with rfl | hy
      · exact ⟨x, List.mem_cons_self, hz⟩
      · obtain ⟨x', hx', hf⟩ := ih hzs hy
        exact ⟨x', List.mem_cons_of_mem _ hx', hf⟩

theorem mapM_eq_map {α β : Type} {f : α → Option β} {g : α → β} {xs : List α} (h : ∀ x ∈ xs, f x = some (g x)) :
    xs.mapM f = some (xs.map g) := by
  induction xs with
  | nil => rfl
  | cons x xs ih =>
      rw [List.mapM_cons, h x List.mem_cons_self, ih fun y hy => h y (List.mem_cons_of_mem _ hy)]
      rfl

theorem eq_map_of_mapM {α β : Type} {f : α → Option β} {g : α → β} {xs : List α} {ys : List β}
    (h : xs.mapM f = some ys) (hg : ∀ x ∈ xs, ∀ y, f x = some y → y = g x) : ys = xs.map g := by
  induction xs generalizing ys with
  | nil => simpa using h.symm
  | cons x xs ih =>
      simp only [List.mapM_cons, Option.bind_eq_bind, Option.bind_eq_some_iff, Option.pure_def,
        Option.some.injEq] at h
      obtain ⟨z, hz, zs, hzs, rfl⟩ := h
      rw [List.map_cons, hg x List.mem_cons_self z hz, ih hzs fun y hy => hg y (List.mem_cons_of_mem _ hy)]

/-! ## Counting up -/

/-- The values from `start` in steps of `d` that are a step before `stop`. -/
def stepsTo (d start stop : Int) : List Int :=
  if 0 < d then (List.range ((stop - start) / d).toNat).map fun k : Nat => start + k * d else []

theorem lt_steps_iff {d : Int} (hd : 0 < d) (start stop : Int) (k : Nat) :
    k < ((stop - start) / d).toNat ↔ start + k * d + d ≤ stop := by
  have h : (k : Int) + 1 ≤ (stop - start) / d ↔ ((k : Int) + 1) * d ≤ stop - start := Int.le_ediv_iff_mul_le hd
  rw [Int.add_mul] at h
  omega

theorem mem_stepsTo {d start stop m : Int} :
    m ∈ stepsTo d start stop ↔ 0 < d ∧ ∃ k : Nat, m = start + k * d ∧ m + d ≤ stop := by
  unfold stepsTo
  split
  · rename_i hd
    simp only [List.mem_map, List.mem_range, hd, true_and]
    have hlt := fun k => lt_steps_iff hd start stop k
    constructor
    · rintro ⟨k, hk, rfl⟩
      exact ⟨k, rfl, (hlt k).mp hk⟩
    · rintro ⟨k, rfl, hk⟩
      exact ⟨k, (hlt k).mpr hk, rfl⟩
  · rename_i hd
    simp [hd]

theorem mem_stepsTo_le {d start stop m : Int} (h : m ∈ stepsTo d start stop) : start ≤ m ∧ m + d ≤ stop := by
  obtain ⟨hd, k, rfl, hk⟩ := mem_stepsTo.mp h
  have : 0 ≤ (k : Int) * d := Int.mul_nonneg (by omega) (by omega)
  omega

theorem pairwise_stepsTo (d start stop : Int) : (stepsTo d start stop).Pairwise fun m n => m + d ≤ n := by
  unfold stepsTo
  split
  · rename_i hd
    rw [List.pairwise_map]
    refine List.pairwise_lt_range.imp fun {i j} hij => ?_
    have h : ((i : Int) + 1) * d ≤ j * d := Int.mul_le_mul_of_nonneg_right (by omega) (Int.le_of_lt hd)
    rw [Int.add_mul] at h
    omega
  · exact .nil

theorem iterate_add (d x : Int) (n : Nat) : (· + d)^[n] x = x + n * d := by
  induction n with
  | zero => simp
  | succ n ih =>
      rw [Function.iterate_succ_apply', ih]
      push_cast
      rw [Int.add_mul]
      omega

theorem visited_steps {d start stop : Int} {fuel : Nat} {xs : List Int}
    (h : visited (fun m => m + d ≤ stop) (· + d) fuel start = some xs) : xs = stepsTo d start stop := by
  obtain ⟨n, -, rfl, hall, hend⟩ := visited_eq_some_iff.mp h
  simp only [iterate_add, decide_eq_true_eq, decide_eq_false_iff_not] at hall hend ⊢
  unfold stepsTo
  split
  · rename_i hd
    have hn : n = ((stop - start) / d).toNat := by
      have hle := mt (lt_steps_iff hd start stop n).mp hend
      rcases n with _ | n
      · omega
      · have := (lt_steps_iff hd start stop n).mpr (hall n n.lt_succ_self)
        omega
    rw [hn]
  · rename_i hd
    rcases n with _ | n
    · rfl
    · -- a loop that does not count up cannot end after its test has held
      have h := hall n n.lt_succ_self
      have hle : ((n : Int) + 1) * d ≤ n * d := Int.mul_le_mul_of_nonpos_right (by omega) (by omega)
      push_cast at hend
      omega

theorem visited_steps_ends {d start stop : Int} (hd : 0 < d) {fuel : Nat} (hf : (stop - start).toNat < fuel) :
    visited (fun m => m + d ≤ stop) (· + d) fuel start = some (stepsTo d start stop) := by
  obtain ⟨xs, hxs⟩ := @visited_ends _ (fun m => m + d ≤ stop) (· + d) (stop - start).toNat start (by
    rw [iterate_add, decide_eq_false_iff_not]
    have : (stop - start).toNat * 1 ≤ (stop - start).toNat * d := Int.mul_le_mul_of_nonneg_left (by omega) (by omega)
    omega)
  exact visited_steps (hxs fuel hf) ▸ hxs fuel hf

end Lib
