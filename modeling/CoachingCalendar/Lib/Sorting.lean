import CoachingCalendar.Lib.Table
import Mathlib.Data.List.Perm.Subperm

/-! # Listings in an order -/

namespace Lib

variable {α κ ρ : Type}

/-! ## Sorting -/

section Sorted

variable {le : α → α → Bool} {l : List α}

theorem getLast?_mergeSort (trans : ∀ a b c, le a b → le b c → le a c) (total : ∀ a b, le a b || le b a) {e : α}
    (he : e ∈ l) (hmax : ∀ x ∈ l, x ≠ e → le e x = false) : (l.mergeSort le).getLast? = some e := by
  have hsorted := List.pairwise_mergeSort trans total l
  have hmem : e ∈ l.mergeSort le := List.mem_mergeSort.mpr he
  rcases List.eq_nil_or_concat (l.mergeSort le) with hnil | ⟨init, z, hz⟩
  · rw [hnil] at hmem
    cases hmem
  rw [hz, List.concat_eq_append] at hsorted hmem ⊢
  rw [List.getLast?_concat]
  rcases List.mem_append.mp hmem with hinit | hlast
  · have hle : le e z = true := (List.pairwise_append.mp hsorted).2.2 e hinit z List.mem_cons_self
    have hzl : z ∈ l := List.mem_mergeSort.mp (by rw [hz, List.concat_eq_append]; simp)
    by_contra hne
    rw [hmax z hzl fun h => hne (congrArg some h)] at hle
    cases hle
  · rw [List.mem_singleton.mp hlast]

end Sorted

/-! ## Keys in a given order -/

section Keys

variable [DecidableEq κ] {keys : List κ}

theorem pairwise_idxOf (h : keys.Nodup) : keys.Pairwise fun a b => keys.idxOf a ≤ keys.idxOf b := by
  refine List.pairwise_iff_getElem.mpr fun i j hi hj hij => ?_
  rw [h.idxOf_getElem i hi, h.idxOf_getElem j hj]
  exact Nat.le_of_lt hij

theorem map_filter_eq_keys {key : ρ → κ} {rows : List ρ} (hkeys : keys.Nodup) (hrows : (rows.map key).Nodup)
    (hmem : ∀ k ∈ keys, k ∈ rows.map key)
    (hsorted : rows.Pairwise fun a b => key a ∈ keys → key b ∈ keys → keys.idxOf (key a) ≤ keys.idxOf (key b)) :
    (rows.map key).filter (keys.contains ·) = keys := by
  have hin : ∀ k, k ∈ (rows.map key).filter (keys.contains ·) ↔ k ∈ keys := by
    intro k
    rw [List.mem_filter, List.contains_iff_mem]
    exact ⟨fun h => h.2, fun h => ⟨hmem k h, h⟩⟩
  refine List.Perm.eq_of_pairwise (fun a b ha _ (hab : keys.idxOf a ≤ keys.idxOf b) hba => ?_) ?_
    (pairwise_idxOf hkeys) ((List.perm_ext_iff_of_nodup (hrows.filter _) hkeys).mpr hin)
  · exact (List.idxOf_inj ((hin a).mp ha)).mp (Nat.le_antisymm hab hba)
  · have hall : ((rows.map key).filter (keys.contains ·)).Pairwise
        fun a b => a ∈ keys → b ∈ keys → keys.idxOf a ≤ keys.idxOf b :=
      List.Pairwise.sublist List.filter_sublist (List.pairwise_map.mpr hsorted)
    exact hall.imp_of_mem fun ha hb h => h ((hin _).mp ha) ((hin _).mp hb)

theorem Table.keys_perm {key : ρ → κ} {t : Table key} {p : ρ → Bool}
    (h : (t.findMany fun r => keys.contains (key r) && p r).length = keys.length) :
    ((t.findMany fun r => keys.contains (key r) && p r).map key).Perm keys := by
  have hnodup : ((t.findMany fun r => keys.contains (key r) && p r).map key).Nodup :=
    t.nodup.sublist (List.filter_sublist.map key)
  have hsub : (t.findMany fun r => keys.contains (key r) && p r).map key ⊆ keys := by
    intro k hk
    obtain ⟨r, hr, rfl⟩ := List.mem_map.mp hk
    have := (mem_findMany.mp hr).2
    rw [Bool.and_eq_true, List.contains_iff_mem] at this
    exact this.1
  exact (hnodup.subperm hsub).perm_of_length_le (Nat.le_of_eq (by rw [List.length_map, h]))

end Keys

end Lib
