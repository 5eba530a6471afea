import Mathlib.Data.List.Nodup
import Mathlib.Data.List.Basic

/-!
# Tables with a primary key

A table is a list of rows whose keys are distinct. The distinctness is a field, so no operation can
build a table with two rows of one key.
-/

namespace Lib

variable {ρ κ : Type}

/-- Rows with distinct keys, in insertion order. -/
structure Table (key : ρ → κ) where
  rows : List ρ
  nodup : (rows.map key).Nodup

namespace Table

variable {key : ρ → κ}

instance [DecidableEq ρ] : DecidableEq (Table key) := fun a b =>
  decidable_of_iff (a.rows = b.rows) ⟨fun h => by cases a; cases b; simp_all, fun h => by rw [h]⟩

instance [Repr ρ] : Repr (Table key) := ⟨fun t n => reprPrec t.rows n⟩

def empty : Table key := ⟨[], List.nodup_nil⟩

instance : Inhabited (Table key) := ⟨empty⟩

instance : Membership ρ (Table key) := ⟨fun t r => r ∈ t.rows⟩

/-- `findUnique` on the primary key. -/
def find [DecidableEq κ] (t : Table key) (k : κ) : Option ρ := t.rows.find? fun r => key r = k

/-- `findFirst`: the first row that satisfies the condition. -/
def findFirst (t : Table key) (p : ρ → Bool) : Option ρ := t.rows.find? p

/-- `findMany`. -/
def findMany (t : Table key) (p : ρ → Bool) : List ρ := t.rows.filter p

/-- `create`. There is no result when the key is taken. -/
def insert [DecidableEq κ] (t : Table key) (r : ρ) : Option (Table key) :=
  if h : key r ∈ t.rows.map key then none
  else some ⟨t.rows ++ [r], by
    rw [List.map_append, List.nodup_append]
    refine ⟨t.nodup, List.nodup_singleton _, fun a ha b hb he => ?_⟩
    rw [List.map_singleton, List.mem_singleton] at hb
    exact h (hb ▸ he ▸ ha)⟩

/-- `update` by primary key. The change keeps the key. -/
def update [DecidableEq κ] (t : Table key) (k : κ) (f : ρ → ρ) (hf : ∀ r, key (f r) = key r) : Table key :=
  ⟨t.rows.map fun r => if key r = k then f r else r, by
    have he : (key ∘ fun r => if key r = k then f r else r) = key := by
      funext r; simp only [Function.comp]; split <;> simp [hf]
    rw [List.map_map, he]; exact t.nodup⟩

/-- `delete` by primary key. -/
def delete [DecidableEq κ] (t : Table key) (k : κ) : Table key :=
  ⟨t.rows.filter fun r => key r ≠ k, t.nodup.sublist (List.filter_sublist.map key)⟩

theorem not_mem_empty {r : ρ} : r ∉ (empty : Table key) := List.not_mem_nil

/-! ## Lookup -/

@[simp] theorem mem_rows {t : Table key} {r : ρ} : r ∈ t.rows ↔ r ∈ t := Iff.rfl

theorem length_le_one_of_key {l : List ρ} (h : (l.map key).Nodup)
    (hk : ∀ x ∈ l, ∀ y ∈ l, key x = key y) : l.length ≤ 1 := by
  match l with
  | [] => exact Nat.zero_le _
  | [_] => exact Nat.le_refl _
  | x :: y :: l =>
      rw [List.map_cons, List.map_cons, List.nodup_cons] at h
      refine absurd ?_ h.1
      rw [hk x (by simp) y (by simp)]
      exact List.mem_cons_self

theorem eq_of_key {t : Table key} {r s : ρ} (hr : r ∈ t) (hs : s ∈ t) (hk : key r = key s) : r = s :=
  List.inj_on_of_nodup_map t.nodup hr hs hk

theorem findFirst_none {t : Table key} {p : ρ → Bool} :
    t.findFirst p = none ↔ ∀ r ∈ t, p r = false := by
  simp [findFirst, List.find?_eq_none]

theorem findFirst_some {t : Table key} {p : ρ → Bool} {r : ρ} (h : t.findFirst p = some r) :
    r ∈ t ∧ p r = true :=
  ⟨List.mem_of_find?_eq_some h, List.find?_some h⟩

theorem mem_findMany {t : Table key} {p : ρ → Bool} {r : ρ} : r ∈ t.findMany p ↔ r ∈ t ∧ p r = true := by
  simp [findMany]

variable [DecidableEq κ]

theorem find_some {t : Table key} {k : κ} {r : ρ} : t.find k = some r ↔ r ∈ t ∧ key r = k := by
  constructor
  · intro h
    exact ⟨List.mem_of_find?_eq_some h, by simpa using List.find?_some h⟩
  · rintro ⟨hr, rfl⟩
    cases hf : t.find (key r) with
    | none =>
        have := List.find?_eq_none.mp hf r hr
        simp at this
    | some s =>
        have hs : s ∈ t := List.mem_of_find?_eq_some hf
        have hk : key s = key r := by simpa using List.find?_some hf
        rw [eq_of_key hs hr hk]

theorem find_none {t : Table key} {k : κ} : t.find k = none ↔ ∀ r ∈ t, key r ≠ k := by
  simp only [find, List.find?_eq_none, decide_eq_true_eq, mem_rows, ne_eq]

theorem find_key {t : Table key} {k : κ} {r : ρ} (h : t.find k = some r) : key r = k :=
  (find_some.mp h).2

theorem find_mem {t : Table key} {k : κ} {r : ρ} (h : t.find k = some r) : r ∈ t :=
  (find_some.mp h).1

theorem find_self {t : Table key} {k : κ} {r : ρ} (h : t.find k = some r) : t.find (key r) = some r := by
  rwa [find_key h]

/-! ## `create` -/

theorem insert_some {t t' : Table key} {r : ρ} (h : t.insert r = some t') :
    t.find (key r) = none ∧ t'.rows = t.rows ++ [r] := by
  unfold insert at h
  split at h
  · cases h
  · rename_i hn
    cases h
    refine ⟨find_none.mpr fun s hs he => hn (List.mem_map.mpr ⟨s, hs, he⟩), rfl⟩

theorem insert_of_fresh {t : Table key} {r : ρ} (h : t.find (key r) = none) :
    ∃ t', t.insert r = some t' := by
  have hn : ¬ key r ∈ t.rows.map key := by
    simp only [List.mem_map, not_exists, not_and]
    exact find_none.mp h
  exact ⟨_, dif_neg hn⟩

theorem mem_insert {t t' : Table key} {r s : ρ} (h : t.insert r = some t') :
    s ∈ t' ↔ s ∈ t ∨ s = r := by
  rw [← mem_rows, (insert_some h).2, List.mem_append, List.mem_singleton]; rfl

theorem find_insert {t t' : Table key} {r : ρ} {k : κ} (h : t.insert r = some t') :
    t'.find k = if k = key r then some r else t.find k := by
  split
  · rename_i hk
    exact find_some.mpr ⟨(mem_insert h).mpr (Or.inr rfl), hk.symm⟩
  · rename_i hk
    cases hf : t.find k with
    | none =>
        refine find_none.mpr fun s hs => ?_
        rcases (mem_insert h).mp hs with hs | rfl
        · exact find_none.mp hf s hs
        · exact fun he => hk he.symm
    | some s =>
        have hs := find_some.mp hf
        exact find_some.mpr ⟨(mem_insert h).mpr (Or.inl hs.1), hs.2⟩

theorem find_insert_of_some {t t' : Table key} {r s : ρ} {k : κ} (h : t.insert r = some t')
    (hs : t.find k = some s) : t'.find k = some s := by
  rw [find_insert h, if_neg, hs]
  rintro rfl
  rw [(insert_some h).1] at hs
  cases hs

/-! ## `update` -/

theorem mem_update {t : Table key} {k : κ} {f : ρ → ρ} (hf : ∀ r, key (f r) = key r) {s : ρ} :
    s ∈ t.update k f hf ↔ ∃ r ∈ t, s = if key r = k then f r else r := by
  rw [← mem_rows]
  simp only [update, List.mem_map, mem_rows]
  exact ⟨fun ⟨r, hr, he⟩ => ⟨r, hr, he.symm⟩, fun ⟨r, hr, he⟩ => ⟨r, hr, he.symm⟩⟩

theorem find_update {t : Table key} {k k' : κ} {f : ρ → ρ} {hf : ∀ r, key (f r) = key r} :
    (t.update k f hf).find k' = if k' = k then (t.find k).map f else t.find k' := by
  cases h : t.find k' with
  | none =>
      have hn : (t.update k f hf).find k' = none := by
        refine find_none.mpr fun s hs => ?_
        obtain ⟨r, hr, rfl⟩ := (mem_update hf).mp hs
        have := find_none.mp h r hr
        split
        · rwa [hf]
        · exact this
      rw [hn]
      split
      · rename_i hk; subst hk; rw [h]; rfl
      · rfl
  | some r =>
      obtain ⟨hr, hk⟩ := find_some.mp h
      subst hk
      split
      · rename_i hk
        rw [← hk, h]
        exact find_some.mpr ⟨(mem_update hf).mpr ⟨r, hr, by simp [hk]⟩, hf r⟩
      · rename_i hk
        exact find_some.mpr ⟨(mem_update hf).mpr ⟨r, hr, by simp [hk]⟩, rfl⟩

theorem update_of_eq {t : Table key} {k : κ} {r : ρ} {f : ρ → ρ} (hf : ∀ r, key (f r) = key r)
    (h : t.find k = some r) (hr : f r = r) : t.update k f hf = t := by
  have hrows : (t.rows.map fun s => if key s = k then f s else s) = t.rows := by
    refine (List.map_congr_left fun s hs => ?_).trans (List.map_id _)
    split
    · rename_i hk
      rw [eq_of_key hs (find_mem h) (hk.trans (find_key h).symm), hr]
      rfl
    · rfl
  cases t
  simp only [update, Table.mk.injEq]
  exact hrows

theorem find_update_of_ne {t : Table key} {k k' : κ} {f : ρ → ρ} (hf : ∀ r, key (f r) = key r)
    (h : k' ≠ k) : (t.update k f hf).find k' = t.find k' := by rw [find_update, if_neg h]

theorem find_update_of_some {t : Table key} {k : κ} {r : ρ} {f : ρ → ρ} (k' : κ)
    (hf : ∀ r, key (f r) = key r) (h : t.find k = some r) :
    (t.update k' f hf).find k = some (if k = k' then f r else r) := by
  rw [find_update]
  split
  · rename_i hk; rw [← hk, h]; rfl
  · exact h

theorem find_update_found {t : Table key} {r : ρ} {f : ρ → ρ} (hf : ∀ r, key (f r) = key r)
    (h : t.find (key r) = some r) : (t.update (key r) f hf).find (key r) = some (f r) :=
  (find_update_of_some _ hf h).trans (by rw [if_pos rfl])

/-! ## `delete` -/

@[simp] theorem mem_delete {t : Table key} {k : κ} {r : ρ} : r ∈ t.delete k ↔ r ∈ t ∧ key r ≠ k := by
  rw [← mem_rows]
  simp [delete]

/-! ## Conditions on all rows -/

section Forall

variable {Q : ρ → Prop} {t t' : Table key}

theorem forall_insert {r : ρ} (h : t.insert r = some t') (ht : ∀ s ∈ t, Q s) (hr : Q r) : ∀ s ∈ t', Q s := by
  intro s hs
  rcases (mem_insert h).mp hs with hs | rfl
  · exact ht s hs
  · exact hr

theorem forall_update {k : κ} {f : ρ → ρ} (hf : ∀ r, key (f r) = key r) (ht : ∀ s ∈ t, Q s)
    (hQ : ∀ s ∈ t, key s = k → Q s → Q (f s)) : ∀ s ∈ t.update k f hf, Q s := by
  intro s hs
  obtain ⟨r, hr, rfl⟩ := (mem_update hf).mp hs
  split
  · exact hQ r hr ‹_› (ht r hr)
  · exact ht r hr

theorem forall_delete {k : κ} (ht : ∀ s ∈ t, Q s) : ∀ s ∈ t.delete k, Q s := fun s hs => ht s (mem_delete.mp hs).1

end Forall

end Table

end Lib
