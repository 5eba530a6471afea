import CoachingCalendar.Lib.Table

/-!
# Parts of tables

The rows of a table that satisfy a condition, and what operations on one row do to them. `Split` follows two
tables with the same rows in a part: they keep the part the same, and each keeps its rows outside the part.
-/

namespace Lib.Table

variable {ρ κ : Type} {key : ρ → κ} {p : ρ → Bool} {t t' t₁ t₂ : Table key} {k : κ} {r : ρ} {f : ρ → ρ}

theorem findMany_and (q : ρ → Bool) : (t.findMany fun r => p r && q r) = (t.findMany p).filter q := by
  simp only [findMany, List.filter_filter]
  exact List.filter_congr fun r _ => Bool.and_comm ..

theorem findMany_insert [DecidableEq κ] (h : t.insert r = some t') :
    t'.findMany p = t.findMany p ++ if p r then [r] else [] := by
  rw [findMany, (insert_some h).2, List.filter_append, List.filter_singleton]
  cases p r <;> rfl

theorem findMany_update [DecidableEq κ] {hf : ∀ r, key (f r) = key r} (hp : ∀ r, p (f r) = p r) :
    (t.update k f hf).findMany p = (t.findMany p).map fun r => if key r = k then f r else r := by
  have he : (p ∘ fun r => if key r = k then f r else r) = p := by
    funext r
    simp only [Function.comp]
    split <;> simp [hp]
  rw [findMany, update, List.filter_map, he, findMany]

theorem findMany_delete [DecidableEq κ] : (t.delete k).findMany p = (t.findMany p).filter fun r => key r ≠ k := by
  simp only [findMany, delete, List.filter_filter]
  exact List.filter_congr fun r _ => Bool.and_comm ..

theorem find_filter [DecidableEq κ] : (t.find k).filter p = (t.findMany p).find? fun r => key r = k := by
  cases hf : (t.findMany p).find? fun r => key r = k with
  | none =>
      rw [Option.filter_eq_none_iff]
      intro r hr hp
      obtain ⟨hm, hk⟩ := find_some.mp hr
      exact List.find?_eq_none.mp hf r (mem_findMany.mpr ⟨hm, hp⟩) (by simpa using hk)
  | some r =>
      obtain ⟨hm, hp⟩ := mem_findMany.mp (List.mem_of_find?_eq_some hf)
      have hk : key r = k := by simpa using List.find?_some hf
      rw [find_some.mpr ⟨hm, hk⟩, Option.filter_some, if_pos hp]

/-! ## Tables with the same part -/

def SamePart (p : ρ → Bool) (t t' : Table key) : Prop := t.findMany p = t'.findMany p

theorem SamePart.trans (h : SamePart p t₁ t₂) (h' : SamePart p t₂ t') : SamePart p t₁ t' := Eq.trans h h'

theorem SamePart.symm (h : SamePart p t₁ t₂) : SamePart p t₂ t₁ := Eq.symm h

theorem SamePart.mem (h : SamePart p t₁ t₂) (hp : p r = true) : r ∈ t₁ ↔ r ∈ t₂ := by
  have := congrArg (r ∈ ·) h
  simpa [mem_findMany, hp] using this

theorem SamePart.find_filter [DecidableEq κ] (h : SamePart p t₁ t₂) : (t₁.find k).filter p = (t₂.find k).filter p := by
  rw [Table.find_filter, Table.find_filter, h]

theorem SamePart.find [DecidableEq κ] (h : SamePart p t₁ t₂) (hr : t₁.find k = some r) (hp : p r = true) :
    t₂.find k = some r := by
  obtain ⟨hm, hk⟩ := find_some.mp hr
  exact find_some.mpr ⟨(h.mem hp).mp hm, hk⟩

theorem SamePart.find_eq [DecidableEq κ] (h : SamePart p t₁ t₂) (h₁ : ∀ r, t₁.find k = some r → p r = true)
    (h₂ : ∀ r, t₂.find k = some r → p r = true) : t₁.find k = t₂.find k := by
  have part : ∀ o : Option ρ, (∀ r, o = some r → p r = true) → o.filter p = o := by
    intro o ho
    cases o with
    | none => rfl
    | some r => simp [ho r rfl]
  have := h.find_filter (k := k)
  rwa [part _ h₁, part _ h₂] at this

/-- From `t₁` and `t₂` to `t₁'` and `t₂'`, the part is kept the same, and the rest as it was. -/
structure Split (p : ρ → Bool) (t₁ t₂ t₁' t₂' : Table key) : Prop where
  part : SamePart p t₁' t₂'
  left : SamePart (fun r => !p r) t₁ t₁'
  right : SamePart (fun r => !p r) t₂ t₂'

section Split

variable [DecidableEq κ] {t₁' t₂' : Table key}

theorem Split.insert (h : SamePart p t₁ t₂) (hp : p r = true) (h₁ : t₁.insert r = some t₁')
    (h₂ : t₂.insert r = some t₂') : Split p t₁ t₂ t₁' t₂' where
  part := by rw [SamePart, findMany_insert h₁, findMany_insert h₂, h]
  left := by simp [SamePart, findMany_insert h₁, hp]
  right := by simp [SamePart, findMany_insert h₂, hp]

theorem ne_of_rest (hr : t.find k = some r) (hp : p r = true) : ∀ s ∈ t.findMany fun r => !p r, key s ≠ k := by
  intro s hs hk
  obtain ⟨hm, hn⟩ := mem_findMany.mp hs
  cases (find_some.mpr ⟨hm, hk⟩).symm.trans hr
  simp [hp] at hn

theorem update_rest {hf : ∀ r, key (f r) = key r} (hpf : ∀ r, p (f r) = p r) (hr : t.find k = some r)
    (hp : p r = true) : SamePart (fun r => !p r) t (t.update k f hf) := by
  rw [SamePart, findMany_update fun r => by rw [hpf r]]
  exact ((List.map_congr_left fun s hs => if_neg (ne_of_rest hr hp s hs)).trans (List.map_id' _)).symm

theorem delete_rest (hr : t.find k = some r) (hp : p r = true) : SamePart (fun r => !p r) t (t.delete k) := by
  rw [SamePart, findMany_delete]
  exact (List.filter_eq_self.mpr fun s hs => by simpa using ne_of_rest hr hp s hs).symm

theorem Split.update (hf : ∀ r, key (f r) = key r) (h : SamePart p t₁ t₂) (hpf : ∀ r, p (f r) = p r)
    (hr : t₁.find k = some r) (hp : p r = true) : Split p t₁ t₂ (t₁.update k f hf) (t₂.update k f hf) where
  part := by rw [SamePart, findMany_update hpf, findMany_update hpf, h]
  left := update_rest hpf hr hp
  right := update_rest hpf (h.find hr hp) hp

theorem Split.delete (h : SamePart p t₁ t₂) (hr : t₁.find k = some r) (hp : p r = true) :
    Split p t₁ t₂ (t₁.delete k) (t₂.delete k) where
  part := by rw [SamePart, findMany_delete, findMany_delete, h]
  left := delete_rest hr hp
  right := delete_rest (h.find hr hp) hp

end Split

end Lib.Table
