import CoachingCalendar.Lib.Checks
import CoachingCalendar.Lib.Table

/-!
# Changes of a schema

The statements with which SQL scripts change tables, and the constraints that stop them.
-/

namespace Lib

inductive SqlError where
  | notNull (column : String)
  | cast (column : String)
  | unique (constraint : String)
  | foreignKey (constraint : String)
  deriving DecidableEq, Repr

variable {ρ ρ' σ κ α : Type} {key : ρ → κ} {key' : ρ' → κ}

/-! ## Statements -/

theorem sublist_filterMap {f : ρ → Option ρ'} (hf : ∀ r s, f r = some s → key' s = key r) (rows : List ρ) :
    ((rows.filterMap f).map key').Sublist (rows.map key) := by
  induction rows with
  | nil => exact .slnil
  | cons r rows ih =>
      rw [List.filterMap_cons]
      split
      · exact ih.cons _
      · rename_i s hs
        rw [List.map_cons, List.map_cons, hf r s hs]
        exact ih.cons_cons _

namespace Table

/-- A change of all rows that keeps the primary key. -/
def alter (t : Table key) (f : ρ → ρ') (hf : ∀ r, key' (f r) = key r) : Table key' :=
  ⟨t.rows.map f, by
    have he : key' ∘ f = key := funext hf
    rw [List.map_map, he]
    exact t.nodup⟩

/-- Such a change that a row may refuse. -/
def alterColumn (e : SqlError) (t : Table key) (f : ρ → Option ρ') (hf : ∀ r s, f r = some s → key' s = key r) :
    Except SqlError (Table key') :=
  if t.rows.all fun r => (f r).isSome then .ok ⟨t.rows.filterMap f, t.nodup.sublist (sublist_filterMap hf t.rows)⟩
  else .error e

end Table

/-- `ADD CONSTRAINT … PRIMARY KEY`. -/
def addPrimaryKey [DecidableEq κ] (constraint : String) (key : ρ → κ) (rows : List ρ) : Except SqlError (Table key) :=
  if h : (rows.map key).Nodup then .ok ⟨rows, h⟩ else .error (.unique constraint)

/-- `CREATE UNIQUE INDEX`. Two nulls are not the same. -/
def checkUnique [DecidableEq α] (index : String) (col : ρ → Option α) (rows : List ρ) : Except SqlError Unit :=
  if (rows.filterMap col).Nodup then .ok () else .error (.unique index)

/-- `ADD CONSTRAINT … FOREIGN KEY`. -/
def checkForeignKey [DecidableEq α] (constraint : String) (col : ρ → α) (rows : List ρ) (referenced : List α) :
    Except SqlError Unit :=
  if rows.all fun r => col r ∈ referenced then .ok () else .error (.foreignKey constraint)

/-- What `UPDATE … SET … FROM … WHERE` makes of a row. One that joins several rows is changed with one of them, and
nothing is said about which. -/
def updateFrom (pick : ρ → Nat) (joins : ρ → σ → Bool) (set : ρ → σ → ρ) (source : List σ) (r : ρ) : ρ :=
  let joined := source.filter (joins r)
  (joined[pick r % joined.length]?).elim r (set r)

/-! ## Results -/

@[ext] theorem Table.ext_rows {t t' : Table key} (h : t.rows = t'.rows) : t = t' := by
  cases t
  cases t'
  cases h
  rfl

theorem exists_table {rows : List ρ} (h : rows.length ≤ 1) : ∃ t : Table key, t.rows = rows := by
  refine ⟨⟨rows, ?_⟩, rfl⟩
  match rows with
  | [] => exact .nil
  | [_] => exact List.nodup_singleton _

@[simp] theorem Table.alter_rows (t : Table key) (f : ρ → ρ') (hf : ∀ r, key' (f r) = key r) :
    (t.alter f hf).rows = t.rows.map f := rfl

theorem Table.alterColumn_eq {e : SqlError} {t : Table key} {f : ρ → Option ρ'} {g : ρ → ρ'}
    {hf : ∀ r s, f r = some s → key' s = key r} (hg : ∀ r, key' (g r) = key r) (h : ∀ r ∈ t.rows, f r = some (g r)) :
    t.alterColumn e f hf = .ok (t.alter g hg) := by
  have hall : (t.rows.all fun r => (f r).isSome) = true := List.all_eq_true.mpr fun r hr => by rw [h r hr]; rfl
  rw [Table.alterColumn, if_pos hall]
  exact congrArg Except.ok (Table.ext_rows ((List.filterMap_congr h).trans (congrFun List.filterMap_eq_map _)))

theorem addPrimaryKey_ok [DecidableEq κ] {constraint : String} {rows : List ρ} {t : Table key} :
    addPrimaryKey constraint key rows = .ok t ↔ t.rows = rows := by
  unfold addPrimaryKey
  split
  · rw [Except.ok.injEq]
    exact ⟨fun h => h ▸ rfl, fun h => Table.ext_rows h.symm⟩
  · rename_i hdup
    refine iff_of_false (fun h => ?_) (fun h => hdup (h ▸ t.nodup))
    cases h

theorem addPrimaryKey_bind {β : Type} [DecidableEq κ] {constraint : String} {rows : List ρ}
    {f : Table key → Except SqlError β} {b : β} :
    (addPrimaryKey constraint key rows >>= f) = .ok b ↔ ∃ t : Table key, t.rows = rows ∧ f t = .ok b := by
  simp only [bind_eq_ok, addPrimaryKey_ok]

theorem checkUnique_ok [DecidableEq α] {index : String} {col : ρ → Option α} {rows : List ρ} :
    checkUnique index col rows = .ok () ↔ (rows.filterMap col).Nodup := by
  unfold checkUnique
  split <;> simp [*]

theorem checkForeignKey_ok [DecidableEq α] {constraint : String} {col : ρ → α} {rows : List ρ} {referenced : List α} :
    checkForeignKey constraint col rows referenced = .ok () ↔ ∀ r ∈ rows, col r ∈ referenced := by
  unfold checkForeignKey
  split <;> simp_all

/-- A script goes on after a constraint when all rows meet it. -/
theorem checkForeignKey_bind {β : Type} [DecidableEq α] {constraint : String} {col : ρ → α} {rows : List ρ}
    {referenced : List α} {f : Unit → Except SqlError β} {b : β} :
    (checkForeignKey constraint col rows referenced >>= f) = .ok b ↔ (∀ r ∈ rows, col r ∈ referenced) ∧ f () = .ok b := by
  rw [bind_eq_ok]
  exact ⟨fun ⟨_, h, hf⟩ => ⟨checkForeignKey_ok.mp h, hf⟩, fun ⟨h, hf⟩ => ⟨(), checkForeignKey_ok.mpr h, hf⟩⟩

theorem updateFrom_all {pick : ρ → Nat} {joins : ρ → σ → Bool} {set : ρ → σ → ρ} {source : List σ} {r : ρ}
    (h : ∀ s ∈ source, joins r s = true) :
    updateFrom pick joins set source r = (source[pick r % source.length]?).elim r (set r) := by
  rw [updateFrom, List.filter_eq_self.mpr h]

end Lib
