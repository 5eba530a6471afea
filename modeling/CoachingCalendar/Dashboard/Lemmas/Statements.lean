import CoachingCalendar.Dashboard.Statements
import CoachingCalendar.Lib.Checks

/-! # What statements do -/

namespace CoachingCalendar
open Lib

variable {d d' : Db}

theorem unlessFault_eq {α : Type} {ch : Choice} {w : World} (x : Except Failure α × World) :
    unlessFault ch w x = Prog.mayFail ch.fault w x := by
  unfold unlessFault Prog.mayFail
  cases ch.fault <;> rfl

section Rows

variable {ρ : Type} {key : ρ → String} {t t' : Table key} {k : String} {r : ρ} {f : ρ → ρ} {x : ρ × Table key}

theorem created_ok : created t r = .ok t' ↔ t.insert r = some t' := by
  unfold created
  split <;> simp_all

theorem updated_ok {hf : ∀ r, key (f r) = key r} :
    updated t k f hf = .ok x ↔ ∃ r, t.find k = some r ∧ x = (f r, t.update k f hf) := by
  unfold updated
  split <;> rename_i hf <;> simp [hf, eq_comm]

theorem deleted_ok : deleted t k = .ok t' ↔ (t.find k).isSome ∧ t' = t.delete k := by
  unfold deleted
  split <;> rename_i hf <;> simp [hf, eq_comm]

end Rows

theorem requireCoach_ok {coachId : String} {x : Unit} :
    d.requireCoach coachId = .ok x ↔ (d.coaches.find coachId).isSome := by
  unfold Db.requireCoach
  split <;> simp_all

/-- What a statement returns and the database after it. -/
inductive Applied (newId : String) (d : Db) : (s : Statement) → s.Ans → Db → Prop
  | weeklyCreate {coachId data weeklyAvailabilities} : (d.coaches.find coachId).isSome →
      d.weeklyAvailabilities.insert (data.toRow newId coachId) = some weeklyAvailabilities →
      Applied newId d (.weeklyCreate coachId data) (data.toRow newId coachId) { d with weeklyAvailabilities }
  | weeklyUpdate {id data r} : d.weeklyAvailabilities.find id = some r →
      Applied newId d (.weeklyUpdate id data) (data.toRow r.id r.coachId) { d with
        weeklyAvailabilities := d.weeklyAvailabilities.update id (fun r => data.toRow r.id r.coachId) fun _ => rfl }
  | weeklyDelete {id} : Applied newId d (.weeklyDelete id) () { d with
      weeklyAvailabilities := d.weeklyAvailabilities.delete id }
  | overrideCreate {coachId data overrides} : (d.coaches.find coachId).isSome →
      d.overrides.insert (data.toRow newId coachId) = some overrides →
      Applied newId d (.overrideCreate coachId data) (data.toRow newId coachId) { d with overrides }
  | overrideUpdate {id data r} : d.overrides.find id = some r →
      Applied newId d (.overrideUpdate id data) (data.toRow r.id r.coachId) { d with
        overrides := d.overrides.update id (fun r => data.toRow r.id r.coachId) fun _ => rfl }
  | overrideDelete {id} : Applied newId d (.overrideDelete id) () { d with overrides := d.overrides.delete id }
  | eventTypeCreate {coachId data eventTypes} : (d.coaches.find coachId).isSome →
      d.eventTypes.insert (data.toRow newId coachId) = some eventTypes →
      Applied newId d (.eventTypeCreate coachId data) (data.toRow newId coachId) { d with eventTypes }
  | eventTypeUpdate {id patch e} : patch.invalid = false → d.eventTypes.find id = some e →
      Applied newId d (.eventTypeUpdate id patch) (patch.apply e) { d with
        eventTypes := d.eventTypes.update id patch.apply fun _ => rfl }
  | eventTypeDelete {id} : (∀ b ∈ d.bookings, b.eventTypeId ≠ id) →
      Applied newId d (.eventTypeDelete id) () { d with eventTypes := d.eventTypes.delete id }
  | eventTypeReorder {ids d'} : Db.reorder ids.zipIdx d = .ok d' → Applied newId d (.eventTypeReorder ids) () d'
  | settingsUpdate {coachId patch s} : patch.invalid = false → d.settings.find coachId = some s →
      Applied newId d (.settingsUpdate coachId patch) (patch.apply s) { d with
        settings := d.settings.update coachId patch.apply fun _ => rfl }

theorem apply_ok {newId : String} {s : Statement} {a : s.Ans} (h : d.apply newId s = .ok (a, d')) :
    Applied newId d s a d' := by
  cases s with
  | weeklyCreate coachId data =>
      simp only [Db.apply, bind_eq_ok, requireCoach_ok, created_ok, pure_eq_ok] at h
      obtain ⟨_, hc, t, ht, h⟩ := h
      cases h; exact .weeklyCreate hc ht
  | overrideCreate coachId data =>
      simp only [Db.apply, bind_eq_ok, requireCoach_ok, created_ok, pure_eq_ok] at h
      obtain ⟨_, hc, t, ht, h⟩ := h
      cases h; exact .overrideCreate hc ht
  | eventTypeCreate coachId data =>
      simp only [Db.apply, bind_eq_ok, requireCoach_ok, created_ok, pure_eq_ok] at h
      obtain ⟨_, hc, t, ht, h⟩ := h
      cases h; exact .eventTypeCreate hc ht
  | weeklyUpdate id data =>
      simp only [Db.apply, bind_eq_ok, pure_eq_ok] at h
      obtain ⟨_, hu, h⟩ := h
      obtain ⟨r, hr, rfl⟩ := updated_ok.mp hu
      cases h; exact .weeklyUpdate hr
  | overrideUpdate id data =>
      simp only [Db.apply, bind_eq_ok, pure_eq_ok] at h
      obtain ⟨_, hu, h⟩ := h
      obtain ⟨r, hr, rfl⟩ := updated_ok.mp hu
      cases h; exact .overrideUpdate hr
  | weeklyDelete id =>
      simp only [Db.apply, bind_eq_ok, deleted_ok, pure_eq_ok] at h
      obtain ⟨_, ⟨_, rfl⟩, h⟩ := h
      cases h; exact .weeklyDelete
  | overrideDelete id =>
      simp only [Db.apply, bind_eq_ok, deleted_ok, pure_eq_ok] at h
      obtain ⟨_, ⟨_, rfl⟩, h⟩ := h
      cases h; exact .overrideDelete
  | eventTypeUpdate id patch =>
      simp only [Db.apply] at h
      split at h
      · cases h
      · rename_i hp
        simp only [bind_eq_ok, pure_eq_ok] at h
        obtain ⟨_, hu, h⟩ := h
        obtain ⟨r, hr, rfl⟩ := updated_ok.mp hu
        cases h; exact .eventTypeUpdate (by simpa using hp) hr
  | settingsUpdate coachId patch =>
      simp only [Db.apply] at h
      split at h
      · cases h
      · rename_i hp
        simp only [bind_eq_ok, pure_eq_ok] at h
        obtain ⟨_, hu, h⟩ := h
        obtain ⟨r, hr, rfl⟩ := updated_ok.mp hu
        cases h; exact .settingsUpdate (by simpa using hp) hr
  | eventTypeDelete id =>
      simp only [Db.apply] at h
      split at h
      · cases h
      · rename_i hb
        simp only [bind_eq_ok, deleted_ok, pure_eq_ok] at h
        obtain ⟨_, ⟨_, rfl⟩, h⟩ := h
        cases h
        refine .eventTypeDelete fun b hm he => hb ?_
        rw [Option.isSome_iff_ne_none]
        intro hn
        simpa [he] using Table.findFirst_none.mp hn b hm
  | eventTypeReorder ids =>
      simp only [Db.apply, bind_eq_ok, pure_eq_ok] at h
      obtain ⟨_, hr, h⟩ := h
      cases h; exact .eventTypeReorder hr

theorem setPosition_ok {id : String} {index : Nat} : d.setPosition id index = .ok d' ↔
    (d.eventTypes.find id).isSome ∧ d' = { d with
      eventTypes := d.eventTypes.update id (fun e => { e with position := index }) fun _ => rfl } := by
  simp only [Db.setPosition, bind_eq_ok, pure_eq_ok, Option.isSome_iff_exists]
  constructor
  · rintro ⟨_, hu, h⟩
    obtain ⟨r, hr, rfl⟩ := updated_ok.mp hu
    cases h; exact ⟨⟨r, hr⟩, rfl⟩
  · rintro ⟨⟨r, hr⟩, rfl⟩
    exact ⟨_, updated_ok.mpr ⟨r, hr, rfl⟩, rfl⟩

theorem reorder_keeps {J : Db → Prop} {ids : List (String × Nat)} (h : Db.reorder ids d = .ok d') (hd : J d)
    (hstep : ∀ d id (index : Nat), id ∈ ids.map (·.1) → J d → J { d with
      eventTypes := d.eventTypes.update id (fun e => { e with position := index }) fun _ => rfl }) : J d' := by
  induction ids generalizing d with
  | nil => cases h; exact hd
  | cons x ids ih =>
      obtain ⟨id, index⟩ := x
      simp only [Db.reorder, bind_eq_ok, setPosition_ok] at h
      obtain ⟨_, ⟨_, rfl⟩, h⟩ := h
      exact ih h (hstep _ _ _ (by simp) hd) fun d i n hi => hstep d i n (by simp_all)

end CoachingCalendar
