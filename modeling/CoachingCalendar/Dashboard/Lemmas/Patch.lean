import CoachingCalendar.Dashboard.Lemmas.Statements
import CoachingCalendar.Dashboard.Service

/-! # What an update of an override does -/

namespace CoachingCalendar
open Lib

/-- A day off, or a range of minutes. -/
def AvailabilityOverride.HasRange (o : AvailabilityOverride) : Prop :=
  o.isUnavailable = true ∨ ∃ startMinute endMinute, o.startMinute = some startMinute ∧ o.endMinute = some endMinute ∧
    startMinute < endMinute

/-- The row with new values, where there are any. A day off has no minutes. -/
def AvailabilityOverride.merge (o : AvailabilityOverride) (date : Option Int) (isUnavailable : Option Bool)
    (startMinute endMinute : Option Int) : AvailabilityOverride :=
  let isUnavailable := isUnavailable.getD o.isUnavailable
  { o with
    date := date.getD o.date
    isUnavailable := isUnavailable
    startMinute := if isUnavailable then none else startMinute <|> o.startMinute
    endMinute := if isUnavailable then none else endMinute <|> o.endMinute }

namespace Dashboard
open Lib.Prog

variable {w : World} {env : List (Entry World Ans Failure) → Choice} {toDateOnly : String → Option Int}

/-- The row that an update is about to write. -/
def UpdateAvailabilityOverrideDto.merge (toDateOnly : String → Option Int) (dto : UpdateAvailabilityOverrideDto)
    (row : AvailabilityOverride) : AvailabilityOverride :=
  row.merge (dto.date.bind toDateOnly) dto.isUnavailable dto.startMinute dto.endMinute

/-- Its date, when it is one. -/
def UpdateAvailabilityOverrideDto.hasDate (toDateOnly : String → Option Int) (dto : UpdateAvailabilityOverrideDto) :
    Prop := ∀ date, dto.date = some date → (toDateOnly date).isSome

theorem mayFail_none {α : Type} {fault : Option Failure} (h : fault = none) (x : Except Failure α × World) :
    mayFail fault w x = x := by
  rw [h]; rfl

section Checks

variable {coach : Coach} {row : AvailabilityOverride} {dto : UpdateAvailabilityOverrideDto}

theorem assertOwnership_runs (henv : ∀ t, (env t).fault = none) (hrow : w.db.overrides.find row.id = some row)
    (howner : row.coachId = coach.id) :
    Runs exec env (AvailabilityOverrideService.assertOwnership coach row.id) w (.ok row) w := by
  unfold AvailabilityOverrideService.assertOwnership
  refine .bind (.perform fun t => (mayFail_none (henv t) _).trans (by rw [hrow])) ?_
  unfold assertCoachOwnsOrIsAdmin
  dsimp only
  rw [if_neg (fun h => h.1 howner)]
  exact .pure

theorem assertValidMinutes_runs {o : AvailabilityOverride} (ho : o.isUnavailable = false) (h : o.HasRange) :
    Runs exec env (AvailabilityOverrideService.assertValidMinutes o.startMinute o.endMinute) w (.ok ()) w := by
  rcases h with h | ⟨s, e, hs, he, hlt⟩
  · rw [ho] at h; cases h
  · unfold AvailabilityOverrideService.assertValidMinutes
    rw [hs, he]
    dsimp only
    rw [if_neg (by omega)]
    exact .pure

theorem assertValidMinutes_fails {o : AvailabilityOverride} (h : ¬ o.HasRange) :
    ∃ m, Runs exec env (AvailabilityOverrideService.assertValidMinutes o.startMinute o.endMinute) w
      (.error (.badRequest m)) w := by
  unfold AvailabilityOverrideService.assertValidMinutes
  split
  · rename_i s e hs he
    have : s ≥ e := by
      by_contra hlt
      exact h (.inr ⟨s, e, hs, he, by omega⟩)
    rw [if_pos this]
    exact ⟨_, .throw⟩
  · exact ⟨_, .throw⟩

section Update

theorem overrideUpdate_runs (henv : ∀ t, (env t).fault = none) (hrow : w.db.overrides.find row.id = some row)
    (data : OverrideData) : ∃ w',
    Runs exec env (perform (Op.write (.overrideUpdate row.id data))) w (.ok (data.toRow row.id row.coachId)) w' ∧
      w'.db.overrides.find row.id = some (data.toRow row.id row.coachId) := by
  refine ⟨w.write { w.db with overrides := w.db.overrides.update row.id (fun r => data.toRow r.id r.coachId) fun _ => rfl },
    .perform fun t => ?_, Table.find_update_found (f := fun r => data.toRow r.id r.coachId) (fun _ => rfl) hrow⟩
  rw [exec, mayFail_none (henv t)]
  simp only [Db.apply, updated, hrow]
  rfl

variable (henv : ∀ t, (env t).fault = none) (hrow : w.db.overrides.find row.id = some row)
variable (howner : row.coachId = coach.id)
include henv hrow howner

theorem update_runs (hr : (dto.merge toDateOnly row).HasRange) (hd : dto.hasDate toDateOnly) :
    ∃ w', Runs exec env (AvailabilityOverrideService.update toDateOnly coach row.id dto) w
        (.ok (dto.merge toDateOnly row)) w' ∧
      w'.db.overrides.find row.id = some (dto.merge toDateOnly row) := by
  obtain ⟨w', hwrite, hfound⟩ := overrideUpdate_runs henv hrow ⟨(dto.merge toDateOnly row).date,
    (dto.merge toDateOnly row).isUnavailable, (dto.merge toDateOnly row).startMinute, (dto.merge toDateOnly row).endMinute⟩
  -- `date` is the one that is stored unless the body has one
  have rest : ∀ date : Option Int, (dto.date = none → date = some row.date) →
      (∀ d, dto.date = some d → date = toDateOnly d) →
      Runs exec env ((AvailabilityOverrideService.dateOf date).bind fun date => perform (Op.write (.overrideUpdate row.id
        ⟨date, (dto.merge toDateOnly row).isUnavailable, (dto.merge toDateOnly row).startMinute,
          (dto.merge toDateOnly row).endMinute⟩))) w (.ok (dto.merge toDateOnly row)) w' := by
    intro date hnone hsome
    have hdate : date = some (dto.merge toDateOnly row).date := by
      cases hdto : dto.date with
      | none => simp [hnone hdto, UpdateAvailabilityOverrideDto.merge, AvailabilityOverride.merge, hdto]
      | some d =>
          obtain ⟨day, hd⟩ := Option.isSome_iff_exists.mp (hd d hdto)
          simp [hsome d hdto, UpdateAvailabilityOverrideDto.merge, AvailabilityOverride.merge, hdto, hd]
    rw [hdate]
    exact .bind .pure hwrite
  refine ⟨w', ?_, hfound⟩
  unfold AvailabilityOverrideService.update
  refine .bind (assertOwnership_runs henv hrow howner) ?_
  dsimp only
  split
  · rename_i hu
    refine .bind (assertValidMinutes_runs (o := dto.merge toDateOnly row) ?_ hr)
      (rest _ (fun h => by rw [h]) fun _ h => by rw [h])
    simpa [UpdateAvailabilityOverrideDto.merge, AvailabilityOverride.merge] using hu
  · exact rest _ (fun h => by rw [h]) fun _ h => by rw [h]

theorem update_refuses (hr : ¬ (dto.merge toDateOnly row).HasRange) :
    ∃ m, Runs exec env (AvailabilityOverrideService.update toDateOnly coach row.id dto) w (.error (.badRequest m)) w := by
  obtain ⟨m, hm⟩ := @assertValidMinutes_fails w env _ hr
  refine ⟨m, ?_⟩
  unfold AvailabilityOverrideService.update
  refine .bind (assertOwnership_runs henv hrow howner) ?_
  dsimp only
  split
  · exact .bind_error hm
  · rename_i hu
    refine absurd (.inl ?_) hr
    simpa [UpdateAvailabilityOverrideDto.merge, AvailabilityOverride.merge] using hu

theorem update_fails (hr : (dto.merge toDateOnly row).HasRange) (hd : ¬ dto.hasDate toDateOnly) :
    Runs exec env (AvailabilityOverrideService.update toDateOnly coach row.id dto) w (.error invalidQuery) w := by
  have rest : ∀ (date : Option Int) (f : Int → DashboardProg AvailabilityOverride),
      (∀ d, dto.date = some d → date = toDateOnly d) →
      Runs exec env ((AvailabilityOverrideService.dateOf date).bind f) w (.error invalidQuery) w := by
    intro date f hsome
    have hdate : date = none := by
      unfold UpdateAvailabilityOverrideDto.hasDate at hd
      push Not at hd
      obtain ⟨d, hdto, hnone⟩ := hd
      rw [hsome d hdto]
      exact Option.not_isSome_iff_eq_none.mp hnone
    rw [hdate]
    exact .bind_error .throw
  unfold AvailabilityOverrideService.update
  refine .bind (assertOwnership_runs henv hrow howner) ?_
  dsimp only
  split
  · rename_i hu
    refine .bind (assertValidMinutes_runs (o := dto.merge toDateOnly row) ?_ hr) (rest _ _ fun _ h => by rw [h])
    simpa [UpdateAvailabilityOverrideDto.merge, AvailabilityOverride.merge] using hu
  · exact rest _ _ fun _ h => by rw [h]

end Update

end Checks

end Dashboard

end CoachingCalendar
