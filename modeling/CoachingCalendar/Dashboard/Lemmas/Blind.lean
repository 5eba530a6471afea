import CoachingCalendar.Dashboard.Lemmas.Keeps

/-! # Requests make nothing of the rows of others -/

namespace CoachingCalendar.Dashboard
open Lib Lib.Prog

variable {P : Platform} {toDateOnly : String → Option Int} {coach : Coach} {c id : String} {α β : Type}

/-- A program that does the same whatever rows the others have. -/
abbrev Discreet (c : String) (p : DashboardProg α) : Prop := p.Blind (Sees c)

/-! ## Steps of a request -/

namespace Discreet

theorem map {p : DashboardProg α} {f : α → β} (h : Discreet c p) : Discreet c (p.bind fun a => .pure (f a)) :=
  .bind h fun _ => trivial

theorem write (s : Statement) : Discreet c (perform (Op.write s)) := .perform fun _ _ h => h

theorem ofResult_ownedRow {ρ : Type} {owner : ρ → String} {m : Message} {r r' : Except Failure (Option ρ)}
    (h : r.map (·.filter (owner · = c)) = r'.map (·.filter (owner · = c))) :
    (match r with
      | .ok row => ofResult (ownedRow owner c m row)
      | .error e => (.throw e : DashboardProg ρ)) =
    match r' with
      | .ok row => ofResult (ownedRow owner c m row)
      | .error e => .throw e := by
  cases r with
  | error e =>
      cases r' with
      | error e' =>
          cases h
          rfl
      | ok row' => cases h
  | ok row =>
      cases r' with
      | error e' => cases h
      | ok row' => simp only [ownedRow, Except.ok.inj h]

theorem owned {ρ : Type} {owner : ρ → String} {o : Op} {row : Ans o → Option ρ} {message : Message}
    (hc : coach.role = .coach) (hs : ∀ r r', Sees coach.id o r r' →
      (r.map row).map (·.filter (owner · = coach.id)) = (r'.map row).map (·.filter (owner · = coach.id))) :
    Discreet coach.id ((perform o).bind fun a => assertCoachOwnsOrIsAdmin owner coach (row a) message) := by
  simp only [assertCoachOwnsOrIsAdmin_eq hc]
  refine .checked (fun r r' h => ?_) fun a => ?_
  · have := ofResult_ownedRow (m := message) (hs r r' h)
    cases r <;> cases r' <;> exact this
  · cases ownedRow owner coach.id message (row a) <;> trivial

theorem weekly (hc : coach.role = .coach) : Discreet coach.id (WeeklyAvailabilityService.assertOwnership coach id) :=
  owned (o := .weeklyFindUnique id) hc fun r r' h => by cases r <;> cases r' <;> exact h

theorem override (hc : coach.role = .coach) : Discreet coach.id (AvailabilityOverrideService.assertOwnership coach id) :=
  owned (o := .overrideFindUnique id) hc fun r r' h => by cases r <;> cases r' <;> exact h

theorem eventType (hc : coach.role = .coach) : Discreet coach.id (EventTypesService.assertOwnership coach id) :=
  owned (o := .booking (.eventTypeFindUnique id)) hc fun r r' h => by cases r <;> cases r' <;> exact h

theorem scope {coachId : Option String} : Discreet c (resolveCoachScope coach coachId) := by
  unfold resolveCoachScope
  split
  · trivial
  · split <;> trivial

theorem validRange {startMinute endMinute : Int} :
    Discreet c (WeeklyAvailabilityService.assertValidRange startMinute endMinute) := by
  unfold WeeklyAvailabilityService.assertValidRange
  split <;> trivial

theorem validMinutes {startMinute endMinute : Option Int} :
    Discreet c (AvailabilityOverrideService.assertValidMinutes startMinute endMinute) := by
  unfold AvailabilityOverrideService.assertValidMinutes
  split
  · split <;> trivial
  · trivial

theorem date {date : Option Int} : Discreet c (AvailabilityOverrideService.dateOf date) := by
  unfold AvailabilityOverrideService.dateOf
  split <;> trivial

end Discreet

/-! ## Requests -/

theorem weeklyCreate_discreet (dto : CreateWeeklyAvailabilityDto) :
    Discreet c (WeeklyAvailabilityService.create coach dto) := .bind Discreet.validRange fun _ => Discreet.write _

theorem overrideCreate_discreet (dto : CreateAvailabilityOverrideDto) :
    Discreet c (AvailabilityOverrideService.create toDateOnly coach dto) := by
  unfold AvailabilityOverrideService.create
  dsimp only
  split
  · exact .bind Discreet.validMinutes fun _ => .bind Discreet.date fun _ => Discreet.write _
  · exact .bind Discreet.date fun _ => Discreet.write _

theorem eventTypeCreate_discreet (dto : CreateEventTypeDto) : Discreet c (EventTypesService.create coach dto) := by
  unfold EventTypesService.create
  dsimp only
  split
  · exact Discreet.write _
  · exact .bind (Discreet.map (.perform fun _ _ h => h)) fun _ => Discreet.write _

theorem eventTypeReorder_discreet (ids : List String) : Discreet c (EventTypesService.reorder coach ids) := by
  refine .bind (.perform fun _ _ h => h) fun owned => ?_
  dsimp only
  split
  · trivial
  · exact Discreet.write _

section Owned

variable (hc : coach.role = .coach)
include hc

theorem weeklyUpdate_discreet (dto : UpdateWeeklyAvailabilityDto) :
    Discreet coach.id (WeeklyAvailabilityService.update coach id dto) :=
  .bind (Discreet.weekly hc) fun _ => .bind Discreet.validRange fun _ => Discreet.write _

theorem weeklyRemove_discreet : Discreet coach.id (WeeklyAvailabilityService.remove coach id) :=
  .bind (Discreet.weekly hc) fun _ => Discreet.write _

theorem overrideUpdate_discreet (dto : UpdateAvailabilityOverrideDto) :
    Discreet coach.id (AvailabilityOverrideService.update toDateOnly coach id dto) := by
  refine .bind (Discreet.override hc) fun existing => ?_
  dsimp only
  split
  · exact .bind Discreet.validMinutes fun _ => .bind Discreet.date fun _ => Discreet.write _
  · exact .bind Discreet.date fun _ => Discreet.write _

theorem overrideRemove_discreet : Discreet coach.id (AvailabilityOverrideService.remove coach id) :=
  .bind (Discreet.override hc) fun _ => Discreet.write _

theorem eventTypeUpdate_discreet (patch : EventTypePatch) :
    Discreet coach.id (EventTypesService.update coach id patch) := .bind (Discreet.eventType hc) fun _ => Discreet.write _

theorem eventTypeArchive_discreet : Discreet coach.id (EventTypesService.archive coach id) :=
  .bind (Discreet.eventType hc) fun _ => Discreet.write _

theorem eventTypeRemove_discreet : Discreet coach.id (EventTypesService.remove coach id) := by
  refine .bind (Discreet.eventType hc) fun e => .orElse (Discreet.write _) fun error => ?_
  split <;> trivial

end Owned

theorem settingsUpdate_discreet (dto : UpdateSettingsDto) : Discreet c (SettingsService.update coach.id dto) := by
  unfold SettingsService.update CoachingCalendar.SettingsService.get
  simp only [bind_eq, ofBooking_bind, bind_assoc]
  refine .bind (ofBooking_perform _ ▸ .perform fun _ _ h => h) fun found => ?_
  split
  · trivial
  · refine .bind (ofBooking_perform _ ▸ .perform fun _ _ h => h) fun _ => ?_
    split
    · trivial
    · exact Discreet.write _

theorem bookingFindAll_discreet (coachId : Option String) : Discreet c (BookingsService.findAll coach coachId) := by
  unfold BookingsService.findAll
  dsimp only
  split
  · exact .perform fun _ _ h => h
  · exact .bind (Discreet.map Discreet.scope) fun _ => .perform fun _ _ h => h

/-! ### A cancellation -/

theorem getAuthenticatedClient_discreet (coachId : String) :
    Discreet c (ofBooking (getAuthenticatedClient P coachId)) := by
  unfold getAuthenticatedClient
  rw [bind_eq, ofBooking_bind]
  refine .bind (ofBooking_perform _ ▸ .perform fun _ _ h => h) fun found => ?_
  split
  · trivial
  · split <;> trivial

theorem applyCancellation_discreet (booking : BookingWithRelations) (cancelledBy : CancelledBy) (reason : Option String) :
    Discreet c (ofBooking (CoachingCalendar.BookingsService.applyCancellation P booking cancelledBy reason)) := by
  have write : ∀ patch, Discreet c (ofBooking (perform (CoachingCalendar.Op.bookingUpdate booking.id patch))) :=
    fun _ => ofBooking_perform _ ▸ .perform fun _ _ h => h
  unfold CoachingCalendar.BookingsService.applyCancellation deleteEvent
  dsimp only
  split
  · simp only [bind_eq, tryCatch_eq, ofBooking_bind, ofBooking_orElse]
    refine .bind (.bind (getAuthenticatedClient_discreet _) fun _ => .orElse ?_ fun _ => trivial) fun _ => write _
    exact ofBooking_perform _ ▸ .perform fun _ _ h => h
  · exact write _

theorem ofBooking_owned {message : Message} (hc : coach.role = .coach) (row : Option BookingWithRelations) :
    ofBooking (assertCoachOwnsOrIsAdmin (·.coachId) coach row message) =
      ofResult (ownedRow (·.coachId) coach.id message row) := by
  rw [assertCoachOwnsOrIsAdmin_eq hc]
  cases ownedRow (·.coachId) coach.id message row <;> rfl

theorem bookingCancel_discreet (hc : coach.role = .coach) (id reason : String) :
    Discreet coach.id (ofBooking (CoachingCalendar.BookingsService.cancelByCoach P coach id reason)) := by
  unfold CoachingCalendar.BookingsService.cancelByCoach
  simp only [bind_eq, ofBooking_bind, ofBooking_owned hc]
  rw [← bind_assoc]
  refine .bind ?_ fun booking => ?_
  · rw [ofBooking_perform]
    refine .checked (fun r r' h => ?_) fun row => ?_
    · have := Discreet.ofResult_ownedRow (m := .translated "errors.bookingNotFound" coach.preferredLocale) h
      cases r <;> cases r' <;> exact this
    · cases ownedRow (·.coachId) coach.id (.translated "errors.bookingNotFound" coach.preferredLocale) row <;> trivial
  · refine .bind ?_ fun _ => .bind (applyCancellation_discreet _ _ _) fun updated => .bind ?_ fun _ => trivial
    · unfold assertConfirmed
      split <;> trivial
    · exact ofBooking_perform (.jobSend _) ▸ .perform fun _ _ h => h

/-- Every request of a coach who is no admin makes nothing of the rows of others. -/
theorem Request.body_discreet (hc : coach.role = .coach) (request : Request) :
    Discreet coach.id (request.body P toDateOnly coach) := by
  cases request with
  | weeklyFind coachId => exact .bind Discreet.scope fun _ => Discreet.map (.perform fun _ _ h => h)
  | overrideFind coachId => exact .bind Discreet.scope fun _ => Discreet.map (.perform fun _ _ h => h)
  | eventTypeFindMine coachId => exact .bind Discreet.scope fun _ => Discreet.map (.perform fun _ _ h => h)
  | weeklyCreate dto => exact Discreet.map (weeklyCreate_discreet dto)
  | weeklyUpdate id dto => exact Discreet.map (weeklyUpdate_discreet hc dto)
  | weeklyRemove id => exact Discreet.map (weeklyRemove_discreet hc)
  | overrideCreate dto => exact Discreet.map (overrideCreate_discreet dto)
  | overrideUpdate id dto => exact Discreet.map (overrideUpdate_discreet hc dto)
  | overrideRemove id => exact Discreet.map (overrideRemove_discreet hc)
  | eventTypeCreate dto => exact Discreet.map (eventTypeCreate_discreet dto)
  | eventTypeUpdate id dto => exact Discreet.map (eventTypeUpdate_discreet hc dto)
  | eventTypeArchive id => exact Discreet.map (eventTypeArchive_discreet hc)
  | eventTypeRemove id => exact Discreet.map (eventTypeRemove_discreet hc)
  | eventTypeReorder ids => exact Discreet.map (eventTypeReorder_discreet ids)
  | bookingFindAll coachId => exact Discreet.map (bookingFindAll_discreet coachId)
  | bookingCancel id reason => exact Discreet.map (bookingCancel_discreet hc id reason)
  | settingsUpdate dto => exact Discreet.map (settingsUpdate_discreet dto)

end CoachingCalendar.Dashboard
