import CoachingCalendar.Dashboard.Lemmas.Owners

/-! # Requests keep to the rows of their coach -/

namespace CoachingCalendar.Dashboard
open Lib Lib.Prog Lib.Table Lib.System

variable {P : Platform} {toDateOnly : String → Option Int}

/-! ## The licence -/

/-- What an answer says of the rows that were searched for. -/
def Answered : (o : Op) → Except Failure (Ans o) → Prop
  | .booking (.eventTypeFindUnique id), .ok (some row) => row.id = id
  | .booking (.bookingFindUnique id), .ok (some row) => row.id = id
  | .eventTypeFindOwned ids coachId, .ok rows =>
      ∃ t : Table EventType.id, rows = t.findMany fun e => ids.contains e.id && e.coachId = coachId
  | _, _ => True

/-- A request changes the rows that it has found to be of its coach. -/
def ownRows : License Ans Failure Call where
  answers := Answered
  permits call past o := call.Plain → o.Keeps call.coach.id fun kind id => ∃ e ∈ past, Found e kind id call.coach.id
  mono hsub h hp := (h hp).mono fun _ _ ⟨e, he, hf⟩ => ⟨e, hsub he, hf⟩

theorem exec_answered (w : World) (o : Op) (ch : Choice) : Answered o (exec w o ch).1 := by
  generalize hx : exec w o ch = x
  obtain ⟨r, w'⟩ := x
  cases o with
  | eventTypeFindOwned ids coachId =>
      rcases mayFail_cases hx with ⟨_, rfl, _⟩ | hx
      · trivial
      · cases hx
        exact ⟨_, rfl⟩
  | booking o =>
      change CoachingCalendar.exec w o ch = (r, w') at hx
      cases o with
      | eventTypeFindUnique id =>
          rw [CoachingCalendar.exec, unlessFault_eq] at hx
          rcases mayFail_cases hx with ⟨_, rfl, _⟩ | hx
          · trivial
          · cases hx
            cases hf : w.db.eventTypes.find id with
            | none => trivial
            | some row => exact find_key hf
      | bookingFindUnique id =>
          rw [CoachingCalendar.exec, unlessFault_eq] at hx
          rcases mayFail_cases hx with ⟨_, rfl, _⟩ | hx
          · trivial
          · cases hx
            cases hf : w.db.bookings.find id with
            | none => trivial
            | some row => exact find_key (t := w.db.bookings) hf
      | _ => trivial
  | _ => trivial

/-! ## Programs of the booking side -/

section OfBooking

variable {α β : Type}

theorem ofBooking_perform (o : CoachingCalendar.Op) :
    ofBooking (perform o : BookingProg (CoachingCalendar.Ans o)) = perform (Op.booking o) := by
  refine congrArg (Prog.op (Op.booking o)) (funext fun r => ?_)
  cases r <;> rfl

@[simp] theorem ofBooking_bind (p : BookingProg α) (f : α → BookingProg β) :
    ofBooking (p.bind f) = (ofBooking p).bind fun a => ofBooking (f a) := by
  induction p with
  | pure _ | throw _ => rfl
  | op o k ih => exact congrArg (Prog.op (Op.booking o)) (funext ih)

@[simp] theorem ofBooking_orElse (p : BookingProg α) (f : Failure → BookingProg α) :
    ofBooking (p.orElse f) = (ofBooking p).orElse fun e => ofBooking (f e) := by
  induction p with
  | pure _ | throw _ => rfl
  | op o k ih => exact congrArg (Prog.op (Op.booking o)) (funext ih)

end OfBooking

/-! ## Steps of a request -/

/-- What is left of a request keeps to the licence. -/
abbrev Keeps {α : Type} (call : Call) (past : List (Event Ans Failure)) (p : DashboardProg α) : Prop :=
  p.Follows (ownRows.protocol call) (fun _ _ => True) past

variable {call : Call} {past : List (Event Ans Failure)} {α β : Type} {id : String}

namespace Keeps

theorem look {o : Op} {f : Ans o → DashboardProg β} (ho : o.Keeps call.coach.id fun _ _ => False)
    (hf : ∀ a, Answered o (.ok a) → Keeps call (past ++ [⟨o, .ok a⟩]) (f a)) : Keeps call past ((perform o).bind f) :=
  .perform_bind (fun _ => ho.mono fun _ _ h => h.elim) hf fun _ _ => trivial

theorem ofBooking {o : CoachingCalendar.Op} {f : CoachingCalendar.Ans o → DashboardProg β}
    (ho : (Op.booking o).Keeps call.coach.id fun _ _ => False)
    (hf : ∀ a, Answered (.booking o) (.ok a) → Keeps call (past ++ [⟨.booking o, .ok a⟩]) (f a)) :
    Keeps call past ((CoachingCalendar.Dashboard.ofBooking (perform o)).bind f) := by
  rw [ofBooking_perform]
  exact look ho hf

theorem last {o : Op} (ho : o.Keeps call.coach.id fun kind id => ∃ e ∈ past, Found e kind id call.coach.id) :
    Keeps call past (perform o) :=
  follows_perform.mpr ⟨fun _ => ho, fun _ _ => trivial⟩

theorem map {p : DashboardProg α} {f : α → β} (h : Keeps call past p) : Keeps call past (p.bind fun a => .pure (f a)) :=
  .seq h fun _ _ => trivial

theorem owned {ρ : Type} {owner : ρ → String} {o : Op} {row : Ans o → Option ρ} {message : Message}
    {f : ρ → DashboardProg β} (hc : call.coach.role = .coach) (ho : o.Keeps call.coach.id fun _ _ => False)
    (hf : ∀ a r, Answered o (.ok a) → row a = some r → owner r = call.coach.id →
      Keeps call (past ++ [⟨o, .ok a⟩]) (f r)) :
    Keeps call past (((perform o).bind fun a => assertCoachOwnsOrIsAdmin owner call.coach (row a) message).bind f) := by
  rw [bind_assoc]
  refine look ho fun a ha => ?_
  rw [assertCoachOwnsOrIsAdmin_eq hc]
  cases hr : ownedRow owner call.coach.id message (row a) with
  | error e => trivial
  | ok r =>
      obtain ⟨hrow, hown⟩ := ownedRow_ok.mp hr
      exact hf a r ha hrow hown

theorem scope {coachId : Option String} {f : String → DashboardProg β} (hc : call.coach.role = .coach)
    (hf : Keeps call past (f call.coach.id)) : Keeps call past ((resolveCoachScope call.coach coachId).bind f) := by
  unfold resolveCoachScope
  rw [if_neg (by simp [hc])]
  split
  · trivial
  · exact hf

end Keeps

theorem Op.Keeps.found {s : Statement} {e : Event Ans Failure} (hc : s.coachId? = none)
    (ht : ∀ t ∈ s.targets, Found e t.1 t.2 call.coach.id) :
    (Op.write s).Keeps call.coach.id fun kind id => ∃ e' ∈ past ++ [e], Found e' kind id call.coach.id :=
  ⟨by simp [hc], fun t h => ⟨e, by simp, ht t h⟩⟩

theorem Op.Keeps.about {s : Statement} (hc : ∀ c ∈ s.coachId?, c = call.coach.id) (ht : s.targets = []) :
    (Op.write s).Keeps call.coach.id fun kind id => ∃ e ∈ past, Found e kind id call.coach.id :=
  ⟨hc, by simp [ht]⟩

theorem Keeps.date {date : Option Int} {f : Int → DashboardProg β} (hf : ∀ date, Keeps call past (f date)) :
    Keeps call past ((AvailabilityOverrideService.dateOf date).bind f) := by
  unfold AvailabilityOverrideService.dateOf
  split
  · trivial
  · exact hf _

theorem Keeps.validMinutes {startMinute endMinute : Option Int} {f : Unit → DashboardProg β}
    (hf : Keeps call past (f ())) :
    Keeps call past ((AvailabilityOverrideService.assertValidMinutes startMinute endMinute).bind f) := by
  unfold AvailabilityOverrideService.assertValidMinutes
  split
  · split
    · trivial
    · exact hf
  · trivial

/-! ## Requests -/

theorem weeklyCreate_keeps (dto : CreateWeeklyAvailabilityDto) :
    Keeps call past (WeeklyAvailabilityService.create call.coach dto) := by
  unfold WeeklyAvailabilityService.create WeeklyAvailabilityService.assertValidRange
  split
  · trivial
  · exact .last (.about (by simp [Statement.coachId?]) rfl)

theorem overrideCreate_keeps (dto : CreateAvailabilityOverrideDto) :
    Keeps call past (AvailabilityOverrideService.create toDateOnly call.coach dto) := by
  unfold AvailabilityOverrideService.create
  dsimp only
  split
  · exact .validMinutes (.date fun _ => .last (.about (by simp [Statement.coachId?]) rfl))
  · exact .date fun _ => .last (.about (by simp [Statement.coachId?]) rfl)

theorem eventTypeCreate_keeps (dto : CreateEventTypeDto) :
    Keeps call past (EventTypesService.create call.coach dto) := by
  have write : ∀ past data, Keeps call past (perform (Op.write (.eventTypeCreate call.coach.id data))) := fun _ _ =>
    .last (.about (by simp [Statement.coachId?]) rfl)
  unfold EventTypesService.create EventTypesService.nextPosition
  dsimp only
  split
  · exact write _ _
  · rw [bind_eq, bind_eq, bind_assoc]
    exact .look rfl fun _ _ => write _ _

section Owned

variable (hc : call.coach.role = .coach)
include hc

theorem weeklyUpdate_keeps (dto : UpdateWeeklyAvailabilityDto) :
    Keeps call past (WeeklyAvailabilityService.update call.coach id dto) := by
  refine .owned (o := .weeklyFindUnique id) hc trivial fun a row _ ha hown => ?_
  obtain rfl := ha
  dsimp only
  unfold WeeklyAvailabilityService.assertValidRange
  split
  · trivial
  · exact .last (.found rfl (by simpa [Statement.targets, ← hown] using .weekly))

theorem weeklyRemove_keeps : Keeps call past (WeeklyAvailabilityService.remove call.coach id) := by
  refine .owned (o := .weeklyFindUnique id) hc trivial fun a row _ ha hown => ?_
  obtain rfl := ha
  exact .last (.found rfl (by simpa [Statement.targets, ← hown] using .weekly))

theorem overrideUpdate_keeps (dto : UpdateAvailabilityOverrideDto) :
    Keeps call past (AvailabilityOverrideService.update toDateOnly call.coach id dto) := by
  refine .owned (o := .overrideFindUnique id) hc trivial fun a row _ ha hown => ?_
  obtain rfl := ha
  have write : ∀ data, Keeps call (past ++ [⟨.overrideFindUnique id, .ok (some row)⟩])
      (perform (Op.write (.overrideUpdate id data))) := fun data =>
    .last (.found rfl (by simpa [Statement.targets, ← hown] using .override))
  dsimp only
  split
  · exact .validMinutes (.date fun _ => write _)
  · exact .date fun _ => write _

theorem overrideRemove_keeps : Keeps call past (AvailabilityOverrideService.remove call.coach id) := by
  refine .owned (o := .overrideFindUnique id) hc trivial fun a row _ ha hown => ?_
  obtain rfl := ha
  exact .last (.found rfl (by simpa [Statement.targets, ← hown] using .override))

theorem eventTypeUpdate_keeps (patch : EventTypePatch) :
    Keeps call past (EventTypesService.update call.coach id patch) := by
  refine .owned (o := .booking (.eventTypeFindUnique id)) hc trivial fun a row ha hrow hown => ?_
  obtain rfl := hrow
  obtain rfl : row.id = id := ha
  exact .last (.found rfl (by simpa [Statement.targets, ← hown] using .eventType))

theorem eventTypeArchive_keeps : Keeps call past (EventTypesService.archive call.coach id) := by
  refine .owned (o := .booking (.eventTypeFindUnique id)) hc trivial fun a row ha hrow hown => ?_
  obtain rfl := hrow
  obtain rfl : row.id = id := ha
  exact .last (.found rfl (by simpa [Statement.targets, ← hown] using .eventType))

theorem eventTypeRemove_keeps : Keeps call past (EventTypesService.remove call.coach id) := by
  refine .owned (o := .booking (.eventTypeFindUnique id)) hc trivial fun a row ha hrow hown => ?_
  obtain rfl := hrow
  obtain rfl : row.id = id := ha
  refine follows_orElse.mpr ((Keeps.last (.found rfl ?_)).mono fun _ r _ => ?_)
  · simpa [Statement.targets, ← hown] using .eventType
  · cases r with
    | ok _ => trivial
    | error e =>
        dsimp only [caught]
        split <;> trivial

end Owned

theorem eventTypeReorder_keeps (ids : List String) : Keeps call past (EventTypesService.reorder call.coach ids) := by
  refine .look rfl fun rows ha => ?_
  dsimp only
  split
  · trivial
  · rename_i hlen
    obtain ⟨t, rfl⟩ := ha
    refine .last (.found rfl fun target ht => ?_)
    obtain ⟨id, hid, rfl⟩ := List.mem_map.mp ht
    obtain ⟨row, hrow, hown⟩ := ids_of_length (by simpa using hlen) id hid
    obtain ⟨hm, rfl⟩ := find_some.mp hrow
    have hown : row.coachId = call.coach.id := by simpa using hown
    rw [← hown]
    refine .owned (mem_findMany.mpr ⟨hm, ?_⟩)
    simpa [hown] using hid

theorem settingsUpdate_keeps (dto : UpdateSettingsDto) :
    Keeps call past (SettingsService.update call.coach.id dto) := by
  unfold SettingsService.update CoachingCalendar.SettingsService.get
  simp only [bind_eq, ofBooking_bind, bind_assoc]
  refine .ofBooking rfl fun found _ => ?_
  split
  · trivial
  · refine .ofBooking rfl fun _ _ => ?_
    split
    · trivial
    · exact .last (.about (by simp [Statement.coachId?]) rfl)

theorem bookingFindAll_keeps (hc : call.Plain) (coachId : Option String) :
    Keeps call past (BookingsService.findAll call.coach coachId) := by
  unfold BookingsService.findAll
  dsimp only
  rw [if_neg (by simp [hc.1]), bind_eq, map_eq, bind_assoc]
  refine .scope hc.1 ?_
  have hscope : (some call.coach.id).filter (fun x => decide (x ≠ "")) = some call.coach.id := by
    simp [Option.filter_some, hc.2]
  exact .last hscope

/-! ### A cancellation -/

theorem deleteEvent_keeps (eventId : Nat) : Keeps call past (ofBooking (deleteEvent P call.coach.id eventId)) := by
  unfold deleteEvent getAuthenticatedClient
  simp only [bind_eq, ofBooking_bind, bind_assoc]
  refine .ofBooking rfl fun found _ => ?_
  split
  · trivial
  · split
    · trivial
    · show Keeps call _ (ofBooking (Prog.orElse _ _))
      rw [ofBooking_orElse, ofBooking_perform]
      refine follows_orElse.mpr (Follows.mono (Keeps.last (o := .booking (.calendarDelete call.coach.id eventId)) rfl)
        fun _ r _ => ?_)
      cases r <;> trivial

theorem applyCancellation_keeps {booking : BookingWithRelations} {cancelledBy : CancelledBy} {reason : Option String}
    (hown : booking.coachId = call.coach.id) (hfound : ∃ e ∈ past, Found e .booking booking.id call.coach.id) :
    Keeps call past (ofBooking (CoachingCalendar.BookingsService.applyCancellation P booking cancelledBy reason)) := by
  have write : ∀ past', past ⊆ past' → ∀ patch,
      Keeps call past' (ofBooking (perform (CoachingCalendar.Op.bookingUpdate booking.id patch))) := by
    intro past' hsub patch
    obtain ⟨e, he, hf⟩ := hfound
    rw [ofBooking_perform]
    exact .last ⟨e, hsub he, hf⟩
  unfold CoachingCalendar.BookingsService.applyCancellation
  dsimp only
  split
  · rw [bind_eq, ofBooking_bind, hown]
    refine follows_bind.mpr ((License.grows (deleteEvent_keeps _)).mono fun past' r hp => ?_)
    cases r with
    | ok _ => exact write past' hp.1 _
    | error e => trivial
  · exact write past (List.Subset.refl _) _

theorem bookingCancel_keeps (hc : call.coach.role = .coach) (id reason : String) :
    Keeps call past (ofBooking (CoachingCalendar.BookingsService.cancelByCoach P call.coach id reason)) := by
  unfold CoachingCalendar.BookingsService.cancelByCoach
  simp only [bind_eq, ofBooking_bind]
  refine .ofBooking trivial fun found ha => ?_
  cases found with
  | none => trivial
  | some booking =>
      obtain rfl : booking.id = id := ha
      simp only [assertCoachOwnsOrIsAdmin, assertConfirmed]
      split
      · trivial
      · rename_i hown
        have hown : booking.coachId = call.coach.id := by simpa [hc] using hown
        simp only [pure_eq, ofBooking, Prog.bind]
        split
        · trivial
        · change Keeps call _ ((ofBooking (CoachingCalendar.BookingsService.applyCancellation P booking .coach
            (some reason))).bind _)
          refine .seq (applyCancellation_keeps hown ⟨_, List.mem_append_right _ List.mem_cons_self, ?_⟩)
            fun _ updated => ?_
          · exact hown ▸ .booking
          · refine .seq ?_ fun _ _ => trivial
            exact ofBooking_perform (.jobSend _) ▸ Keeps.last trivial

/-- Every request of a coach who is no admin keeps to the rows of the coach. -/
theorem Request.body_keeps (hc : call.Plain) (request : Request) : Keeps call past (request.body P toDateOnly call.coach) := by
  cases request with
  | weeklyFind coachId => exact .scope hc.1 (.map (.last rfl))
  | overrideFind coachId => exact .scope hc.1 (.map (.last rfl))
  | eventTypeFindMine coachId => exact .scope hc.1 (.map (.last rfl))
  | weeklyCreate dto => exact .map (weeklyCreate_keeps dto)
  | weeklyUpdate id dto => exact .map (weeklyUpdate_keeps hc.1 dto)
  | weeklyRemove id => exact .map (weeklyRemove_keeps hc.1)
  | overrideCreate dto => exact .map (overrideCreate_keeps dto)
  | overrideUpdate id dto => exact .map (overrideUpdate_keeps hc.1 dto)
  | overrideRemove id => exact .map (overrideRemove_keeps hc.1)
  | eventTypeCreate dto => exact .map (eventTypeCreate_keeps dto)
  | eventTypeUpdate id dto => exact .map (eventTypeUpdate_keeps hc.1 dto)
  | eventTypeArchive id => exact .map (eventTypeArchive_keeps hc.1)
  | eventTypeRemove id => exact .map (eventTypeRemove_keeps hc.1)
  | eventTypeReorder ids => exact .map (eventTypeReorder_keeps ids)
  | bookingFindAll coachId => exact .map (bookingFindAll_keeps hc coachId)
  | bookingCancel id reason => exact .map (bookingCancel_keeps hc.1 id reason)
  | settingsUpdate dto => exact .map (settingsUpdate_keeps dto)

end CoachingCalendar.Dashboard
