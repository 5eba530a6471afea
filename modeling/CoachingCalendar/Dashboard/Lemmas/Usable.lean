import CoachingCalendar.Availability.Lemmas
import CoachingCalendar.Bookings.Lemmas.Checks
import CoachingCalendar.Dashboard.Lemmas.Statements
import CoachingCalendar.Dashboard.System
import CoachingCalendar.Store.Lemmas

/-! # Availability stays usable -/

namespace CoachingCalendar
open Lib

/-- The data it writes is usable. -/
def Statement.Usable : Statement → Prop
  | .weeklyCreate _ data | .weeklyUpdate _ data => ∀ id coachId, (data.toRow id coachId).Usable
  | .overrideCreate _ data | .overrideUpdate _ data => ∀ id coachId, (data.toRow id coachId).Usable
  | _ => True

theorem Applied.usable {newId : String} {d d' : Db} {s : Statement} {a : s.Ans} (h : Applied newId d s a d')
    (hs : s.Usable) (hd : d.Usable) : d'.Usable := by
  cases h with
  | weeklyCreate _ hi => exact ⟨Table.forall_insert hi hd.weekly (hs _ _), hd.override⟩
  | @weeklyUpdate id data =>
      refine ⟨?_, hd.override⟩
      exact Table.forall_update (f := fun r => data.toRow r.id r.coachId) (fun _ => rfl) hd.weekly fun _ _ _ _ => hs _ _
  | weeklyDelete => exact ⟨Table.forall_delete hd.weekly, hd.override⟩
  | overrideCreate _ hi => exact ⟨hd.weekly, Table.forall_insert hi hd.override (hs _ _)⟩
  | @overrideUpdate id data =>
      refine ⟨hd.weekly, ?_⟩
      exact Table.forall_update (f := fun o => data.toRow o.id o.coachId) (fun _ => rfl) hd.override fun _ _ _ _ => hs _ _
  | overrideDelete => exact ⟨hd.weekly, Table.forall_delete hd.override⟩
  | eventTypeCreate _ _ | eventTypeUpdate _ _ | eventTypeDelete _ | settingsUpdate _ _ =>
      exact ⟨hd.weekly, hd.override⟩
  | eventTypeReorder h => exact reorder_keeps h hd fun _ _ _ _ hd => ⟨hd.weekly, hd.override⟩

namespace Dashboard
open Lib.Prog Lib.System

variable {P : Platform} {toDateOnly : String → Option Int} {coach : Coach} {id : String}

/-! ## Requests -/

/-- Rows that are read are usable, and so is the data that is written. -/
def usable : Protocol Ans Failure Unit where
  answers
    | .weeklyFindUnique _, .ok (some row) => row.Usable
    | .overrideFindUnique _, .ok (some row) => row.Usable
    | _, _ => True
  next _ _ := ()
  allowed
    | _, .write s => s.Usable
    | _, _ => True

variable {w : World} {o : Op} {ch : Choice}

theorem exec_answers (hw : w.db.Usable) : usable.answers o (exec w o ch).1 := by
  cases o with
  | weeklyFindUnique id =>
      simp only [exec, mayFail]
      split
      · trivial
      · cases hf : w.db.weeklyAvailabilities.find id with
        | none => trivial
        | some row => exact hw.weekly row (Table.find_mem hf)
  | overrideFindUnique id =>
      simp only [exec, mayFail]
      split
      · trivial
      · cases hf : w.db.overrides.find id with
        | none => trivial
        | some row => exact hw.override row (Table.find_mem hf)
  | _ => trivial

theorem exec_usable (hw : w.db.Usable) (ho : usable.allowed () o) : (exec w o ch).2.db.Usable := by
  obtain ⟨r, w', hx⟩ : ∃ r w', exec w o ch = (r, w') := ⟨_, _, rfl⟩
  rw [hx]
  cases o with
  | booking o =>
      have hr := exec_onlyRead hx
      exact ⟨hr.weeklyAvailabilities ▸ hw.weekly, hr.overrides ▸ hw.override⟩
  | write s =>
      rcases mayFail_cases hx with ⟨_, _, rfl⟩ | h
      · exact hw
      · split at h
        · cases h; exact hw
        · rename_i ha
          cases h
          exact (apply_ok ha).usable ho hw
  | _ =>
      rw [mayFail_frame hx]
      exact hw

theorem ofBooking_usable {α : Type} (p : BookingProg α) : (ofBooking p).Follows usable (fun _ _ => True) () := by
  induction p with
  | pure _ | throw _ => trivial
  | op o k ih => exact ⟨trivial, fun r _ => ih r⟩

theorem read_usable {o : Op} (ho : ∀ s, o ≠ .write s) : (perform o).Follows usable (fun _ _ => True) () := by
  refine follows_perform.mpr ⟨?_, fun _ _ => trivial⟩
  cases o with
  | write s => exact (ho s rfl).elim
  | _ => trivial

theorem write_usable {s : Statement} (hs : s.Usable) : (perform (Op.write s)).Follows usable (fun _ _ => True) () :=
  follows_perform.mpr ⟨hs, fun _ _ => trivial⟩

theorem assertCoachOwnsOrIsAdmin_follows {ρ : Type} {owner : ρ → String} {row : Option ρ} {message : Message}
    {Q : ρ → Prop} (hrow : ∀ r, row = some r → Q r) :
    (assertCoachOwnsOrIsAdmin owner coach row message).Follows usable (fun _ r => ∀ a, r = .ok a → Q a) () := by
  unfold assertCoachOwnsOrIsAdmin
  split
  · simp
  · split
    · simp
    · simpa using hrow

theorem owned_usable {ρ : Type} {owner : ρ → String} {o : Op} {row : Ans o → Option ρ} {message : Message}
    {Q : ρ → Prop} (ho : ∀ s, o ≠ .write s) (hans : ∀ a r, usable.answers o (.ok a) → row a = some r → Q r) :
    ((perform o).bind fun a => assertCoachOwnsOrIsAdmin owner coach (row a) message).Follows usable
      (fun _ r => ∀ a, r = .ok a → Q a) () := by
  refine .perform_bind ((read_usable ho).1) (fun a ha => ?_) (by simp)
  exact assertCoachOwnsOrIsAdmin_follows fun r hr => hans a r ha hr

theorem weekly_assertOwnership_usable : (WeeklyAvailabilityService.assertOwnership coach id).Follows usable
    (fun _ r => ∀ a, r = .ok a → a.Usable) () := by
  refine owned_usable (by simp) fun a r ha hr => ?_
  subst hr
  exact ha

theorem override_assertOwnership_usable : (AvailabilityOverrideService.assertOwnership coach id).Follows usable
    (fun _ r => ∀ a, r = .ok a → a.Usable) () := by
  refine owned_usable (by simp) fun a r ha hr => ?_
  subst hr
  exact ha

theorem assertValidRange_follows {startMinute endMinute : Int} :
    (WeeklyAvailabilityService.assertValidRange startMinute endMinute).Follows usable
      (fun _ r => ∀ a, r = .ok a → startMinute < endMinute) () := by
  unfold WeeklyAvailabilityService.assertValidRange
  split
  · simp
  · simp; omega

theorem assertValidMinutes_follows {startMinute endMinute : Option Int} :
    (AvailabilityOverrideService.assertValidMinutes startMinute endMinute).Follows usable
      (fun _ r => ∀ a, r = .ok a → ∃ s e, startMinute = some s ∧ endMinute = some e ∧ s < e) () := by
  unfold AvailabilityOverrideService.assertValidMinutes
  split
  · split
    · simp
    · simp; omega
  · simp

theorem isIn_iff {min max v : Int} : isIn min max v = true ↔ min ≤ v ∧ v ≤ max := by simp [isIn]

theorem weeklyCreate_usable {dto : CreateWeeklyAvailabilityDto} (hdto : dto.valid = true) :
    (WeeklyAvailabilityService.create coach dto).Follows usable (fun _ _ => True) () := by
  simp only [CreateWeeklyAvailabilityDto.valid, isMinute, Bool.and_eq_true, isIn_iff] at hdto
  obtain ⟨⟨hw, hs⟩, he⟩ := hdto
  refine .andThen assertValidRange_follows fun _ _ hlt => write_usable ?_
  exact fun _ _ => ⟨hw, hs.1, hlt, he.2⟩

theorem weeklyUpdate_usable {dto : UpdateWeeklyAvailabilityDto} (hdto : dto.valid = true) :
    (WeeklyAvailabilityService.update coach id dto).Follows usable (fun _ _ => True) () := by
  simp only [UpdateWeeklyAvailabilityDto.valid, isMinute, Bool.and_eq_true, Option.all_eq_true, isIn_iff] at hdto
  obtain ⟨⟨hw, hs⟩, he⟩ := hdto
  refine .andThen weekly_assertOwnership_usable fun _ existing hex => ?_
  refine .andThen assertValidRange_follows fun _ _ hlt => write_usable fun _ _ => ?_
  -- a field that is not given is the one of the row that was read
  have weekday : 1 ≤ dto.weekday.getD existing.weekday ∧ dto.weekday.getD existing.weekday ≤ 7 := by
    cases h : dto.weekday with
    | none => exact hex.weekday
    | some v => exact hw v h
  have start : 0 ≤ dto.startMinute.getD existing.startMinute := by
    cases h : dto.startMinute with
    | none => exact hex.range.nonneg
    | some v => exact (hs v h).1
  have stop : dto.endMinute.getD existing.endMinute ≤ 1440 := by
    cases h : dto.endMinute with
    | none => exact hex.range.le
    | some v => exact (he v h).2
  exact ⟨weekday, start, hlt, stop⟩

theorem minutes_of_usable {o : AvailabilityOverride} (h : o.Usable) :
    (∀ v, o.startMinute = some v → 0 ≤ v) ∧ ∀ v, o.endMinute = some v → v ≤ 1440 := by
  cases h with
  | off _ hs he => simp [hs, he]
  | range _ hs he h => simpa [hs, he] using ⟨h.nonneg, h.le⟩

theorem dateOf_usable {α : Type} {date : Option Int} {f : Int → DashboardProg α}
    (hf : ∀ date, (f date).Follows usable (fun _ _ => True) ()) :
    ((AvailabilityOverrideService.dateOf date).bind f).Follows usable (fun _ _ => True) () := by
  unfold AvailabilityOverrideService.dateOf
  split
  · trivial
  · exact hf _

theorem overrideCreate_usable {dto : CreateAvailabilityOverrideDto} (hdto : dto.valid = true) :
    (AvailabilityOverrideService.create toDateOnly coach dto).Follows usable (fun _ _ => True) () := by
  unfold AvailabilityOverrideService.create
  dsimp only
  cases hu : dto.isUnavailable.getD false with
  | true => exact dateOf_usable fun date => write_usable fun _ _ => .off rfl rfl rfl
  | false =>
      have hn : dto.isUnavailable ≠ some true := by rintro h; simp [h] at hu
      simp only [CreateAvailabilityOverrideDto.valid, hn, decide_false, Bool.false_or, isMinute, Bool.and_eq_true,
        Option.any_eq_true, isIn_iff] at hdto
      obtain ⟨⟨s, hs, hs'⟩, e, he, he'⟩ := hdto
      refine .andThen assertValidMinutes_follows fun _ _ hlt => ?_
      refine dateOf_usable fun date => write_usable fun _ _ => ?_
      obtain ⟨s', e', hs'', he'', hlt⟩ := hlt
      cases hs.symm.trans hs''
      cases he.symm.trans he''
      exact .range rfl hs he ⟨hs'.1, hlt, he'.2⟩

theorem overrideUpdate_usable {dto : UpdateAvailabilityOverrideDto} (hdto : dto.valid = true) :
    (AvailabilityOverrideService.update toDateOnly coach id dto).Follows usable (fun _ _ => True) () := by
  unfold AvailabilityOverrideService.update
  refine .andThen override_assertOwnership_usable fun _ existing hex => ?_
  dsimp only
  cases hu : dto.isUnavailable.getD existing.isUnavailable with
  | true => exact dateOf_usable fun date => write_usable fun _ _ => .off rfl rfl rfl
  | false =>
      have hn : dto.isUnavailable ≠ some true := by rintro h; simp [h] at hu
      simp only [UpdateAvailabilityOverrideDto.valid, hn, decide_false, Bool.false_or, isMinute, Bool.and_eq_true,
        Option.all_eq_true, isIn_iff] at hdto
      refine .andThen assertValidMinutes_follows fun _ _ hlt => ?_
      refine dateOf_usable fun date => write_usable fun _ _ => ?_
      obtain ⟨s, e, hs, he, hlt⟩ := hlt
      -- a minute that is not given is the one of the row that was read
      have start : 0 ≤ s := by
        cases h : dto.startMinute with
        | none => exact (minutes_of_usable hex).1 s (by simpa [h] using hs)
        | some v =>
            obtain rfl : v = s := by simpa [h] using hs
            exact (hdto.1 v h).1
      have stop : e ≤ 1440 := by
        cases h : dto.endMinute with
        | none => exact (minutes_of_usable hex).2 e (by simpa [h] using he)
        | some v =>
            obtain rfl : v = e := by simpa [h] using he
            exact (hdto.2 v h).2
      exact .range rfl hs he ⟨start, hlt, stop⟩

theorem resolveCoachScope_usable (coachId : Option String) :
    (resolveCoachScope coach coachId).Follows usable (fun _ _ => True) () := by
  unfold resolveCoachScope
  split
  · trivial
  · split <;> trivial

theorem eventType_assertOwnership_usable : (EventTypesService.assertOwnership coach id).Follows usable
    (fun _ r => ∀ a, r = .ok a → True) () :=
  owned_usable (by simp) fun _ _ _ _ => trivial

theorem eventTypeWrite_usable {α : Type} {f : EventType → DashboardProg α}
    (hf : ∀ e, (f e).Follows usable (fun _ _ => True) ()) :
    ((EventTypesService.assertOwnership coach id).bind f).Follows usable (fun _ _ => True) () :=
  .andThen eventType_assertOwnership_usable fun _ e _ => hf e

/-- Every request with a valid body writes usable data, as long as it reads usable rows. -/
theorem Request.body_usable {request : Request} (hv : request.valid = true) :
    (request.body P toDateOnly coach).Follows usable (fun _ _ => True) () := by
  cases request with
  | weeklyFind coachId =>
      exact .seq (resolveCoachScope_usable coachId) fun _ _ => .seq (read_usable (by simp)) fun _ _ => trivial
  | weeklyCreate dto => exact .seq (weeklyCreate_usable hv) fun _ _ => trivial
  | weeklyUpdate id dto => exact .seq (weeklyUpdate_usable hv) fun _ _ => trivial
  | weeklyRemove id =>
      refine .seq (.andThen weekly_assertOwnership_usable fun _ _ _ => write_usable trivial) fun _ _ => trivial
  | overrideFind coachId =>
      exact .seq (resolveCoachScope_usable coachId) fun _ _ => .seq (read_usable (by simp)) fun _ _ => trivial
  | overrideCreate dto => exact .seq (overrideCreate_usable hv) fun _ _ => trivial
  | overrideUpdate id dto => exact .seq (overrideUpdate_usable hv) fun _ _ => trivial
  | overrideRemove id =>
      refine .seq (.andThen override_assertOwnership_usable fun _ _ _ => write_usable trivial) fun _ _ => trivial
  | eventTypeFindMine coachId =>
      exact .seq (resolveCoachScope_usable coachId) fun _ _ => .seq (read_usable (by simp)) fun _ _ => trivial
  | eventTypeCreate dto =>
      refine .seq ?_ fun _ _ => trivial
      unfold EventTypesService.create
      dsimp only
      split
      · exact write_usable (s := .eventTypeCreate _ _) trivial
      · refine .seq (.seq (read_usable (o := .eventTypeMaxPosition _) (by simp)) fun _ _ => trivial) fun _ _ => ?_
        exact write_usable (s := .eventTypeCreate _ _) trivial
  | eventTypeUpdate id dto => exact .seq (eventTypeWrite_usable fun _ => write_usable trivial) fun _ _ => trivial
  | eventTypeArchive id =>
      exact .seq (eventTypeWrite_usable fun e =>
        write_usable (s := .eventTypeUpdate e.id { isActive := some (some false) }) trivial) fun _ _ => trivial
  | eventTypeRemove id =>
      refine .seq (eventTypeWrite_usable fun e => ?_) fun _ _ => trivial
      rw [tryCatch_eq, follows_orElse]
      refine (write_usable (s := .eventTypeDelete e.id) trivial).mono fun _ r _ => ?_
      cases r with
      | ok _ => trivial
      | error e =>
          dsimp only [caught]
          split <;> trivial
  | eventTypeReorder ids =>
      refine .seq (.seq (read_usable (by simp)) fun _ owned => ?_) fun _ _ => trivial
      split
      · trivial
      · exact write_usable trivial
  | bookingFindAll coachId =>
      refine .seq ?_ fun _ _ => trivial
      unfold BookingsService.findAll
      dsimp only
      split
      · exact read_usable (o := .bookingFindMany _) (by simp)
      · refine .seq (.seq (resolveCoachScope_usable coachId) fun _ _ => trivial) fun _ _ => ?_
        exact read_usable (o := .bookingFindMany _) (by simp)
  | bookingCancel id reason => exact .seq (ofBooking_usable _) fun _ _ => trivial
  | settingsUpdate dto =>
      refine .seq (.seq (ofBooking_usable _) fun _ _ => ?_) fun _ _ => trivial
      dsimp only
      split
      · trivial
      · exact write_usable trivial

end Dashboard

end CoachingCalendar
