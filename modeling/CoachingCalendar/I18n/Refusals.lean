import CoachingCalendar.Bookings.Conditions
import CoachingCalendar.I18n.Theorems
import CoachingCalendar.Lib.Failures

/-!
# Refusals

A request that is refused is refused in words. That a driver throws no HTTP exceptions is a condition on runs.
-/

namespace CoachingCalendar
open Lib Lib.Prog Lib.System

variable {P : Platform} {past : List (Event Ans Failure)}

/-! ## The programs -/

/-- The text of an HTTP exception, when it is one that is translated. -/
def Failure.Spoken : Failure → Prop
  | .http _ (.translated key locale args) => Said key locale (args.map fun a => (a.1, .num a.2))
  | _ => True

theorem refused {key : String} {locale : Option String} {args : List (String × Int)} {status : Nat}
    (h : (key, args.map (·.1)) ∈ refusalTexts) : (Failure.http status (.translated key locale args)).Spoken := by
  refine said_of_asked ?_
  rw [List.map_map]
  exact List.mem_append_right _ h

/-- Its own failures are spoken. -/
abbrev Polite {α : Type} (past : List (Event Ans Failure)) (p : BookingProg α) : Prop := p.FailsWith Failure.Spoken past

namespace Polite

theorem refuse {α : Type} {key : String} {locale : Option String} {args : List (String × Int)} {status : Nat}
    (h : (key, args.map (·.1)) ∈ refusalTexts) :
    Polite past (Prog.throw (.http status (.translated key locale args)) : BookingProg α) :=
  .throw (.inl (refused h))

theorem plain {α : Type} {e : Failure} (h : e.Spoken) : Polite past (Prog.throw e : BookingProg α) := .throw (.inl h)

theorem settings (coachId : String) : Polite past (SettingsService.get coachId) := by
  unfold SettingsService.get
  refine .bind .perform fun _ coach => ?_
  dsimp only
  split
  · exact plain trivial
  · exact .perform

theorem deleteEvent (coachId : String) (eventId : Nat) : Polite past (deleteEvent P coachId eventId) := by
  unfold CoachingCalendar.deleteEvent getAuthenticatedClient
  refine .bind (.bind .perform fun _ integration => ?_) fun _ _ => .orElse .perform fun _ _ _ => .pure
  split
  · exact plain trivial
  · split
    · exact plain trivial
    · exact .pure

theorem assertConfirmed (status : BookingStatus) (locale : String) : Polite past (assertConfirmed status locale) := by
  unfold CoachingCalendar.assertConfirmed
  split
  · exact refuse (by simp [refusalTexts])
  · exact .pure

theorem assertWithinNoticeWindow (coachId : String) (startAt : Int) (locale : String) :
    Polite past (assertWithinNoticeWindow coachId startAt locale) := by
  unfold CoachingCalendar.assertWithinNoticeWindow
  refine .bind (settings coachId) fun _ settings => .bind .perform fun _ now => ?_
  split
  · exact refuse (by simp [refusalTexts])
  · exact .pure

theorem assertSameCalendarDay (startAt endAt : Int) (Z : Zone) (locale : String) :
    Polite past (assertSameCalendarDay startAt endAt Z locale) := by
  unfold CoachingCalendar.assertSameCalendarDay
  split
  · exact refuse (by simp [refusalTexts])
  · exact .pure

theorem parseStartAt (startAt locale : String) : Polite past (parseStartAt P startAt locale) := by
  unfold CoachingCalendar.parseStartAt
  split
  · exact refuse (by simp [refusalTexts])
  · refine .bind .perform fun _ now => ?_
    dsimp only
    split
    · exact refuse (by simp [refusalTexts])
    · exact .pure

theorem assertWithinSchedule (coachId : String) (startAt endAt : Int) (timezone locale : String) :
    Polite past (assertWithinSchedule P coachId startAt endAt timezone locale) := by
  unfold CoachingCalendar.assertWithinSchedule isWithinEffectiveRange getEffectiveRangesForDate
  refine .bind (.bind (.bind .perform fun _ overrides => ?_) fun _ ranges => .pure) fun _ within => ?_
  · dsimp only
    split
    · exact .pure
    · exact .bind .perform fun _ weekly => .pure
  · split
    · exact refuse (by simp [refusalTexts])
    · exact .pure

theorem runSerializable {α : Type} {fn : BookingProg α} (h : ∀ past, Polite past fn) :
    Polite past (runSerializable fn) := by
  have attempts : ∀ left past, Polite past (runSerializableFrom fn DEFAULT_CONFLICT_MESSAGE left) := by
    intro left
    induction left with
    | zero => exact fun _ => plain trivial
    | succ left ih =>
        intro past
        unfold runSerializableFrom
        refine .orElse (h past) fun past' e he => ?_
        split
        · exact .throw he
        · exact ih past'
  exact attempts _ past

theorem reserveSlot (tx : SlotTransaction) (timezone : String) :
    Polite past (CoachingCalendar.runSerializable (reserveSlot P tx timezone)) :=
  runSerializable fun _ => .bind (assertWithinSchedule _ _ _ _ _) fun _ _ => .perform

theorem findByManageToken (token : String) : Polite past (BookingsService.findByManageToken token) := by
  unfold BookingsService.findByManageToken
  refine .bind .perform fun _ booking => ?_
  split
  · exact refuse (by simp [refusalTexts])
  · exact .pure

theorem cancellation (b : BookingWithRelations) (cancelledBy : CancelledBy) (reason : Option String) :
    Polite past ((BookingsService.applyCancellation P b cancelledBy reason).bind fun updated =>
      (BookingsService.enqueue updated .cancelled).bind fun _ => .pure updated) := by
  refine .bind ?_ fun _ updated => .bind .perform fun _ _ => .pure
  unfold BookingsService.applyCancellation
  cases b.googleEventId with
  | none => exact .perform
  | some eventId => exact .bind (deleteEvent _ _) fun _ _ => .perform

theorem dropMeetLink (b : BookingWithRelations) : Polite past (BookingsService.dropMeetLink P b) := by
  unfold BookingsService.dropMeetLink
  split
  · exact .bind (deleteEvent _ _) fun _ _ => .perform
  · exact .pure

theorem create (dto : CreateBookingDto) (originUrl : Option String) :
    Polite past (BookingsService.create P dto originUrl) := by
  unfold BookingsService.create
  refine .bind .perform fun _ eventType => ?_
  split
  · exact refuse (by simp [refusalTexts])
  · dsimp only
    split
    · exact refuse (by simp [refusalTexts])
    split
    · exact refuse (by simp [refusalTexts])
    refine .bind (settings _) fun _ settings => .bind (parseStartAt _ _) fun _ startAt => ?_
    refine .bind (assertSameCalendarDay _ _ _ _) fun _ _ => ?_
    exact .bind (reserveSlot _ _) fun _ b => .bind .perform fun _ _ => .pure

theorem cancelByCoach (coach : Coach) (bookingId reason : String) :
    Polite past (BookingsService.cancelByCoach P coach bookingId reason) := by
  unfold BookingsService.cancelByCoach assertCoachOwnsOrIsAdmin
  refine .bind .perform fun _ found => .bind ?_ fun _ b => ?_
  · split
    · exact refuse (by simp [refusalTexts])
    · split
      · exact refuse (by simp [refusalTexts])
      · exact .pure
  · exact .bind (assertConfirmed _ _) fun _ _ => cancellation b _ _

theorem body {call : Call} (hr : call.isRequest = true) : Polite past (call.body P) := by
  cases call with
  | create dto originUrl => exact .bind (create dto originUrl) fun _ _ => .pure
  | cancelByClient token reason =>
      refine .bind (.bind (findByManageToken token) fun _ b => ?_) fun _ _ => .pure
      exact .bind (assertConfirmed _ _) fun _ _ => .bind (assertWithinNoticeWindow _ _ _) fun _ _ => cancellation b _ _
  | cancelByCoach coach bookingId reason => exact .bind (cancelByCoach coach bookingId reason) fun _ _ => .pure
  | rescheduleByClient token newStartAt =>
      refine .bind (.bind (findByManageToken token) fun _ b => ?_) fun _ _ => .pure
      refine .bind (assertConfirmed _ _) fun _ _ => .bind (assertWithinNoticeWindow _ _ _) fun _ _ => ?_
      refine .bind (settings _) fun _ settings => .bind (parseStartAt _ _) fun _ startAt => ?_
      refine .bind (assertSameCalendarDay _ _ _ _) fun _ _ => .bind (reserveSlot _ _) fun _ updated => ?_
      exact .bind (dropMeetLink _) fun _ _ => .bind .perform fun _ _ => .pure
  | work job => cases hr

end Polite

/-! ## Drivers -/

/-- A driver throws no HTTP exception. The body of a booking transaction throws one. -/
def driverFails : Event Ans Failure → Bool
  | ⟨.transaction tx, .error (.http _ message)⟩ => message = .translated "errors.slotJustBooked" tx.locale
  | ⟨_, .error (.http _ _)⟩ => false
  | _ => true

def driversFail : BookingGuard where
  call _ := True
  event _ e := driverFails e.toEvent = true

instance (call : Call) : Decidable (driversFail.call call) := .isTrue trivial

instance (c : BookingConfig) (e : BookingEntry) : Decidable (driversFail.event c e) :=
  inferInstanceAs (Decidable (driverFails e.toEvent = true))

theorem spoken_of_driverFails {ev : Event Ans Failure} {e : Failure} (h : driverFails ev = true)
    (he : ev.res = .error e) : e.Spoken := by
  obtain ⟨o, r⟩ := ev
  obtain rfl : r = .error e := he
  cases e with
  | prisma code => trivial
  | other text => trivial
  | http status message =>
      cases o with
      | transaction tx =>
          obtain rfl : message = .translated "errors.slotJustBooked" tx.locale := of_decide_eq_true h
          exact refused (by simp [refusalTexts])
      | _ => cases h

/-- The condition is one on the faults of the environment alone. -/
theorem exec_driverFails {w w' : World} {o : Op} {ch : Choice} {r : Except Failure (Ans o)}
    (hf : ∀ status message, ch.fault ≠ some (.http status message)) (hx : exec w o ch = (r, w')) :
    driverFails ⟨o, r⟩ = true := by
  have fault : ∀ {x : Except Failure (Ans o) × World}, unlessFault ch w x = (r, w') →
      driverFails ⟨o, r⟩ = true ∨ x = (r, w') := by
    intro x h
    unfold unlessFault at h
    split at h
    · rename_i e he
      cases h
      cases e with
      | http status message => exact absurd he (hf status message)
      | _ => cases o <;> exact .inl rfl
    · exact .inr h
  cases o with
  | now | jobRetry => cases hx; rfl
  | transaction tx =>
      rcases fault hx with h | h
      · exact h
      · unfold runTransaction at h
        split at h
        · cases h
          exact decide_eq_true rfl
        · split at h
          · dsimp only at h
            split at h
            · cases h; rfl
            · split at h <;> cases h <;> rfl
          · split at h <;> cases h <;> rfl
  | settingsUpsert | bookingUpdate =>
      rcases fault hx with h | h
      · exact h
      · split at h <;> cases h <;> rfl
  | eventTypeFindUnique | coachFindUnique | overrideFindMany | weeklyFindMany | bookingFindByManageToken
  | bookingFindUnique | integrationFindUnique | calendarInsert | calendarDelete | sendEmail | jobSend =>
      rcases fault hx with h | h
      · exact h
      · cases h; rfl

/-! ## The result -/

theorem computeSlots_spoken {fuel : Nat} {db : Db} {now : Int} {query : QuerySlotsDto} {e : Failure}
    (h : computeSlots P fuel db now query = some (.error e)) : e.Spoken := by
  unfold computeSlots at h
  split at h
  · cases h
    exact refused (by simp [refusalTexts])
  · split at h
    · cases h
      exact refused (by simp [refusalTexts])
    · split at h
      · cases h
        trivial
      · dsimp only at h
        split at h
        · split at h
          · cases h
            exact refused (by simp [refusalTexts])
          · split at h
            · cases h
              exact refused (by simp [refusalTexts])
            · simp only [Option.bind_eq_bind, Option.bind_eq_some_iff] at h
              obtain ⟨ranges, -, days, -, slots, -, h⟩ := h
              cases h
        · cases h
          exact refused (by simp [refusalTexts])

variable {w : World} {c : BookingConfig} {i : Nat} {call : Call} {e : Failure}

theorem run_driverFails (h : (bookingSystem P).Run driversFail (.start w) c) :
    ∀ l ∈ c.log, driverFails l.toEvent = true := by
  refine h.invariant (I := fun c => ∀ l ∈ c.log, driverFails l.toEvent = true)
    (fun l hl => absurd hl List.not_mem_nil) fun c c' hc hs => ?_
  cases hs with
  | spawn _ _ => exact hc
  | drift _ => exact hc
  | fire _ _ he =>
      intro l hl
      rcases List.mem_append.mp hl with hl | hl
      · exact hc l hl
      · obtain rfl := List.mem_singleton.mp hl
        exact he

/-- However requests and jobs interleave, what a request is refused with is said in the language that it is refused
in, down to the last variable, and so is what a query of the slots is refused with. -/
theorem refusals_spoken (h : (bookingSystem P).Run driversFail (.start w) c) :
    (∀ i call e, call.isRequest = true → c.Ended i call (.error e) → e.Spoken) ∧
    ∀ fuel now query e, computeSlots P fuel c.world.db now query = some (.error e) → e.Spoken := by
  refine ⟨fun i call e hr he => ?_, fun fuel now query e => computeSlots_spoken⟩
  rcases h.blamed (Polite.body hr) he with hs | ⟨l, hl, -, hres⟩
  · exact hs
  · exact spoken_of_driverFails (run_driverFails h l hl) hres

/-- What a call has failed with. -/
def refusalOf (c : BookingConfig) (i : Nat) : Option (Call × Failure) :=
  match c.threads[i]? with
  | some ⟨call, .throw e⟩ => some (call, e)
  | _ => none

theorem ended_of_refusalOf (h : refusalOf c i = some (call, e)) : c.Ended i call (.error e) := by
  unfold refusalOf at h
  split at h
  · rename_i hi
    cases h
    exact hi
  · cases h

/-- The second of two requests for one hour. -/
theorem refusals_spoken_second : ∃ c, (bookingSystem .sample).Run driversFail (.start .sample) c ∧
    c.Ended 1 (.create .sample none) (.error (.conflict (.translated "errors.slotJustBooked" (some "hu")))) ∧
    Said "errors.slotJustBooked" (some "hu") [] := by
  obtain ⟨c, h, hp⟩ := run_of_play (S := bookingSystem .sample) (G := driversFail) (c := .start .sample)
    (bookSample ++ [.spawn (.create .sample none)] ++ fires 1 7)
    (fun c => refusalOf c 1 =
      some (.create .sample none, .conflict (.translated "errors.slotJustBooked" (some "hu")))) (by decide)
  have he := ended_of_refusalOf (of_decide_eq_true hp)
  exact ⟨c, h, he, (refusals_spoken h).1 _ _ _ rfl he⟩

end CoachingCalendar
