import CoachingCalendar.Notifications.Lemmas.Mails

/-! # What holds of mails -/

namespace CoachingCalendar
open Lib Lib.System

variable {P : Platform} {w : World} {c : BookingConfig}
variable {U : LuxonUtc} {createEvent : EventAttributes → EventReturn}

/-! ## Both calendar entries -/

/-- The attachment and the link of a booking both give the interval of the booking exactly when the booking starts on
a whole minute. -/
theorem calendar_entries_exact_iff (hU : U.Reads) (hI : PrintsMinutes createEvent) (h₀ : w.Fresh)
    (h : (bookingSystem P).Run .any (.start w) c) {b : BookingWithRelations} (hb : b.toBooking ∈ c.world.db.bookings)
    {businessAddress file : String} (hfile : buildIcsFile U createEvent (icsInput b businessAddress) = .ok file) :
    (icsInterval file = some (b.startAt, b.endAt) ∧
      linkInterval (buildGoogleCalendarQuickAddUrl U (quickAddInput b businessAddress)) = some (b.startAt, b.endAt)) ↔
      b.startAt % msPerMinute = 0 := by
  obtain ⟨⟨i, eventType, hi⟩, hof⟩ := run_ofType h₀ h hb
  have hlen := (hof i eventType hi).length
  rw [icsInterval_buildIcsFile hU hI hfile, linkInterval_buildGoogleCalendarQuickAddUrl hU]
  simp only [icsInput, quickAddInput, Option.some.injEq, Prod.mk.injEq]
  unfold Booking.length msPerMinute at *
  omega

/-- The sample booking, at ten o'clock. -/
theorem calendar_entries_exact_iff_sharp :
    ∃ c b file, (bookingSystem .sample).Run .any (.start .sample) c ∧ b ∈ c.world.db.bookings ∧
      buildIcsFile .sample EventReturn.sample (icsInput (c.world.db.withRelations b) "Main Street 1") = .ok file ∧
      icsInterval file = some (1773046800000, b.endAt) ∧
      linkInterval (buildGoogleCalendarQuickAddUrl .sample
        (quickAddInput (c.world.db.withRelations b) "Main Street 1")) = some (1773046800000, b.endAt) := by
  obtain ⟨c, h, hp⟩ := run_of_play (S := bookingSystem .sample) (G := .any) (c := .start .sample) bookSample
    (fun c => c.world.db.bookings.rows.any fun b => b.startAt = 1773046800000) (by decide)
  obtain ⟨b, hb, hs⟩ := List.any_eq_true.mp hp
  have hs : b.startAt = 1773046800000 := of_decide_eq_true hs
  obtain ⟨file, hfile⟩ := buildIcsFile_sample .sample (icsInput (c.world.db.withRelations b) "Main Street 1")
  have hexact := (calendar_entries_exact_iff LuxonUtc.sample_reads EventReturn.sample_printsMinutes ⟨rfl, rfl, rfl⟩ h
    (b := c.world.db.withRelations b) hb hfile).mpr (by rw [Db.withRelations, hs]; rfl)
  rw [← hs]
  exact ⟨c, b, file, h, hb, hfile, hexact⟩

/-- The sample platform, for a time half a minute past ten. -/
def Platform.halfMinute : Platform :=
  { Platform.sample with
    luxon := .sample ⟨fun _ => 60⟩ [("2026-03-09T09:00:30.000Z", 1773046830000)] [("2026-03-09", 20521)] }

/-- The attachment of a booking at half a minute past ten says ten. -/
theorem attachment_drops_seconds : ¬ ∀ (U : LuxonUtc) (createEvent : EventAttributes → EventReturn) (P : Platform)
    (w : World) (c : BookingConfig) (b : BookingWithRelations) (businessAddress file : String),
    U.Reads → PrintsMinutes createEvent → w.Fresh → (bookingSystem P).Run .any (.start w) c →
    b.toBooking ∈ c.world.db.bookings → b.startAt % 1000 = 0 →
    buildIcsFile U createEvent (icsInput b businessAddress) = .ok file →
    icsInterval file = some (b.startAt, b.endAt) ∧
      linkInterval (buildGoogleCalendarQuickAddUrl U (quickAddInput b businessAddress)) =
        some (b.startAt, b.endAt) := by
  intro hall
  obtain ⟨c, h, hp⟩ := run_of_play (S := bookingSystem .halfMinute) (G := .any) (c := .start .sample)
    ([.spawn (.create { CreateBookingDto.sample with startAt := "2026-03-09T09:00:30.000Z" } none)] ++
      fires 0 8 { newId := "b1", newToken := "t1" })
    (fun c => c.world.db.bookings.rows.any fun b => b.startAt = 1773046830000) (by decide)
  obtain ⟨b, hb, hs⟩ := List.any_eq_true.mp hp
  have hs : b.startAt = 1773046830000 := of_decide_eq_true hs
  obtain ⟨file, hfile⟩ := buildIcsFile_sample .sample (icsInput (c.world.db.withRelations b) "")
  have hexact := (hall _ _ _ _ c (c.world.db.withRelations b) "" file LuxonUtc.sample_reads
    EventReturn.sample_printsMinutes ⟨rfl, rfl, rfl⟩ h hb (by rw [Db.withRelations, hs]; rfl) hfile).1
  rw [icsInterval_buildIcsFile LuxonUtc.sample_reads EventReturn.sample_printsMinutes hfile, Option.some.injEq,
    Prod.mk.injEq] at hexact
  simp only [icsInput, Db.withRelations, hs] at hexact
  exact absurd hexact.1 (by decide)

/-! ## The length in a mail -/

variable {admits : Statement → Prop} {e : BookingEntry} {mail : Mail}

/-- Every mail is made from a booking that its call got before, and that booking was created from an event type. The
text, the attachment and the link of the mail tell the length of the booking exactly when, as the call got the
booking, its event type had the duration that it was created with. -/
theorem mails_state_length_iff (hU : U.Reads) (hI : PrintsMinutes createEvent) (h₀ : w.Fresh)
    (h : (calendarSystem P admits).Run .any (.start w) c) (he : e ∈ c.log) (hm : e.op = .sendEmail mail) :
    (∃ booking settings c₁ c₂, MadeFrom (calendarSystem P admits) w c e mail booking settings c₁ c₂) ∧
    ∀ booking settings c₁ c₂, MadeFrom (calendarSystem P admits) w c e mail booking settings c₁ c₂ →
      (∃ i eventType, CreatedFrom c₂ i eventType booking.id) ∧
      ∀ i eventType, CreatedFrom c₂ i eventType booking.id → ∀ email,
        sendTo U createEvent mail.recipient mail.kind booking (buildEmailContext U booking settings)
          settings.emailFrom = .ok email →
        (email.StatesLength booking.length ↔
          c₁.world.db.durationOf booking.toBooking = eventType.durationMinutes) := by
  refine ⟨run_madeFrom h he hm, fun booking settings c₁ c₂ hf => ?_⟩
  obtain ⟨hjoined, hcreated, hlen⟩ := hf.booking_ofType h₀
  refine ⟨hcreated, fun i eventType hi email hok => ?_⟩
  rw [← hjoined]
  exact statesLength_iff hU hI hok (hlen i eventType hi)

theorem mailSample_spec (between : List (Move Choice Call (Change Statement.updatesEventType))) (minutes : Int)
    (h : ((calendarSystem .sample Statement.updatesEventType).play .any (mailSample between) (.start .sample)).any
      (fun c => c.log.any (showsForAnHour minutes)) = true) :
    ∃ c e mail booking settings c₁ c₂ email,
      (calendarSystem .sample Statement.updatesEventType).Run .any (.start .sample) c ∧
      e ∈ c.log ∧ e.op = .sendEmail mail ∧
      MadeFrom (calendarSystem .sample Statement.updatesEventType) .sample c e mail booking settings c₁ c₂ ∧
      sendTo .sample EventReturn.sample mail.recipient mail.kind booking (buildEmailContext .sample booking settings)
        settings.emailFrom = .ok email ∧
      booking.eventType.durationMinutes = minutes ∧ booking.length = 3600000 := by
  obtain ⟨c, hc, hp⟩ := run_of_play _ _ h
  obtain ⟨e, he, hs⟩ := List.any_eq_true.mp hp
  obtain ⟨mail, hm, hs⟩ := (Option.any_eq_true _ _).mp hs
  have hop : e.op = .sendEmail mail := by
    unfold mailIssued at hm
    split at hm
    · rename_i ho
      cases hm
      exact ho
    · cases hm
  rw [Bool.and_eq_true, decide_eq_true_eq, decide_eq_true_eq] at hs
  obtain ⟨booking, settings, c₁, c₂, hf⟩ := run_madeFrom hc he hop
  rw [hf.mail] at hs
  obtain ⟨email, hok⟩ := sendTo_sample .sample mail.recipient mail.kind booking
    (buildEmailContext .sample booking settings) settings.emailFrom
  exact ⟨c, e, mail, booking, settings, c₁, c₂, email, hc, he, hop, hf, hok, hs⟩

/-- The mail of a booking whose event type nobody has touched. -/
theorem mails_state_length_iff_untouched :
    ∃ c e mail booking settings c₁ c₂ email,
      (calendarSystem .sample Statement.updatesEventType).Run .any (.start .sample) c ∧
      e ∈ c.log ∧ e.op = .sendEmail mail ∧
      MadeFrom (calendarSystem .sample Statement.updatesEventType) .sample c e mail booking settings c₁ c₂ ∧
      sendTo .sample EventReturn.sample mail.recipient mail.kind booking (buildEmailContext .sample booking settings)
        settings.emailFrom = .ok email ∧
      email.StatesLength booking.length ∧ booking.length = 60 * msPerMinute := by
  obtain ⟨c, e, mail, booking, settings, c₁, c₂, email, hc, he, hm, hf, hok, hd, hlen⟩ :=
    mailSample_spec [] 60 (by decide)
  obtain ⟨hjoined, ⟨i, eventType, hi⟩, hl⟩ := hf.booking_ofType ⟨rfl, rfl, rfl⟩
  have hminutes := hl i eventType hi
  refine ⟨c, e, mail, booking, settings, c₁, c₂, email, hc, he, hm, hf, hok, ?_, hlen⟩
  refine ((mails_state_length_iff LuxonUtc.sample_reads EventReturn.sample_printsMinutes ⟨rfl, rfl, rfl⟩ hc he hm).2
    booking settings c₁ c₂ hf).2 i eventType hi email hok |>.mpr ?_
  rw [← hjoined, hd]
  unfold msPerMinute at hminutes
  omega

/-- The event type is cut to half an hour between the booking and its mail. -/
theorem mail_states_other_length : ¬ ∀ (U : LuxonUtc) (createEvent : EventAttributes → EventReturn) (P : Platform)
    (w : World) (c : BookingConfig) (e : BookingEntry) (mail : Mail) (booking : BookingWithRelations)
    (settings : Settings) (c₁ c₂ : BookingConfig) (email : SendEmailInput),
    U.Reads → PrintsMinutes createEvent → w.Fresh →
    (calendarSystem P Statement.updatesEventType).Run .any (.start w) c → e ∈ c.log → e.op = .sendEmail mail →
    MadeFrom (calendarSystem P Statement.updatesEventType) w c e mail booking settings c₁ c₂ →
    sendTo U createEvent mail.recipient mail.kind booking (buildEmailContext U booking settings)
      settings.emailFrom = .ok email →
    email.StatesLength booking.length := by
  intro hall
  obtain ⟨c, e, mail, booking, settings, c₁, c₂, email, hc, he, hm, hf, hok, hd, hlen⟩ :=
    mailSample_spec [.drift (.edit
      { statement := .eventTypeUpdate "e1" { durationMinutes := some (some 30) }, admitted := rfl })] 30 (by decide)
  obtain ⟨n, hn, hl⟩ := (hall _ _ _ _ c e mail booking settings c₁ c₂ email LuxonUtc.sample_reads
    EventReturn.sample_printsMinutes ⟨rfl, rfl, rfl⟩ hc he hm hf hok).shown
  have hshown : email.props.shownMinutes = some booking.eventType.durationMinutes := (sendTo_ok hok).1
  rw [hshown, hd] at hn
  cases hn
  rw [hlen] at hl
  exact absurd hl (by decide)

end CoachingCalendar
