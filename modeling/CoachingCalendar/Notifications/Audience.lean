import CoachingCalendar.Bookings.Offer
import CoachingCalendar.Notifications.Lemmas.Outward

/-!
# Whom mails reach

A mail goes to the client who made the booking or to its coach, in the name of the coach, and only the client gets what
opens the booking.
-/

namespace CoachingCalendar
open Lib Lib.System

variable {P : Platform} {w : World} {c : BookingConfig} {G : BookingGuard} {e : BookingEntry} {mail : Mail}
variable {U : LuxonUtc} {createEvent : EventAttributes → EventReturn}

/-! ## One mail -/

section Content

variable {recipient : Recipient} {kind : NotificationKind} {booking : BookingWithRelations} {settings : Settings}
variable {email : SendEmailInput}

theorem sentMail_coach (manageToken : String) :
    sentMail U createEvent .coach kind { booking with manageToken } settings =
      sentMail U createEvent .coach kind booking settings := by
  cases kind <;> rfl

theorem sendTo_addressed {ctx : EmailContext} {emailFrom : Option String}
    (h : sendTo U createEvent recipient kind booking ctx emailFrom = .ok email) :
    email.sender = emailFrom ∧
      email.address = (if recipient = .client then booking.clientEmail else booking.coach.email) ∧
      email.manageUrls = if recipient = .client ∧ kind ≠ .cancelled then
        [ctx.manageUrl ++ "&action=cancel#idopontfoglalas", ctx.manageUrl ++ "&action=reschedule#idopontfoglalas"]
      else [] := by
  unfold sendTo at h
  cases kind with
  | cancelled =>
      cases h
      cases recipient <;> exact ⟨rfl, rfl, rfl⟩
  | confirmed | rescheduled =>
      cases hf : buildIcsFile U createEvent (icsInput booking ctx.businessAddress) with
      | error e =>
          rw [hf] at h
          cases h
      | ok file =>
          rw [hf] at h
          cases h
          cases recipient <;> exact ⟨rfl, rfl, rfl⟩

theorem managePage_eq (booking : BookingWithRelations) (settings : Settings) (action : String) :
    (buildContext booking settings).manageUrl ++ ("&action=" ++ action ++ "#idopontfoglalas") =
      managePage booking.originUrl booking.manageToken action := by
  simp only [buildContext, managePage, String.append_assoc]

theorem sentMail_reaches {dto : CreateBookingDto} {originUrl : Option String} {eventType : EventType}
    (hasked : Asked dto originUrl eventType booking.toBooking)
    (h : sentMail U createEvent recipient kind booking settings = .ok email) :
    email.sender = settings.emailFrom ∧ Reaches U createEvent dto originUrl kind booking settings email recipient := by
  obtain ⟨hsender, haddress, hurls⟩ := sendTo_addressed h
  refine ⟨hsender, ?_⟩
  cases recipient with
  | client =>
      refine ⟨haddress.trans hasked.clientEmail, ?_⟩
      rw [hurls, ← hasked.originUrl, ← managePage_eq booking settings, ← managePage_eq booking settings]
      cases kind <;> rfl
  | coach => exact ⟨haddress, by cases kind <;> exact hurls, fun manageToken => (sentMail_coach manageToken).trans h⟩

end Content

/-! ## Every mail of a run -/

theorem mailIssued_some {o : Op} (h : mailIssued o = some mail) : o = .sendEmail mail := by
  unfold mailIssued at h
  split at h
  · cases h
    rfl
  · cases h

theorem run_joined (h : (bookingSystem P).Run G (.start w) c) {l : BookingEntry} (hl : l ∈ c.log)
    {booking : BookingWithRelations} (hb : joinedRow l.toEvent = some booking) :
    ∃ c₁, (bookingSystem P).Run G (.start w) c₁ ∧ (bookingSystem P).Run G c₁ c ∧
      booking = c₁.world.db.withRelations booking.toBooking ∧
      ∃ b ∈ c.world.db.bookings, b.id = booking.id ∧ b.identity = booking.identity := by
  obtain ⟨c₁, c₂, hat⟩ := h.issued (List.nil_append _).symm hl
  obtain ⟨ch, hx⟩ := (hat.step.issues hat.log).exec
  obtain ⟨hrel, hmem⟩ := exec_joinedRow hx hb
  have h₂ := hat.before.tail hat.step
  obtain ⟨b, hf, hid⟩ := run_identity h₂ hat.after (Table.find_some.mpr ⟨hmem, rfl⟩)
  exact ⟨c₁, hat.before, (Run.refl.tail hat.step).trans hat.after, hrel, b, Table.find_mem hf, Table.find_key hf, hid⟩

theorem run_settings (h : (bookingSystem P).Run G (.start w) c) {l : BookingEntry} (hl : l ∈ c.log) {coachId : String}
    {settings : Settings} (he : l.toEvent = ⟨.settingsUpsert coachId, .ok settings⟩) : settings.coachId = coachId := by
  obtain ⟨c₁, c₂, hat⟩ := h.issued (List.nil_append _).symm hl
  obtain ⟨ch, hx⟩ := (hat.step.issues hat.log).exec
  obtain ⟨⟨o, r⟩, i⟩ := l
  cases he
  rcases unlessFault_cases hx with ⟨_, he, _⟩ | hx
  · cases he
  · cases hf : c₁.world.db.settings.find coachId with
    | none =>
        rw [hf] at hx
        cases (Prod.mk.inj hx).1
        rfl
    | some s =>
        rw [hf] at hx
        cases (Prod.mk.inj hx).1
        exact Table.find_key hf

/-- Each mail of a run goes in the name of the booking's coach to the client, at the address of the request that made
the booking, or to the coach. What opens the booking is in the mails to the client alone. -/
theorem mails_addressed (h₀ : w.Fresh) (h : (bookingSystem P).Run G (.start w) c) (he : e ∈ c.log)
    (hm : e.op = .sendEmail mail) :
    ∃ job booking settings dto originUrl, Addressed (bookingSystem P) G w c e mail job booking settings dto originUrl := by
  obtain ⟨call, hcall, hp, -⟩ := booking_licensed.log h e he
  rw [hm] at hp
  change Outgoing _ call _ at hp
  cases hp with
  | inward ho => cases ho
  | @mail job booking settings recipient hb hid hs =>
      obtain ⟨_, hb, hjoined⟩ := hb
      obtain ⟨l, hl, -, rfl⟩ := mem_past.mp hb
      obtain ⟨l', hl', -, hs⟩ := mem_past.mp hs
      obtain ⟨c₁, h₁, h', hrel, b, hmem, hbid, hsame⟩ := run_joined h hl hjoined
      obtain ⟨i, dto, originUrl, eventType, -, -, -, hi, hc, hasked⟩ := run_asked h₀ h hmem
      have hasked : Asked dto originUrl eventType booking.toBooking := by
        rwa [← asked_identity, ← hsame, asked_identity]
      refine ⟨job, booking, settings, dto, originUrl, hcall, hid, rfl, run_settings h hl' hs, ⟨c₁, h₁, h', hrel⟩,
        ⟨i, eventType, hi, hbid ▸ hc, hasked⟩, ?_, fun U createEvent email hok => sentMail_reaches hasked hok⟩
      have hfound : (c.world.db.bookings.findFirst fun b => b.manageToken = booking.manageToken) = some b := by
        cases hf : c.world.db.bookings.findFirst fun b => b.manageToken = booking.manageToken with
        | none => exact absurd (Booking.identity_manageToken hsame) (by simpa using Table.findFirst_none.mp hf b hmem)
        | some b' =>
            obtain ⟨hmem', ht⟩ := Table.findFirst_some hf
            have ht : b'.manageToken = booking.manageToken := of_decide_eq_true ht
            rw [run_tokensApart h₀ h b' hmem' b hmem (ht.trans (Booking.identity_manageToken hsame).symm)]
      rw [hfound, Option.map_some, hbid]

/-- The mail that confirms her booking to Anna. -/
theorem mails_addressed_anna : ∃ c e mail, (bookingSystem .sample).Run .any (.start .sample) c ∧ e ∈ c.log ∧
    e.op = .sendEmail mail ∧ mail.recipient = .client ∧ mail.address = "anna@example.com" ∧
    ∃ job booking settings dto originUrl,
      Addressed (bookingSystem .sample) .any .sample c e mail job booking settings dto originUrl := by
  obtain ⟨c, h, hp⟩ := run_of_play (S := bookingSystem .sample) (G := .any) (c := .start .sample)
    (bookSample ++ [.spawn (.work { data := ⟨"b1", "c1", .confirmed⟩ })] ++ fires 1 7 .linked)
    (fun c => c.log.any fun e => (mailIssued e.op).any fun mail =>
      mail.recipient = .client && mail.address = "anna@example.com") (by decide)
  obtain ⟨e, he, hs⟩ := List.any_eq_true.mp hp
  obtain ⟨mail, hm, hs⟩ := (Option.any_eq_true _ _).mp hs
  rw [Bool.and_eq_true, decide_eq_true_eq, decide_eq_true_eq] at hs
  have hop := mailIssued_some hm
  exact ⟨c, e, mail, h, he, hop, hs.1, hs.2, mails_addressed ⟨rfl, rfl, rfl⟩ h he hop⟩

end CoachingCalendar
