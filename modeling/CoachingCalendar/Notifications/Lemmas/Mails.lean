import CoachingCalendar.Bookings.WellFormed
import CoachingCalendar.Notifications.Lemmas.Calendar
import CoachingCalendar.Notifications.System

/-! # What mails are made from -/

namespace CoachingCalendar
open Lib Lib.Prog Lib.System

variable {P : Platform} {call : Call} {w w' : World} {o : Op} {ch : Choice} {r : Except Failure (Ans o)}
variable {U : LuxonUtc} {createEvent : EventAttributes → EventReturn}

/-! ## The content -/

section Content

variable {recipient : Recipient} {kind : NotificationKind} {booking : BookingWithRelations} {settings : Settings}
variable {email : SendEmailInput}

theorem buildDetails_minutes (ctx : EmailContext) (locale : String) :
    (EmailContentBuilder.buildDetails ctx locale).findSome? (fun detail => detail.value.minutes) =
      some ctx.durationMinutes := rfl

/-- Every mail shows the duration of its context, and has the link of its context and the attachment for its booking or
none. -/
theorem sendTo_ok {ctx : EmailContext} {emailFrom : Option String}
    (h : sendTo U createEvent recipient kind booking ctx emailFrom = .ok email) :
    email.props.shownMinutes = some ctx.durationMinutes ∧
      (∀ button ∈ email.props.secondaryButton, button.url = ctx.googleCalendarUrl) ∧
      ∀ file ∈ email.icsContent, buildIcsFile U createEvent (icsInput booking ctx.businessAddress) = .ok file := by
  unfold sendTo at h
  cases kind with
  | cancelled =>
      cases h
      refine ⟨?_, ?_, by simp⟩
      · cases recipient <;> exact buildDetails_minutes ctx _
      · cases recipient <;> simp
  | confirmed | rescheduled =>
      cases hf : buildIcsFile U createEvent (icsInput booking ctx.businessAddress) with
      | error e =>
          rw [hf] at h
          cases h
      | ok file =>
          rw [hf] at h
          cases h
          refine ⟨?_, ?_, by simp⟩
          · cases recipient <;> exact buildDetails_minutes ctx _
          · cases recipient <;> simp

theorem sendTo_sample (U : LuxonUtc) (recipient : Recipient) (kind : NotificationKind)
    (booking : BookingWithRelations) (ctx : EmailContext) (emailFrom : Option String) :
    ∃ email, sendTo U EventReturn.sample recipient kind booking ctx emailFrom = .ok email := by
  obtain ⟨file, hf⟩ := buildIcsFile_sample U (icsInput booking ctx.businessAddress)
  cases kind with
  | cancelled => exact ⟨_, rfl⟩
  | confirmed | rescheduled =>
      simp only [sendTo, hf]
      exact ⟨_, rfl⟩

/-- The text is all that can go wrong: the attachment and the link have the length of the booking. -/
theorem statesLength_iff (hU : U.Reads) (hI : PrintsMinutes createEvent)
    (h : sendTo U createEvent recipient kind booking (buildEmailContext U booking settings) settings.emailFrom = .ok email)
    {minutes : Int} (hlen : booking.length = minutes * msPerMinute) :
    email.StatesLength booking.length ↔ booking.eventType.durationMinutes = minutes := by
  obtain ⟨hshown, hbutton, hfile⟩ := sendTo_ok h
  have hctx : (buildEmailContext U booking settings).durationMinutes = booking.eventType.durationMinutes := rfl
  have hend : booking.endAt = booking.startAt + minutes * msPerMinute := by
    unfold Booking.length at hlen
    omega
  constructor
  · intro hs
    obtain ⟨n, hn, hl⟩ := hs.shown
    rw [hshown, hctx] at hn
    cases hn
    unfold msPerMinute at *
    omega
  · intro hd
    refine ⟨⟨_, hshown, by rw [hctx, hd, hlen]⟩, fun file hf => ?_, fun button hb => ?_⟩
    · refine ⟨_, _, icsInterval_buildIcsFile hU hI (hfile file hf), ?_⟩
      simp only [icsInput, Booking.length]
      unfold msPerMinute at *
      omega
    · rw [hbutton button hb]
      refine ⟨_, _, linkInterval_buildGoogleCalendarQuickAddUrl hU _, ?_⟩
      simp only [quickAddInput, Booking.length]
      unfold msPerMinute at *
      omega

end Content

/-! ## The booking of a mail -/

/-- A job goes by the joined row that it got last, and its mails are made from that row. -/
def mailProtocol : Protocol Ans Failure (Option BookingWithRelations) where
  answers _ _ := True
  next s e := (joinedRow e).or s
  allowed s
    | .sendEmail mail => ∃ b recipient kind settings, s = some b ∧ mail = mailFor recipient kind b settings
    | _ => True

variable {s : Option BookingWithRelations}

theorem mailProtocol_ignores : Ignores mailProtocol s := by
  intro o ho
  cases o with
  | now | eventTypeFindUnique | coachFindUnique | settingsUpsert | overrideFindMany | weeklyFindMany =>
      exact ⟨trivial, fun _ => rfl⟩
  | _ => cases ho

theorem createMeetEvent_joined (bookingId coachId : String) (input : CreateMeetEventInput) :
    (createMeetEvent P bookingId coachId input).Still mailProtocol s := by
  unfold createMeetEvent getAuthenticatedClient
  refine .bind (.bind (.perform trivial fun _ => rfl) fun integration => ?_) fun _ =>
    .bind (.perform trivial fun _ => rfl) fun data => ?_
  · split
    · exact .throw
    · split
      · exact .throw
      · exact .pure
  · split
    · exact .throw
    · exact .pure

theorem ensureMeetLink_joined (b : BookingWithRelations) :
    (ensureMeetLink P b).Follows mailProtocol (fun s' r => ∀ b', r = .ok b' → s' = some b') (some b) := by
  unfold ensureMeetLink
  split
  · rintro b' h
    cases h; rfl
  · refine (createMeetEvent_joined _ _ _).bind_follows (fun meet => ?_) fun e b' h => by cases h
    refine follows_perform.mpr ⟨trivial, fun r _ b' h => ?_⟩
    cases h; rfl

theorem notifyBooking_joined (kind : NotificationKind) (b : BookingWithRelations) :
    (notifyBooking kind b).Still mailProtocol (some b) := by
  have send : ∀ recipient settings, (attempt (Op.sendEmail (mailFor recipient kind b settings)) :
      BookingProg _).Still mailProtocol (some b) :=
    fun recipient settings => ⟨⟨b, recipient, kind, settings, rfl, rfl⟩, fun _ _ => rfl⟩
  unfold notifyBooking
  refine .bind (SettingsService.get_still mailProtocol_ignores _) fun settings => ?_
  refine .bind (send _ _) fun toClient => .bind (send _ _) fun toCoach => ?_
  split
  · exact .pure
  · exact .throw
  · exact .throw

theorem process_joined (job : Job) : (process P job).Follows mailProtocol (fun _ _ => True) none := by
  obtain ⟨⟨bookingId, coachId, kind⟩, retryCount⟩ := job
  unfold process
  refine .perform_bind trivial (fun booking _ => ?_) fun _ _ => trivial
  cases booking with
  | none => exact trivial
  | some b =>
      show Follows _ _ (some b) _
      have notify : ∀ s' (r : Except Failure BookingWithRelations), (∀ b', r = .ok b' → s' = some b') →
          continued mailProtocol (fun _ _ => True) (notifyBooking kind) s' r := by
        intro s' r h
        cases r with
        | error e => exact trivial
        | ok b' =>
            obtain rfl := h b' rfl
            exact (notifyBooking_joined kind b').follows fun _ => trivial
      cases kind with
      | confirmed => exact follows_bind.mpr ((ensureMeetLink_joined b).mono notify)
      | rescheduled => exact follows_bind.mpr ((ensureMeetLink_joined b).mono notify)
      | cancelled => exact notify (some b) (.ok b) fun b' h => by cases h; rfl

theorem body_joined (call : Call) : (call.body P).Follows mailProtocol (fun _ _ => True) none := by
  have request : call.isRequest = true → (call.body P).Follows mailProtocol (fun _ _ => True) none := by
    intro hc
    refine (Call.body_scope call).transfer (fun _ o ha s' => ?_) fun _ _ _ => trivial
    cases o with
    | sendEmail mail =>
        simp only [scope, hc] at ha
        cases ha
    | _ => exact trivial
  cases call with
  | work job =>
      refine .seq ?_ fun _ _ => trivial
      unfold work
      rw [tryCatch_eq, follows_orElse]
      refine (process_joined job).mono fun s' r _ => ?_
      cases r with
      | ok _ => exact trivial
      | error e => exact ⟨trivial, fun r _ => by cases r <;> exact trivial⟩
  | _ => exact request rfl

theorem joined_of_fold {past : List (Event Ans Failure)} {b : BookingWithRelations}
    (h : past.foldl mailProtocol.next none = some b) : ∃ e ∈ past, joinedRow e = some b := by
  have last : ∀ (l : List (Event Ans Failure)) s, l.foldl mailProtocol.next s = some b →
      s = some b ∨ ∃ e ∈ l, joinedRow e = some b := by
    intro l
    induction l with
    | nil => exact fun s h => .inl h
    | cons e l ih =>
        intro s h
        rcases ih _ h with hs | ⟨e', he', hb⟩
        · rcases Option.or_eq_some_iff.mp hs with hb | ⟨_, hs⟩
          · exact .inr ⟨e, List.mem_cons_self, hb⟩
          · exact .inl hs
        · exact .inr ⟨e', List.mem_cons_of_mem _ he', hb⟩
  rcases last past none h with h | h
  · cases h
  · exact h

theorem exec_joinedRow {b : BookingWithRelations} (hx : exec w o ch = (r, w')) (hb : joinedRow ⟨o, r⟩ = some b) :
    b = w.db.withRelations b.toBooking ∧ b.toBooking ∈ w'.db.bookings := by
  cases o with
  | bookingFindUnique id =>
      rcases unlessFault_cases hx with ⟨e, rfl, rfl⟩ | h
      · cases hb
      · cases h
        obtain ⟨row, hf, rfl⟩ := Option.map_eq_some_iff.mp hb
        exact ⟨rfl, Table.find_mem hf⟩
  | bookingUpdate id patch =>
      rcases exec_bookingUpdate hx with ⟨e, rfl, rfl⟩ | ⟨b₀, hf, rfl, rfl⟩
      · cases hb
      · cases hb
        obtain rfl := Table.find_key hf
        exact ⟨rfl, Table.find_mem (Table.find_update_found patch.apply_id hf)⟩
  | _ => cases r <;> cases hb

/-! ## Runs -/

section Runs

variable {c c₁ c₂ : BookingConfig} {e : BookingEntry} {mail : Mail} {booking : BookingWithRelations}
variable {settings : Settings} {admits : Statement → Prop}

/-- Every mail of a run is made from a booking that its call got before. -/
theorem run_madeFrom (h : (calendarSystem P admits).Run .any (.start w) c) (he : e ∈ c.log)
    (hm : e.op = .sendEmail mail) :
    ∃ booking settings c₁ c₂, MadeFrom (calendarSystem P admits) w c e mail booking settings c₁ c₂ := by
  obtain ⟨d₁, d₂, hd⟩ := h.issued (List.nil_append _).symm he
  obtain ⟨call, k, hi⟩ := (hd.step.issues hd.log).thread
  have hf := (hd.before.follows (R := fun _ => mailProtocol) (fun _ => rfl) body_joined (fun _ _ _ _ => trivial)
    e.tid _ hi).1
  obtain ⟨⟨o, r⟩, j⟩ := e
  dsimp only at hm hf
  subst hm
  obtain ⟨b, recipient, kind, settings, hphase, rfl⟩ := hf
  obtain ⟨e₁, he₁, hb⟩ := joined_of_fold hphase
  obtain ⟨l, hl, hj, rfl⟩ := mem_past.mp he₁
  obtain ⟨c₁, c₂, hc⟩ := hd.before.issued (List.nil_append _).symm hl
  exact ⟨b, settings, c₁, c₂, ⟨d₁, d₂, l, hd, hc, hj, hb⟩, rfl⟩

/-- The booking of a mail has the event type that the table had when the call got it, and it was created from an event
type whose duration it has kept. -/
theorem MadeFrom.booking_ofType (h₀ : w.Fresh)
    (hm : MadeFrom (calendarSystem P admits) w c e mail booking settings c₁ c₂) :
    booking.eventType.durationMinutes = c₁.world.db.durationOf booking.toBooking ∧
      (∃ i eventType, CreatedFrom c₂ i eventType booking.id) ∧
      ∀ i eventType, CreatedFrom c₂ i eventType booking.id →
        booking.length = eventType.durationMinutes * msPerMinute := by
  obtain ⟨d₁, d₂, e₁, -, hc, -, hb⟩ := hm.read
  obtain ⟨ch, hx⟩ := (hc.step.issues hc.log).exec
  obtain ⟨hrel, hmem⟩ := exec_joinedRow hx hb
  obtain ⟨hcreated, hof⟩ := run_ofType h₀ (run_of_changes (hc.before.tail hc.step)) hmem
  exact ⟨congrArg (fun b : BookingWithRelations => b.eventType.durationMinutes) hrel, hcreated,
    fun i eventType hi => (hof i eventType hi).length⟩

end Runs

end CoachingCalendar
