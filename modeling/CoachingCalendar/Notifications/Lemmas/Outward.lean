import CoachingCalendar.Notifications.Lemmas.Mails
import CoachingCalendar.Notifications.Outward

/-! # The calls keep to what they may tell -/

namespace CoachingCalendar
open Lib Lib.Prog Lib.System

variable {P : Platform} {α β : Type} {call : Call} {past : List (Event Ans Failure)} {job : Job}

/-! ## Programs that keep everything to themselves -/

def inward : Protocol Ans Failure Unit where
  answers _ _ := True
  next _ _ := ()
  allowed _ o := o.leaves = false

theorem inward_ignores : Ignores inward () := by
  intro o ho
  cases o with
  | now | eventTypeFindUnique | coachFindUnique | settingsUpsert | overrideFindMany | weeklyFindMany =>
      exact ⟨rfl, fun _ => rfl⟩
  | _ => cases ho

theorem perform_inward {o : Op} (ho : o.leaves = false) : (perform o : BookingProg _).Still inward () :=
  .perform ho fun _ => rfl

theorem getAuthenticatedClient_inward (coachId : String) : (getAuthenticatedClient P coachId).Still inward () := by
  unfold getAuthenticatedClient
  refine .bind (perform_inward rfl) fun integration => ?_
  split
  · exact .throw
  · split
    · exact .throw
    · exact .pure

theorem assertConfirmed_inward (status : BookingStatus) (locale : String) :
    (assertConfirmed status locale).Still inward () := by
  unfold assertConfirmed
  split
  · exact .throw
  · exact .pure

theorem returnedRow_of_readRow {e : Event Ans Failure} {b : Booking} (h : readRow e = some b) :
    returnedRow e = some b := by
  unfold returnedRow
  split
  · cases h
  · cases h
  · exact h

/-! ## Steps -/

/-- What is left of a call keeps to the licence. -/
abbrev Outward (call : Call) (past : List (Event Ans Failure)) (p : BookingProg α) : Prop :=
  p.Follows (outward.protocol call) (fun _ _ => True) past

namespace Outward

theorem of_inward {p : BookingProg α} (h : p.Still inward ()) : Outward call past p :=
  Follows.transfer h (fun _ _ ho _ => .inward ho) fun _ _ _ => trivial

/-- A part that keeps everything to itself, and what comes after it. -/
theorem after {p : BookingProg α} {f : α → BookingProg β} (hp : p.Still inward ())
    (hf : ∀ past' a, past ⊆ past' → Outward call past' (f a)) : Outward call past (p.bind f) := by
  rw [Outward, follows_bind]
  refine (License.grows (of_inward hp)).mono fun past' r h => ?_
  cases r with
  | ok a => exact hf past' a h.1
  | error e => trivial

theorem look {o : Op} {f : Ans o → BookingProg β} (ho : o.leaves = false)
    (hf : ∀ a, Answered o (.ok a) → Outward call (past ++ [⟨o, .ok a⟩]) (f a)) :
    Outward call past ((perform o).bind f) :=
  .perform_bind (.inward ho) hf fun _ _ => trivial

theorem settings {coachId : String} {f : Settings → BookingProg β}
    (hf : ∀ past' s, past ⊆ past' → ⟨Op.settingsUpsert coachId, .ok s⟩ ∈ past' → Outward call past' (f s)) :
    Outward call past ((SettingsService.get coachId).bind f) := by
  unfold SettingsService.get
  rw [bind_eq, bind_assoc]
  refine look rfl fun coach _ => ?_
  dsimp only
  split
  · trivial
  · exact look rfl fun s _ => hf _ s (fun e he => by simp [he]) (by simp)

theorem delete {coachId : String} {eventId : Nat} {f : Unit → BookingProg β}
    (hd : ∀ past', past ⊆ past' → Outgoing past' call (.calendarDelete coachId eventId))
    (hf : ∀ past', past ⊆ past' → Outward call past' (f ())) :
    Outward call past ((deleteEvent P coachId eventId).bind f) := by
  unfold deleteEvent
  rw [bind_eq, bind_assoc]
  refine after (getAuthenticatedClient_inward coachId) fun past' _ hsub => ?_
  refine ⟨hd past' hsub, fun r _ => ?_⟩
  have hsub' := List.Subset.trans hsub (List.subset_append_left past' [⟨.calendarDelete coachId eventId, r⟩])
  cases r <;> exact hf _ hsub'

/-! ## Jobs -/

/-- The mails of a job whose booking has been read. -/
theorem notify {booking : BookingWithRelations} (hb : ∃ e ∈ past, joinedRow e = some booking)
    (hid : booking.id = job.data.bookingId) : Outward (.work job) past (notifyBooking job.data.kind booking) := by
  unfold notifyBooking
  refine settings fun past₁ s hsub hs => ?_
  have may : ∀ past' recipient, past₁ ⊆ past' →
      Outgoing past' (.work job) (.sendEmail (mailFor recipient job.data.kind booking s)) := fun past' recipient hsub' =>
    .mail (hb.imp fun _ h => ⟨hsub' (hsub h.1), h.2⟩) hid (hsub' hs)
  refine ⟨may past₁ .client (List.Subset.refl _), fun toClient _ => ?_⟩
  refine ⟨may _ .coach (List.subset_append_left ..), fun toCoach _ => ?_⟩
  cases toClient <;> cases toCoach <;> trivial

/-- The link of a job whose booking has been read, and what comes after it. -/
theorem link {booking : BookingWithRelations} {f : BookingWithRelations → BookingProg β}
    (hb : ∃ e ∈ past, joinedRow e = some booking) (hid : booking.id = job.data.bookingId)
    (hlive : job.data.kind.live = true)
    (hf : ∀ past' b, (∃ e ∈ past', joinedRow e = some b) → b.id = job.data.bookingId → Outward (.work job) past' (f b)) :
    Outward (.work job) past ((ensureMeetLink P booking).bind f) := by
  unfold ensureMeetLink
  split
  · exact hf past booking hb hid
  · rename_i hn
    have hl : booking.location = .googleMeet := by tauto
    unfold createMeetEvent
    simp only [bind_eq, bind_assoc]
    refine after (getAuthenticatedClient_inward _) fun past₁ _ hsub => ?_
    refine .perform_bind (.insert (hb.imp fun _ h => ⟨hsub h.1, h.2⟩) hid hlive hl) (fun data _ => ?_) fun _ _ => trivial
    cases data.result with
    | none => trivial
    | some meet => exact look rfl fun b hid' => hf _ b ⟨_, List.mem_concat_self, rfl⟩ (hid'.trans hid)

theorem process (job : Job) : Outward (.work job) [] (CoachingCalendar.process P job) := by
  obtain ⟨⟨bookingId, coachId, kind⟩, retryCount⟩ := job
  unfold CoachingCalendar.process
  refine look rfl fun found hid => ?_
  cases found with
  | none => trivial
  | some booking =>
      have hb : ∃ e ∈ [] ++ [⟨Op.bookingFindUnique bookingId, .ok (some booking)⟩], joinedRow e = some booking :=
        ⟨_, List.mem_concat_self, rfl⟩
      cases kind with
      | confirmed => exact link hb hid rfl fun _ b hb hid => notify hb hid
      | rescheduled => exact link hb hid rfl fun _ b hb hid => notify hb hid
      | cancelled => exact notify hb hid

/-! ## Requests -/

/-- A reservation that succeeds returns the row that it wrote. -/
theorem reserve {tx : SlotTransaction} {timezone : String} {f : BookingWithRelations → BookingProg β}
    (hf : ∀ past' b, past ⊆ past' → ⟨Op.transaction tx, .ok b⟩ ∈ past' → Answered (.transaction tx) (.ok b) →
      Outward call past' (f b)) :
    Outward call past ((runSerializable (reserveSlot P tx timezone)).bind f) := by
  have attempt : ∀ past, True → (reserveSlot P tx timezone).Follows (outward.protocol call) (fun past' r =>
      (∀ e, r = .error e → True) ∧
        ∀ b, r = .ok b → ⟨Op.transaction tx, .ok b⟩ ∈ past' ∧ Answered (.transaction tx) (.ok b)) past := by
    intro past _
    unfold reserveSlot
    rw [bind_eq, follows_bind]
    refine (of_inward (assertWithinSchedule_still inward_ignores _ _ _ _ _)).mono fun past' r _ => ?_
    cases r with
    | error e => exact ⟨fun _ _ => trivial, fun b hb => by cases hb⟩
    | ok _ =>
        refine follows_perform.mpr ⟨.inward rfl, fun r hr => ⟨fun _ _ => trivial, fun b hb => ?_⟩⟩
        subst hb
        exact ⟨by simp, hr⟩
  rw [Outward, follows_bind]
  refine (License.grows (runSerializableFrom_again (I := fun _ => True) _ _ attempt trivial)).mono fun past' r h => ?_
  cases r with
  | ok b =>
      obtain ⟨hmem, hb⟩ := h.2.2 b rfl
      exact hf past' b h.1 hmem hb
  | error e => trivial

theorem cancel {b : BookingWithRelations} {cancelledBy : CancelledBy} {reason : Option String}
    (hb : ∃ e ∈ past, readRow e = some b.toBooking) (hh : call.holds b.toBooking) :
    Outward call past ((BookingsService.applyCancellation P b cancelledBy reason).bind fun updated =>
      (BookingsService.enqueue updated .cancelled).bind fun _ => .pure updated) := by
  have update : ∀ past, Outward call past ((perform (Op.bookingUpdate b.id
      { status := some .cancelled, cancelledBy := some cancelledBy, cancellationReason := reason })).bind fun updated =>
      (BookingsService.enqueue updated .cancelled).bind fun _ => .pure updated) := fun past =>
    look rfl fun updated _ => look rfl fun _ _ => trivial
  unfold BookingsService.applyCancellation
  cases hn : b.googleEventId with
  | none => exact update past
  | some eventId =>
      dsimp only
      rw [bind_eq, bind_assoc]
      refine delete (fun past' hsub => ?_) fun past' _ => update past'
      have hb' : ∃ e ∈ past', readRow e = some b.toBooking := hb.imp fun _ h => ⟨hsub h.1, h.2⟩
      exact .delete hb' hh (hb'.imp fun _ h => ⟨h.1, returnedRow_of_readRow h.2⟩) rfl hn

theorem drop {b updated : BookingWithRelations} {f : BookingWithRelations → BookingProg β}
    (hb : ∃ e ∈ past, readRow e = some b.toBooking) (hh : call.holds b.toBooking)
    (hu : ∃ e ∈ past, returnedRow e = some updated.toBooking) (hid : updated.id = b.id)
    (hf : ∀ past' u, Outward call past' (f u)) :
    Outward call past ((BookingsService.dropMeetLink P updated).bind f) := by
  unfold BookingsService.dropMeetLink
  split
  · rename_i hn
    rw [bind_eq, bind_assoc]
    refine delete (fun past' hsub => ?_) fun past' _ => look rfl fun u _ => hf _ u
    exact .delete (hb.imp fun _ h => ⟨hsub h.1, h.2⟩) hh (hu.imp fun _ h => ⟨hsub h.1, h.2⟩) hid hn
  · exact hf past updated

theorem body (call : Call) : Outward call [] (call.body P) := by
  cases call with
  | create dto originUrl =>
      refine of_inward (.bind ?_ fun _ => .pure)
      unfold BookingsService.create
      refine .bind (perform_inward rfl) fun eventType => ?_
      split
      · exact .throw
      · dsimp only
        split
        · exact .throw
        split
        · exact .throw
        refine .bind (SettingsService.get_still inward_ignores _) fun settings => ?_
        refine .bind (parseStartAt_still inward_ignores _ _) fun startAt => ?_
        refine .bind (assertSameCalendarDay_still _ _ _ _) fun _ => ?_
        refine .bind ?_ fun b => .bind (perform_inward rfl) fun _ => .pure
        exact (reserveSlot_follows inward_ignores rfl (fun _ => rfl) _).mono fun _ _ _ => rfl
  | cancelByClient token reason =>
      refine Follows.seq (?_ : Outward _ _ _) fun _ _ => trivial
      unfold BookingsService.cancelByClient BookingsService.findByManageToken
      rw [bind_eq, bind_eq, bind_assoc]
      refine look rfl fun found hfound => ?_
      cases found with
      | none => trivial
      | some b =>
          show Outward _ _ (Prog.bind (assertConfirmed _ _) _)
          refine after (assertConfirmed_inward _ _) fun past₁ _ h₁ => ?_
          refine after (assertWithinNoticeWindow_still inward_ignores _ _ _) fun past₂ _ h₂ => ?_
          exact cancel ⟨_, h₂ (h₁ List.mem_concat_self), rfl⟩ hfound.symm
  | cancelByCoach coach bookingId reason =>
      refine Follows.seq (?_ : Outward _ _ _) fun _ _ => trivial
      unfold BookingsService.cancelByCoach assertCoachOwnsOrIsAdmin
      rw [bind_eq]
      refine look rfl fun found hfound => ?_
      cases found with
      | none => trivial
      | some b =>
          dsimp only
          split
          · trivial
          · rename_i howner
            show Outward _ _ (Prog.bind (assertConfirmed _ _) _)
            refine after (assertConfirmed_inward _ _) fun past₁ _ h₁ => ?_
            exact cancel ⟨_, h₁ List.mem_concat_self, rfl⟩ ⟨hfound.symm, by tauto⟩
  | rescheduleByClient token newStartAt =>
      refine Follows.seq (?_ : Outward _ _ _) fun _ _ => trivial
      unfold BookingsService.rescheduleByClient BookingsService.findByManageToken
      rw [bind_eq, bind_eq, bind_assoc]
      refine look rfl fun found hfound => ?_
      cases found with
      | none => trivial
      | some b =>
          show Outward _ _ (Prog.bind (assertConfirmed _ _) _)
          refine after (assertConfirmed_inward _ _) fun past₁ _ h₁ => ?_
          refine after (assertWithinNoticeWindow_still inward_ignores _ _ _) fun past₂ _ h₂ => ?_
          refine after (SettingsService.get_still inward_ignores _) fun past₃ settings h₃ => ?_
          refine after (parseStartAt_still inward_ignores _ _) fun past₄ startAt h₄ => ?_
          refine after (assertSameCalendarDay_still _ _ _ _) fun past₅ _ h₅ => ?_
          refine reserve fun past₆ updated h₆ hu hid => ?_
          have hread := h₆ (h₅ (h₄ (h₃ (h₂ (h₁ List.mem_concat_self)))))
          refine drop ⟨_, hread, rfl⟩ hfound.symm ⟨_, hu, rfl⟩ (hid b.id rfl) fun _ _ => ?_
          exact look rfl fun _ _ => trivial
  | work job =>
      refine Follows.seq (?_ : Outward _ _ _) fun _ _ => trivial
      unfold work
      rw [Outward, tryCatch_eq, follows_orElse]
      refine (process job).mono fun past' r _ => ?_
      cases r with
      | ok _ => trivial
      | error e => exact follows_perform.mpr ⟨.inward rfl, fun _ _ => trivial⟩

end Outward

theorem booking_licensed : (bookingSystem P).Licensed outward fun _ _ _ => True where
  body := Outward.body
  answers _ _ _ := exec_answered rfl

end CoachingCalendar
