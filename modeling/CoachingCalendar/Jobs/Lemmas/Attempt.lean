import CoachingCalendar.Bookings.Lemmas.Standing

/-! # One attempt at a notification job -/

namespace CoachingCalendar
open Lib Lib.Prog Lib.System

variable {P : Platform} {job : Job} {e : Event Ans Failure}

/-! ## What an event of an attempt says -/

/-- The mail service has taken the mail to a recipient. -/
def mailed (recipient : Recipient) : Event Ans Failure → Bool
  | ⟨.sendEmail mail, .ok _⟩ => mail.recipient = recipient
  | _ => false

/-- The booking of the job was not found. -/
def misses : Event Ans Failure → Bool
  | ⟨.bookingFindUnique _, .ok none⟩ => true
  | _ => false

/-- The job went back into the queue. -/
def passesOn : Event Ans Failure → Bool
  | ⟨.jobRetry job, _⟩ => job.retryCount < retryLimit
  | _ => false

/-- The job had no attempt left. -/
def givesUp : Event Ans Failure → Bool
  | ⟨.jobRetry job, _⟩ => !(job.retryCount < retryLimit)
  | _ => false

/-! ## The course of an attempt -/

structure Attempt where
  toClient : Bool := false
  toCoach : Bool := false
  missed : Bool := false
  passedOn : Bool := false
  gaveUp : Bool := false
  deriving DecidableEq

namespace Attempt

def next (s : Attempt) (e : Event Ans Failure) : Attempt where
  toClient := s.toClient || mailed .client e
  toCoach := s.toCoach || mailed .coach e
  missed := s.missed || misses e
  passedOn := s.passedOn || passesOn e
  gaveUp := s.gaveUp || givesUp e

/-- Both mails are out. -/
def delivered (s : Attempt) : Bool := s.toClient && s.toCoach

/-- The attempt has not come to an end. -/
structure Open (s : Attempt) : Prop where
  delivered : s.delivered = false
  missed : s.missed = false
  passedOn : s.passedOn = false
  gaveUp : s.gaveUp = false

/-- The ends of an attempt. -/
inductive Done (s : Attempt) : Prop
  | delivered : s.delivered = true → s.passedOn = false → s.gaveUp = false → Done s
  | missed : s.missed = true → Done s
  | passedOn : s.delivered = false → s.passedOn = true → s.gaveUp = false → Done s
  | gaveUp : s.delivered = false → s.passedOn = false → s.gaveUp = true → Done s

/-- A mail of the notification, which its recipient has not had yet. -/
def Sends (s : Attempt) (data : NotificationJobData) (mail : Mail) : Prop :=
  mail.kind = data.kind ∧ mail.bookingId = data.bookingId ∧
    match mail.recipient with
    | .client => s.toClient = false
    | .coach => s.toCoach = false

end Attempt

/-- A worker goes about its own job. What the other calls do is not looked at. -/
def Call.attempt (call : Call) : Protocol Ans Failure Attempt where
  answers := Answered
  next := Attempt.next
  allowed s o := ∀ job, call = .work job → s.Open ∧
    match o with
    | .bookingFindUnique id => id = job.data.bookingId
    | .sendEmail mail => s.Sends job.data mail
    | .jobRetry job' => job' = job
    | _ => True

namespace Attempt

variable {s : Attempt}

theorem next_of_silent (h : mailed .client e = false ∧ mailed .coach e = false ∧ misses e = false ∧
    passesOn e = false ∧ givesUp e = false) : s.next e = s := by
  obtain ⟨h₁, h₂, h₃, h₄, h₅⟩ := h
  simp [next, h₁, h₂, h₃, h₄, h₅]

/-- The operations that are no lookups of bookings, mails or retries. -/
def quiet : Op → Bool
  | .bookingFindUnique _ | .sendEmail _ | .jobRetry _ => false
  | _ => true

theorem next_quiet {o : Op} {r : Except Failure (Ans o)} (ho : quiet o = true) : s.next ⟨o, r⟩ = s := by
  refine next_of_silent ?_
  cases o with
  | bookingFindUnique | sendEmail | jobRetry => cases ho
  | _ => exact ⟨rfl, rfl, rfl, rfl, rfl⟩

theorem perform_still {o : Op} (hs : s.Open) (ho : quiet o = true) :
    (perform o).Still (Call.work job).attempt s := by
  refine .perform (fun job' h => ?_) fun r => next_quiet ho
  cases h
  refine ⟨hs, ?_⟩
  cases o with
  | bookingFindUnique | sendEmail | jobRetry => cases ho
  | _ => trivial

theorem ignores (hs : s.Open) : Ignores (Call.work job).attempt s := by
  intro o ho
  have hq : quiet o = true := by cases o <;> first | rfl | cases ho
  exact ⟨(perform_still hs hq).1, fun r => next_quiet hq⟩

theorem ensureMeetLink_follows (hs : s.Open) (b : BookingWithRelations) :
    (ensureMeetLink P b).Follows (Call.work job).attempt (orStill s fun b' s' => s' = s ∧ b'.id = b.id) s := by
  unfold ensureMeetLink createMeetEvent getAuthenticatedClient
  split
  · exact ⟨rfl, rfl⟩
  refine Still.bind_follows (.bind (.bind (perform_still hs rfl) fun integration => ?_) fun _ =>
    .bind (perform_still hs rfl) fun data => ?_) (fun meet => ?_) fun _ => rfl
  · split
    · exact .throw
    · split
      · exact .throw
      · exact .pure
  · split
    · exact .throw
    · exact .pure
  · refine follows_perform.mpr ⟨(perform_still hs rfl).1, fun r hr => ?_⟩
    cases r with
    | error e => exact next_quiet rfl
    | ok b' =>
        have hid : b'.id = b.id := hr
        exact ⟨next_quiet rfl, hid⟩

/-- How `process` ends. -/
def processed (s : Attempt) : Except Failure Unit → Prop
  | .ok _ => s.passedOn = false ∧ s.gaveUp = false ∧ (s.delivered = true ∨ s.missed = true)
  | .error _ => s.Open

/-- The mails go out one after the other, each once. -/
theorem notifyBooking_follows {b : BookingWithRelations} (hid : b.id = job.data.bookingId) :
    (notifyBooking job.data.kind b).Follows (Call.work job).attempt processed {} := by
  have hs : Open {} := ⟨rfl, rfl, rfl, rfl⟩
  unfold notifyBooking
  refine (SettingsService.get_still (ignores hs) _).bind_follows (fun settings => ?_) fun _ => hs
  refine ⟨fun job' h => ?_, fun toClient _ => ?_⟩
  · cases h
    exact ⟨hs, rfl, hid, rfl⟩
  refine ⟨fun job' h => ?_, fun toCoach _ => ?_⟩
  · cases h
    cases toClient <;> exact ⟨⟨rfl, rfl, rfl, rfl⟩, rfl, hid, rfl⟩
  · cases toClient <;> cases toCoach
    · exact ⟨rfl, rfl, rfl, rfl⟩
    · exact ⟨rfl, rfl, rfl, rfl⟩
    · exact ⟨rfl, rfl, rfl, rfl⟩
    · exact ⟨rfl, rfl, .inl rfl⟩

theorem process_follows (job : Job) : (process P job).Follows (Call.work job).attempt processed {} := by
  have hs : Open {} := ⟨rfl, rfl, rfl, rfl⟩
  unfold process
  refine .perform_bind (fun job' h => ?_) (fun b hb => ?_) fun _ _ => ⟨rfl, rfl, rfl, rfl⟩
  · cases h
    exact ⟨hs, rfl⟩
  cases b with
  | none => exact ⟨rfl, rfl, .inr rfl⟩
  | some b =>
      have hid : b.id = job.data.bookingId := hb
      have link : ((ensureMeetLink P b).bind (notifyBooking job.data.kind)).Follows (Call.work job).attempt
          processed {} := by
        rw [follows_bind]
        refine (ensureMeetLink_follows hs b).mono fun s' r hr => ?_
        cases r with
        | error e => cases hr; exact hs
        | ok b' =>
            obtain ⟨rfl, hid'⟩ := hr
            exact notifyBooking_follows (hid'.trans hid)
      show Follows _ _ ({} : Attempt) _
      cases hk : job.data.kind with
      | confirmed => rw [hk] at link; exact link
      | rescheduled => rw [hk] at link; exact link
      | cancelled =>
          have := notifyBooking_follows hid
          rw [hk] at this
          exact this

theorem work_follows (job : Job) :
    (work P job).Follows (Call.work job).attempt (fun s _ => s.Done) {} := by
  unfold work
  rw [tryCatch_eq, follows_orElse]
  refine (process_follows job).mono fun s r hr => ?_
  cases r with
  | ok u =>
      obtain ⟨hp, hg, hd | hm⟩ := hr
      · exact .delivered hd hp hg
      · exact .missed hm
  | error e =>
      obtain ⟨hd, hm, hp, hg⟩ := hr
      refine follows_perform.mpr ⟨fun job' h => ?_, fun r hr => ?_⟩
      · cases h
        exact ⟨⟨hd, hm, hp, hg⟩, rfl⟩
      · change (next s ⟨.jobRetry job, r⟩).Done
        have hd' : (next s ⟨.jobRetry job, r⟩).delivered = false := by
          simpa [next, Attempt.delivered, mailed] using hd
        by_cases hl : job.retryCount < retryLimit
        · exact .passedOn hd' (by simp [next, passesOn, hl]) (by simp [next, hg, givesUp, hl])
        · exact .gaveUp hd' (by simp [next, hp, passesOn, hl]) (by simp [next, givesUp, hl])

theorem body_follows (call : Call) : (call.body P).Follows call.attempt
    (fun s _ => ∀ job, call = .work job → s.Done) {} := by
  have other : (∀ job, call ≠ .work job) →
      (call.body P).Follows call.attempt (fun s _ => ∀ job, call = .work job → s.Done) {} := by
    intro hc
    refine (Follows.of_allowed (fun s o job h => absurd h (hc job)) _).mono fun s r _ job h => absurd h (hc job)
  cases call with
  | work job =>
      refine follows_bind.mpr ((work_follows job).mono fun s r hr => ?_)
      cases r <;> exact fun _ _ => hr
  | _ => exact other nofun

end Attempt

end CoachingCalendar
