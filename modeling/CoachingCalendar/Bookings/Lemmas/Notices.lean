import CoachingCalendar.Bookings.Conditions
import CoachingCalendar.Bookings.Lemmas.Rows

/-! # Jobs that say that a booking is on -/

namespace CoachingCalendar
open Lib Lib.Prog Lib.System

variable {P : Platform} {w w' : World} {c c' : BookingConfig} {call : Call} {G : BookingGuard}
variable {o : Op} {ch : Choice} {r : Except Failure (Ans o)} {id : String} {i : Nat}

/-! ## A job looks at its booking first -/

/-- The state says whether the call has begun. -/
def Call.looking (call : Call) : Protocol Ans Failure Bool where
  answers _ _ := True
  next _ _ := true
  allowed begun
    | .bookingFindUnique id => ∀ job, call = .work job → begun = false ∧ id = job.data.bookingId
    | .bookingFindByManageToken _ => ∀ job, call ≠ .work job
    | _ => True

theorem Call.looking_ignores : Ignores call.looking true := by
  intro o ho
  cases o with
  | now | eventTypeFindUnique | coachFindUnique | settingsUpsert | overrideFindMany | weeklyFindMany =>
      exact ⟨trivial, fun _ => rfl⟩
  | _ => cases ho

theorem ensureMeetLink_looking (b : BookingWithRelations) :
    (ensureMeetLink P b).Still call.looking true := by
  unfold ensureMeetLink createMeetEvent getAuthenticatedClient
  split
  · exact .pure
  refine .bind (.bind (.bind (.perform trivial fun _ => rfl) fun integration => ?_) fun _ =>
    .bind (.perform trivial fun _ => rfl) fun data => ?_) fun meet => .perform trivial fun _ => rfl
  · split
    · exact .throw
    · split
      · exact .throw
      · exact .pure
  · split
    · exact .throw
    · exact .pure

theorem process_looking (job : Job) :
    (process P job).Follows (Call.looking (.work job)) (fun _ _ => True) false := by
  have notify : ∀ kind b, (notifyBooking kind b).Still (Call.looking (.work job)) true :=
    notifyBooking_still Call.looking_ignores (fun _ => trivial) (fun _ _ => rfl)
  unfold process
  rw [bind_eq, follows_bind, follows_perform]
  refine ⟨fun job' h => by cases h; exact ⟨rfl, rfl⟩, fun r _ => ?_⟩
  rcases r with e | _ | b
  · exact trivial
  · exact trivial
  dsimp only [continued]
  split
  · exact (Still.bind (ensureMeetLink_looking b) (notify _)).follows fun _ => trivial
  · exact (Still.bind (ensureMeetLink_looking b) (notify _)).follows fun _ => trivial
  · exact (notify _ b).follows fun _ => trivial

theorem work_looking (job : Job) :
    (work P job).Follows (Call.looking (.work job)) (fun _ _ => True) false := by
  unfold work
  rw [tryCatch_eq, follows_orElse]
  refine (process_looking job).mono fun s' r _ => ?_
  cases r with
  | ok _ => exact trivial
  | error e => exact follows_perform.mpr ⟨trivial, fun _ _ => trivial⟩

theorem Call.body_looking (call : Call) : (call.body P).Follows call.looking (fun _ _ => True) false := by
  have request : (∀ job, call ≠ .work job) → (call.body P).Follows call.looking (fun _ _ => True) false := by
    refine fun hc => .of_allowed (fun s o => ?_) _
    cases o with
    | bookingFindUnique id => exact fun job h => absurd h (hc job)
    | bookingFindByManageToken token => exact hc
    | _ => exact trivial
  cases call with
  | work job =>
      refine follows_bind.mpr ((work_looking job).mono fun s' r _ => ?_)
      cases r <;> exact trivial
  | _ => exact request (by simp)

/-! ## Waiting jobs -/

theorem waiting_iff : waiting c id = true ↔ (∃ job ∈ c.world.jobs, job.announces id = true) ∨
    ∃ i, ∃ job : Job, ∃ o k, c.threads[i]? = some ⟨.work job, .op o k⟩ ∧ c.past i = [] ∧
      job.announces id = true := by
  have look : ∀ past (th : BookingThread), yetToLook id past th = true ↔
      ∃ job : Job, ∃ o k, th = ⟨.work job, .op o k⟩ ∧ past = [] ∧ job.announces id = true := by
    intro past th
    unfold yetToLook
    split
    · rename_i job o k
      simp only [Bool.and_eq_true, List.isEmpty_iff]
      exact ⟨fun h => ⟨job, o, k, rfl, h⟩, fun ⟨_, _, _, he, h⟩ => by cases he; exact h⟩
    · rename_i hn
      exact ⟨nofun, fun ⟨job, o, k, he, _⟩ => absurd he (hn job o k)⟩
  simp only [waiting, Bool.or_eq_true, List.any_eq_true, List.mem_range, Option.any_eq_true, look]
  refine or_congr Iff.rfl ⟨?_, ?_⟩
  · rintro ⟨i, _, th, hi, job, o, k, rfl, h⟩
    exact ⟨i, job, o, k, hi, h⟩
  · rintro ⟨i, job, o, k, hi, h⟩
    exact ⟨i, (List.getElem?_eq_some_iff.mp hi).1, _, hi, job, o, k, rfl, h⟩

theorem Call.accept_some (h : call.accept w = some w') : (∀ job ∈ w'.jobs, job ∈ w.jobs) ∧
    ∀ job, call = .work job → job ∈ w.jobs := by
  cases call with
  | work job =>
      simp only [accept] at h
      split at h <;> cases h
      exact ⟨fun _ => List.mem_of_mem_erase, fun _ he => by cases he; assumption⟩
  | _ => cases h; exact ⟨fun _ hj => hj, nofun⟩

theorem waiting_spawn (ha : call.accept c.world = some w')
    (hw : waiting ⟨w', c.threads ++ [⟨call, call.body P⟩], c.log⟩ id = true) : waiting c id = true := by
  obtain ⟨hjobs, hjob⟩ := Call.accept_some ha
  rw [waiting_iff] at hw ⊢
  obtain ⟨job, hj, hid⟩ | ⟨i, job, o, k, hi, hp, hid⟩ := hw
  · exact .inl ⟨job, hjobs job hj, hid⟩
  rcases Nat.lt_or_ge i c.threads.length with hlt | hge
  · rw [List.getElem?_append_left hlt] at hi
    exact .inr ⟨i, job, o, k, hi, hp, hid⟩
  · rw [List.getElem?_append_right hge, List.getElem?_singleton] at hi
    split at hi
    · simp only [Option.some.injEq, Thread.mk.injEq] at hi
      exact .inl ⟨job, hjob job hi.1, hid⟩
    · cases hi

theorem exec_queued (hx : exec w o ch = (r, w')) {job : Job} (hj : job ∈ w'.jobs)
    (hid : job.announces id = true) : job ∈ w.jobs ∨ queuedFor ⟨⟨o, r⟩, i⟩ = some id := by
  simp only [Job.announces, Bool.and_eq_true, decide_eq_true_eq] at hid
  cases hq : o.queues with
  | false => exact .inl (exec_jobs hq hx ▸ hj)
  | true =>
      cases o with
      | jobSend data =>
          cases r with
          | error e => exact .inl (exec_error (o := .jobSend data) hx ▸ hj)
          | ok _ =>
              rw [exec_jobSend hx, List.mem_append, List.mem_singleton] at hj
              refine hj.imp_right ?_
              rintro rfl
              exact (if_pos hid.1).trans (congrArg some hid.2)
      | jobRetry job' =>
          cases hx
          split at hj
          · rename_i hl
            rw [List.mem_append, List.mem_singleton] at hj
            refine hj.imp_right ?_
            rintro rfl
            exact (if_pos ⟨hl, hid.1⟩).trans (congrArg some hid.2)
          · exact .inl hj
      | _ => cases hq

theorem waiting_fire {th : BookingThread} (hx : exec c.world o ch = (r, w'))
    (hw : waiting ⟨w', c.threads.set i th, c.log ++ [⟨⟨o, r⟩, i⟩]⟩ id = true) :
    waiting c id = true ∨ queuedFor ⟨⟨o, r⟩, i⟩ = some id := by
  obtain ⟨job, hj, hid⟩ | ⟨j, job, o', k', hj, hp, hid⟩ := waiting_iff.mp hw
  · exact (exec_queued hx hj hid).imp_left fun hj => waiting_iff.mpr (.inl ⟨job, hj, hid⟩)
  rw [past_append] at hp
  obtain ⟨hp, he⟩ := List.append_eq_nil_iff.mp hp
  by_cases hji : i = j
  · simp [hji] at he
  · rw [List.getElem?_set_ne hji] at hj
    exact .inl (waiting_iff.mpr (.inr ⟨j, job, o', k', hj, hp, hid⟩))

/-! ## Rows with a waiting job -/

theorem exec_not_cancelled (hx : exec w o ch = (r, w'))
    (hid : ∀ b, w.db.bookings.find id = some b → b.status ≠ .cancelled)
    (hc : cancels id ⟨⟨o, r⟩, i⟩ = false) :
    ∀ b, w'.db.bookings.find id = some b → b.status ≠ .cancelled := by
  have rows : ∀ b ∈ w'.db.bookings, b.id = id → b.status ≠ .cancelled := by
    refine exec_rows hx (fun b hb he => hid b (Table.find_some.mpr ⟨hb, he⟩)) (fun _ _ _ _ => nofun)
      (fun _ _ _ hb => hb) fun id' patch b₁ b he hb' hb hb₂ => ?_
    cases he
    obtain rfl : id' = id := hb'.symm.trans hb₂
    replace hc : patch.cancels = false := patches_update.symm.trans hc
    cases hs : patch.status with
    | none => simpa [BookingPatch.apply, hs] using hb hb'
    | some status =>
        simp only [BookingPatch.cancels, hs, Option.some.injEq, decide_eq_false_iff_not] at hc
        simpa [BookingPatch.apply, hs] using hc
  exact fun b hb => rows b (Table.find_mem hb) (Table.find_key hb)

theorem exec_job_read {job : Job} {begun : Bool} {b : Booking} (hx : exec w o ch = (r, w'))
    (hal : (Call.looking (.work job)).allowed begun o) (hr : readRow ⟨o, r⟩ = some b) :
    w.db.bookings.find job.data.bookingId = some b ∧ begun = false := by
  cases o with
  | bookingFindUnique id =>
      obtain ⟨hb, rfl⟩ := hal job rfl
      rcases r with e | _ | b'
      · cases hr
      · cases hr
      · cases hr
        obtain ⟨hf, hid⟩ := exec_bookingFindUnique hx
        exact ⟨hid ▸ hf, hb⟩
  | bookingFindByManageToken token => exact absurd rfl (hal job)
  | _ => cases r <;> cases hr

theorem looking_allowed (h : (bookingSystem P).Run G (.start w) c) {k}
    (hi : c.threads[i]? = some ⟨call, .op o k⟩) : (Call.looking call).allowed (!(c.past i).isEmpty) o := by
  have hf := (h.follows (R := Call.looking) (fun _ => rfl) Call.body_looking (fun _ _ _ _ => trivial) i _ hi).1
  have hp : phase (fun _ _ => true) false c i = !(c.past i).isEmpty := by
    rw [phase]
    generalize c.past i = past
    cases past with
    | nil => rfl
    | cons e past => exact List.foldl_fixed' (fun _ => rfl) past
  exact hp ▸ hf

/-- A booking with a waiting job that says it is on is not cancelled, and no such job found its booking
cancelled. -/
structure Noticed (c : BookingConfig) : Prop where
  waits : ∀ id, waiting c id = true → ∀ b, c.world.db.bookings.find id = some b → b.status ≠ .cancelled
  looks : ∀ i job prog, c.threads[i]? = some ⟨.work job, prog⟩ → job.data.kind.live = true →
    ∀ b, found (c.past i) = some b → b.status ≠ .cancelled

theorem Noticed.fire {k} (h : Noticed c) (hrun : (bookingSystem P).Run G (.start w) c)
    (hi : c.threads[i]? = some ⟨call, .op o k⟩) (hx : exec c.world o ch = (r, w'))
    (he : noneWaitsOnceCancelled.event c ⟨⟨o, r⟩, i⟩) :
    Noticed ⟨w', c.threads.set i ⟨call, k r⟩, c.log ++ [⟨⟨o, r⟩, i⟩]⟩ := by
  refine ⟨fun id hw => ?_, fun j job prog hj hl b hb => ?_⟩
  · rcases waiting_fire hx hw with hw | hq
    · refine exec_not_cancelled hx (h.waits id hw) (i := i) (Bool.eq_false_iff.mpr fun hc => ?_)
      rw [he.1 id hc] at hw; cases hw
    · refine exec_not_cancelled hx (fun b => he.2 id hq b) (i := i) (Bool.eq_false_iff.mpr fun hc => ?_)
      obtain ⟨patch, b₁, hev, _⟩ := patches_iff.mp hc
      cases hev; cases hq
  · by_cases hji : i = j
    · subst hji
      rw [List.getElem?_set_self (List.getElem?_eq_some_iff.mp hi).1] at hj
      cases hj
      rw [past_append, if_pos rfl, found, List.findSome?_append, Option.or_eq_some_iff] at hb
      rcases hb with hb | ⟨_, hb⟩
      · exact h.looks i job _ hi hl b hb
      · obtain ⟨hf, hp⟩ := exec_job_read hx (looking_allowed hrun hi) (by simpa using hb)
        refine h.waits job.data.bookingId (waiting_iff.mpr (.inr ⟨i, job, o, k, hi, ?_, ?_⟩)) b hf
        · simpa using hp
        · simp [Job.announces, hl]
    · rw [List.getElem?_set_ne hji] at hj
      rw [past_append, if_neg hji, List.append_nil] at hb
      exact h.looks j job prog hj hl b hb

theorem run_noticed (hb : w.db.bookings = .empty)
    (h : (bookingSystem P).Run noneWaitsOnceCancelled (.start w) c) : Noticed c := by
  induction h with
  | refl =>
      refine ⟨fun id _ b hf => ?_, fun i job prog hi => by cases hi⟩
      rw [Config.start, hb] at hf; cases hf
  | @tail c c' hrun hs ih =>
      cases hs with
      | @spawn call w' _ ha =>
          refine ⟨fun id hw b hf => ?_, fun i job prog hi hl b hb => ?_⟩
          · have hbefore := waiting_spawn ha hw
            obtain ⟨jobs, rfl⟩ := Call.accept_jobs ha
            exact ih.waits id hbefore b hf
          · rcases Nat.lt_or_ge i c.threads.length with hlt | hge
            · rw [List.getElem?_append_left hlt] at hi
              exact ih.looks i job prog hi hl b hb
            · change found (c.past i) = some b at hb
              rw [hrun.past_nil hge] at hb
              cases hb
      | fire hi hx he => exact ih.fire hrun hi hx he
      | drift d =>
          refine ⟨fun id hw b hf => ih.waits id ?_ b (d.apply_bookings ▸ hf), ih.looks⟩
          cases d <;> exact hw

/-! ## What an attempt announces -/

/-- The mails of a notification: they say that the booking is on unless the settings or both mails fail. -/
structure Notified (P : Platform) (id : String) (t : List (Event Ans Failure)) : Prop where
  links : t.any (googleRefuses P) = false
  looks : t.findSome? readRow = none
  tells : t.any (announces id) =
    !(t.any settingsRefused || (t.any (mailRefused .client) && t.any (mailRefused .coach)))

theorem notifyBooking_record {kind : NotificationKind} (hk : kind.live = true) (b : BookingWithRelations)
    (past : List (Event Ans Failure)) :
    (notifyBooking kind b).Follows .record (fun past' _ => ∃ t, past' = past ++ t ∧ Notified P b.id t) past := by
  unfold notifyBooking SettingsService.get
  rw [bind_eq, follows_bind, bind_eq, follows_bind, follows_perform]
  refine ⟨trivial, fun r₁ _ => ?_⟩
  rcases r₁ with e | _ | coach
  · exact ⟨[_], rfl, rfl, rfl, rfl⟩
  · exact ⟨[_], rfl, rfl, rfl, rfl⟩
  refine ⟨trivial, fun r₂ _ => ?_⟩
  rcases r₂ with e | settings
  · exact ⟨[_] ++ [_], List.append_assoc .., rfl, rfl, rfl⟩
  refine ⟨trivial, fun toClient _ => ⟨trivial, fun toCoach _ => ?_⟩⟩
  have tail : Notified P b.id
      [⟨.coachFindUnique b.coachId, .ok (some coach)⟩, ⟨.settingsUpsert b.coachId, .ok settings⟩,
        ⟨.sendEmail (mailFor .client kind b settings), toClient⟩,
        ⟨.sendEmail (mailFor .coach kind b settings), toCoach⟩] := by
    cases toClient <;> cases toCoach <;>
      exact ⟨rfl, rfl, by simp [announces, settingsRefused, mailRefused, mailFor, hk]⟩
  cases toClient <;> cases toCoach <;> exact ⟨_, by simp [Protocol.record], tail⟩

/-- An attempt that found its booking announces it unless a service stops it, whatever the status of the
booking. -/
def Handled (P : Platform) (past : List (Event Ans Failure)) : Prop :=
  ∀ b, found past = some b → past.any (announces b.id) = !stopped P b past

theorem handled_cons {b : BookingWithRelations} {t : List (Event Ans Failure)} :
    Handled P (⟨.bookingFindUnique id, .ok (some b)⟩ :: t) ↔
      t.any (announces b.id) = !stopped P b.toBooking (⟨.bookingFindUnique id, .ok (some b)⟩ :: t) := by
  constructor
  · exact fun h => h b.toBooking rfl
  · rintro h b' hb
    cases hb
    exact h

/-- Without a Meet link to get, the mails decide. -/
theorem Notified.handled {b : BookingWithRelations} {t : List (Event Ans Failure)} (ht : Notified P b.id t)
    (hl : ¬ (b.location = .googleMeet ∧ truthy b.meetLink = false)) :
    Handled P (⟨.bookingFindUnique id, .ok (some b)⟩ :: t) := by
  rw [handled_cons]
  simpa [stopped, hl, announces, settingsRefused, mailRefused] using ht.tells

theorem Handled.retry {past : List (Event Ans Failure)} {job : Job} {r : Except Failure Unit}
    (h : Handled P past) : Handled P (past ++ [⟨.jobRetry job, r⟩]) := by
  intro b hb
  have hf : found past = some b := by simpa [found, readRow] using hb
  have hstop : stopped P b (past ++ [⟨.jobRetry job, r⟩]) = stopped P b past := by
    simp [stopped, googleRefuses, settingsRefused, mailRefused]
  rw [hstop, ← h b hf]
  simp [announces]

theorem getAuthenticatedClient_record (coachId : String) (past : List (Event Ans Failure)) :
    (getAuthenticatedClient P coachId).Follows .record (fun past' r => ∃ r₁,
      past' = past ++ [⟨.integrationFindUnique coachId, r₁⟩] ∧ connected P r₁ = r.isOk) past := by
  unfold getAuthenticatedClient
  rw [bind_eq, follows_bind, follows_perform]
  refine ⟨trivial, fun r₁ _ => ?_⟩
  rcases r₁ with e | _ | g
  · exact ⟨_, rfl, rfl⟩
  · exact ⟨_, rfl, rfl⟩
  · cases hd : P.decrypt g.refreshTokenEncrypted with
    | none =>
        simp only [continued, hd]
        exact ⟨_, rfl, by simp [connected, hd]; rfl⟩
    | some token =>
        simp only [continued, hd]
        exact ⟨_, rfl, by simp [connected, hd]; rfl⟩

/-- Google creates an event exactly when it stops the attempt nowhere. -/
theorem createMeetEvent_record (bookingId coachId : String) (input : CreateMeetEventInput)
    (past : List (Event Ans Failure)) :
    (createMeetEvent P bookingId coachId input).Follows .record (fun past' r => ∃ t, past' = past ++ t ∧
      t.any (announces bookingId) = !t.any (googleRefuses P) ∧ (r.isOk → t.any (googleRefuses P) = false)) past := by
  unfold createMeetEvent
  rw [bind_eq, follows_bind]
  refine (getAuthenticatedClient_record coachId past).mono fun past' r h => ?_
  obtain ⟨r₁, rfl, hr⟩ := h
  rcases r with e | token
  · exact ⟨[_], rfl, by simp [announces, googleRefuses, hr]; rfl, fun h => by cases h⟩
  refine follows_bind.mpr (follows_perform.mpr ⟨trivial, fun r₂ _ => ?_⟩)
  have hc : connected P r₁ = true := hr
  rcases r₂ with e | data
  · exact ⟨[_] ++ [_], List.append_assoc .., by simp [announces, googleRefuses], fun h => by cases h⟩
  have linked : [⟨.integrationFindUnique coachId, r₁⟩, ⟨.calendarInsert bookingId coachId input, .ok data⟩].any
      (googleRefuses P) = false := by simp [googleRefuses, hc]
  dsimp only [continued]
  cases data.result with
  | none => exact ⟨[_] ++ [_], List.append_assoc .., by simp [announces, googleRefuses, hc], fun h => by cases h⟩
  | some meet => exact ⟨[_] ++ [_], List.append_assoc .., by simp [announces, googleRefuses, hc], fun _ => linked⟩

theorem ensureMeetLink_record {kind : NotificationKind} (hk : kind.live = true) (b : BookingWithRelations) :
    ((ensureMeetLink P b).bind (notifyBooking kind)).Follows .record (fun past _ => Handled P past)
      [⟨.bookingFindUnique id, .ok (some b)⟩] := by
  rw [follows_bind]
  unfold ensureMeetLink
  split
  · rename_i hl
    refine (notifyBooking_record (P := P) hk b _).mono fun past r h => ?_
    obtain ⟨t, rfl, ht⟩ := h
    refine ht.handled ?_
    rintro ⟨h₁, h₂⟩
    exact hl.elim (absurd h₁) fun h => by rw [h] at h₂; cases h₂
  rename_i hl
  rw [not_or, not_not, Bool.not_eq_true] at hl
  -- with a Meet link to get, Google decides
  have google : ∀ t, t.any (announces b.id) = !t.any (googleRefuses P) →
      Handled P ([⟨.bookingFindUnique id, .ok (some b)⟩] ++ t) := by
    intro t ht
    refine handled_cons.mpr ?_
    simp [stopped, hl, ht, googleRefuses]
  rw [bind_eq, follows_bind]
  refine (createMeetEvent_record _ _ _ _).mono fun past r h => ?_
  obtain ⟨t, rfl, ht, hr⟩ := h
  rcases r with e | meet
  · exact google t ht
  -- the event is there, whatever comes after it
  have linked : ∀ t', t'.any (googleRefuses P) = false →
      Handled P ([⟨.bookingFindUnique id, .ok (some b)⟩] ++ t ++ t') := by
    intro t' ht'
    rw [List.append_assoc]
    exact google _ (by simp [ht, hr rfl, ht'])
  refine follows_perform.mpr ⟨trivial, fun r₃ _ => ?_⟩
  rcases r₃ with e | b'
  · exact linked _ rfl
  refine (notifyBooking_record (P := P) hk b' _).mono fun past r h => ?_
  obtain ⟨t', rfl, ht'⟩ := h
  show Handled P (_ ++ [_] ++ t')
  rw [List.append_assoc]
  exact linked _ (by simpa [googleRefuses] using ht'.links)

theorem process_record {job : Job} (hk : job.data.kind.live = true) :
    (process P job).Follows .record (fun past _ => Handled P past) [] := by
  obtain ⟨⟨bookingId, coachId, kind⟩, retryCount⟩ := job
  unfold process
  rw [bind_eq, follows_bind, follows_perform]
  refine ⟨trivial, fun r _ => ?_⟩
  have unread : found [⟨.bookingFindUnique bookingId, r⟩] = none → Handled P [⟨.bookingFindUnique bookingId, r⟩] :=
    fun hn b hb => by rw [hn] at hb; cases hb
  rcases r with e | _ | b
  · exact unread rfl
  · exact unread rfl
  cases kind with
  | confirmed => exact ensureMeetLink_record rfl b
  | rescheduled => exact ensureMeetLink_record rfl b
  | cancelled => cases hk

theorem work_record {job : Job} (hk : job.data.kind.live = true) :
    (work P job).Follows .record (fun past _ => Handled P past) [] := by
  have retried : ∀ s (r : Except Failure Unit), Handled P s →
      caught .record (fun past _ => Handled P past) (fun _ => perform (Op.jobRetry job)) s r := by
    intro s r h
    cases r with
    | ok _ => exact h
    | error e => exact follows_perform.mpr ⟨trivial, fun r _ => h.retry⟩
  unfold work
  rw [tryCatch_eq, follows_orElse]
  exact (process_record hk).mono fun s r => retried s r

/-- In every run, an attempt at a job that says that the booking is on has announced the booking it found
when it ends, whatever its status, unless a service has stopped it. -/
theorem run_handled {job : Job} {r : Except Failure (Option BookingWithRelations)}
    (h : (bookingSystem P).Run G (.start w) c) (hk : job.data.kind.live = true)
    (he : c.Ended i (.work job) r) : Handled P (c.past i) := by
  have hbody : ∀ call : Call, (call.body P).Follows .record
      (fun past _ => ∀ job, call = .work job → job.data.kind.live = true → Handled P past) [] := by
    intro call
    cases call with
    | work job =>
        by_cases hk : job.data.kind.live = true
        · refine follows_bind.mpr ((work_record hk).mono fun past r h => ?_)
          cases r <;> (intro job' hj _; exact h)
        · exact (Follows.of_allowed (fun _ _ => trivial) _).mono fun _ _ _ job' hj hk' => by
            cases hj; exact absurd hk' hk
    | _ => exact (Follows.of_allowed (fun _ _ => trivial) _).mono fun _ _ _ _ hj => nomatch hj
  have hf := h.follows (R := fun _ => .record) (fun _ => rfl) hbody (fun _ _ _ _ => trivial) i _ he
  rw [phase_record] at hf
  cases r with
  | ok a => exact hf job rfl hk
  | error e => exact hf job rfl hk

end CoachingCalendar
