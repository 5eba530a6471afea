import Mathlib.Algebra.BigOperators.Group.List.Lemmas
import CoachingCalendar.Bookings.Authority
import CoachingCalendar.Bookings.Lemmas.Notices
import CoachingCalendar.Jobs.Lemmas.Announce
import CoachingCalendar.Jobs.Lemmas.Attempt
import CoachingCalendar.Lib.Tally

/-!
# No notification is lost

Requests and workers run in any order, and every service may fail at any point. The notification of a request that has
returned is in the queue, or in the hands of a worker, or has reached both recipients, or was dropped after its last
attempt.
-/

namespace CoachingCalendar
open Lib Lib.Prog Lib.System

/-! ## Counting notifications -/

/-- The call works on a notification. -/
def Call.worksOn (data : NotificationJobData) : Call → Bool
  | .work job => job.data = data
  | _ => false

/-- It has operations left. -/
def running (th : BookingThread) : Bool :=
  match th.prog with
  | .op _ _ => true
  | _ => false

/-- It has returned a booking that the notification is about. -/
def returns (data : NotificationJobData) (th : BookingThread) : Bool :=
  match th.prog with
  | .pure (some b) => b.toBooking.notification th.call.kind = data
  | _ => false

/-- A request put the notification into the queue. -/
def sends (data : NotificationJobData) : Event Ans Failure → Bool
  | ⟨.jobSend data', .ok _⟩ => data' = data
  | _ => false

section Counts

variable (c : BookingConfig) (data : NotificationJobData)

/-- The requests that have returned with it. -/
def answered : Nat := c.tally fun th _ => (returns data th).toNat

def sent : Nat := c.log.countP fun e => sends data e.toEvent

def queued : Nat := c.world.jobs.countP (·.data = data)

def attempts : Nat := c.tally fun th _ => (th.call.worksOn data).toNat

def inHand : Nat := c.tally fun th _ => (th.call.worksOn data && running th).toNat

/-- The attempts after which both recipients had the mail. -/
def delivered : Nat := c.tally fun th past =>
  (th.call.worksOn data && past.any (mailed .client) && past.any (mailed .coach)).toNat

/-- The attempts that failed and were the last. -/
def dropped : Nat := c.tally fun th past => (th.call.worksOn data && past.any givesUp).toNat

/-- The mails about the notification that a recipient was sent. -/
def mailsTo (recipient : Recipient) : Nat :=
  c.log.countP fun e => (c.callOf e.tid).any (·.worksOn data) && mailed recipient e.toEvent

end Counts

variable {P : Platform} {w w' : World} {c : BookingConfig} {G : BookingGuard} {call : Call}
variable {o : Op} {ch : Choice} {r : Except Failure (Ans o)} {i : Nat} {th : BookingThread}
variable {data : NotificationJobData}

/-! ## The course of an attempt -/

theorem Attempt.foldl_next (past : List (Event Ans Failure)) (s : Attempt) : past.foldl next s =
    ⟨s.toClient || past.any (mailed .client), s.toCoach || past.any (mailed .coach), s.missed || past.any misses,
      s.passedOn || past.any passesOn, s.gaveUp || past.any givesUp⟩ := by
  induction past generalizing s with
  | nil => simp
  | cons e past ih => simp [ih, next, Bool.or_assoc]

/-- Where call `i` stands, when it is an attempt. -/
abbrev attemptAt (c : BookingConfig) (i : Nat) : Attempt := phase Attempt.next {} c i

theorem attemptAt_eq : attemptAt c i = ⟨(c.past i).any (mailed .client), (c.past i).any (mailed .coach),
    (c.past i).any misses, (c.past i).any passesOn, (c.past i).any givesUp⟩ := by
  simp [phase, Attempt.foldl_next]

theorem attemptRun_follows (h : (bookingSystem P).Run G (.start w) c) (hi : c.threads[i]? = some th) :
    th.prog.Follows th.call.attempt (fun s _ => ∀ job, th.call = .work job → s.Done) (attemptAt c i) :=
  h.follows (R := Call.attempt) (fun _ => rfl) Attempt.body_follows (fun _ _ _ _ => exec_answered rfl) i th hi

/-! ## The queue -/

/-- What an operation does to the queue. -/
inductive Queues (w : World) : Event Ans Failure → List Job → Prop
  | send {d : NotificationJobData} : Queues w ⟨.jobSend d, .ok ()⟩ (w.jobs ++ [{ data := d }])
  | retry {job} {r : Except Failure Unit} : job.retryCount < retryLimit →
      Queues w ⟨.jobRetry job, r⟩ (w.jobs ++ [{ job with retryCount := job.retryCount + 1 }])
  | drop {job} {r : Except Failure Unit} : ¬ job.retryCount < retryLimit → Queues w ⟨.jobRetry job, r⟩ w.jobs
  | other {e} : (∀ d, sends d e = false) → passesOn e = false → Queues w e w.jobs

theorem exec_queues (hx : exec w o ch = (r, w')) : Queues w ⟨o, r⟩ w'.jobs := by
  cases ho : o.queues with
  | false =>
      rw [exec_jobs ho hx]
      cases o with
      | jobSend | jobRetry => cases ho
      | _ => exact .other (fun _ => rfl) rfl
  | true =>
      cases o with
      | jobSend data =>
          cases r with
          | error e =>
              rw [exec_error (o := .jobSend data) hx]
              exact .other (fun _ => rfl) rfl
          | ok u =>
              rw [exec_jobSend hx]
              exact .send
      | jobRetry job =>
          cases hx
          split
          · exact .retry ‹_›
          · exact .drop ‹_›
      | _ => cases ho

/-! ## Conservation -/

/-- The worker has not passed the notification on. -/
def held (data : NotificationJobData) (th : BookingThread) (past : List (Event Ans Failure)) : Bool :=
  th.call.worksOn data && !past.any passesOn

/-- The attempt that a worker makes, from `1` on. -/
def Call.round : Call → Nat
  | .work job => job.retryCount + 1
  | _ => 0

/-- A notification weighs `S`, and `b` more for each attempt that was made at it. -/
def burden (S b : Nat) (data : NotificationJobData) (th : BookingThread) (past : List (Event Ans Failure)) : Nat :=
  if held data th past then S + b * th.call.round else 0

def backlog (S b : Nat) (data : NotificationJobData) (jobs : List Job) : Nat :=
  (jobs.map fun job => if job.data = data then S + b * job.retryCount else 0).sum

/-- What is sent and each attempt add to the weight of the notifications that are in the queue or held. -/
def Balanced (S b : Nat) (c : BookingConfig) (data : NotificationJobData) : Prop :=
  S * sent c data + b * attempts c data = backlog S b data c.world.jobs + c.tally (burden S b data)

variable {S b : Nat}

theorem backlog_append (jobs : List Job) (job : Job) : backlog S b data (jobs ++ [job]) =
    backlog S b data jobs + if job.data = data then S + b * job.retryCount else 0 := by
  simp [backlog]

theorem Balanced.spawn (h : Balanced S b c data) (hrun : (bookingSystem P).Run G (.start w) c)
    (ha : call.accept c.world = some w') :
    Balanced S b ⟨w', c.threads ++ [⟨call, call.body P⟩], c.log⟩ data := by
  unfold Balanced attempts at h ⊢
  rw [hrun.tally_spawn, hrun.tally_spawn]
  change S * sent c data + _ = _
  cases call with
  | work job =>
      simp only [Call.accept] at ha
      split at ha
      · rename_i hj
        cases ha
        have he := List.sum_map_erase (fun job => if job.data = data then S + b * job.retryCount else 0) hj
        change _ + backlog S b data (c.world.jobs.erase job) = backlog S b data c.world.jobs at he
        by_cases hd : job.data = data
        · simp only [if_pos hd] at he
          simp only [Call.worksOn, hd, decide_true, Bool.toNat_true, burden, held, List.any_nil, Bool.not_false,
            Bool.and_self, if_true, Call.round, Nat.mul_add, Nat.mul_one] at h ⊢
          omega
        · simp only [if_neg hd] at he
          simp only [Call.worksOn, hd, decide_false, Bool.toNat_false, burden, held, Bool.false_and, Nat.add_zero,
            Bool.false_eq_true, if_false] at h ⊢
          omega
      · cases ha
  | _ =>
      cases ha
      simpa only [Call.worksOn, burden, held, Bool.false_and, Bool.toNat_false, Bool.false_eq_true, if_false,
        Nat.add_zero] using h

theorem burden_append {e : Event Ans Failure} {past : List (Event Ans Failure)} (he : passesOn e = false)
    (p q : BookingProg (Option BookingWithRelations)) :
    burden S b data ⟨call, p⟩ (past ++ [e]) = burden S b data ⟨call, q⟩ past := by
  simp [burden, held, he]

theorem Balanced.fire {k} (h : Balanced S b c data) (hi : c.threads[i]? = some ⟨call, .op o k⟩)
    (hx : exec c.world o ch = (r, w'))
    (hretry : ∀ job, o = .jobRetry job → call = .work job ∧ (c.past i).any passesOn = false) :
    Balanced S b ⟨w', c.threads.set i ⟨call, k r⟩, c.log ++ [⟨⟨o, r⟩, i⟩]⟩ data := by
  have ht := Nat.add_right_cancel (tally_fire w' ⟨call, k r⟩ hi
    (fun th _ => (th.call.worksOn data).toNat) ⟨o, r⟩)
  have hb := tally_fire w' ⟨call, k r⟩ hi (burden S b data) ⟨o, r⟩
  have hlog : sent ⟨w', c.threads.set i ⟨call, k r⟩, c.log ++ [⟨⟨o, r⟩, i⟩]⟩ data =
      sent c data + if sends data ⟨o, r⟩ then 1 else 0 := by
    simp [sent, List.countP_append, List.countP_singleton]
  unfold Balanced attempts at *
  rw [hlog, ht]
  have hq := exec_queues hx
  dsimp only
  generalize w'.jobs = jobs at hq ⊢
  cases hq with
  | @send d =>
      rw [burden_append rfl (k (.ok ())) (.op _ k)] at hb
      rw [backlog_append]
      by_cases hd : d = data
      · simp only [sends, hd, decide_true, if_true, Nat.mul_add, Nat.mul_one, Nat.mul_zero]
        omega
      · simp only [sends, hd, decide_false, Bool.false_eq_true, if_false, Nat.add_zero]
        omega
  | @retry job r hl =>
      obtain ⟨rfl, hp⟩ := hretry job rfl
      have hs : sends data ⟨.jobRetry job, r⟩ = false := rfl
      have hpass : passesOn ⟨.jobRetry job, r⟩ = true := by simp [passesOn, hl]
      rw [backlog_append, hs]
      by_cases hd : job.data = data
      · simp [burden, held, Call.worksOn, hd, hp, hpass, Call.round] at hb
        simp only [hd, if_true, Bool.false_eq_true, if_false, Nat.add_zero]
        omega
      · simp [burden, held, Call.worksOn, hd] at hb
        simp only [hd, Bool.false_eq_true, if_false, Nat.add_zero]
        omega
  | @drop job r hl =>
      have hs : sends data ⟨.jobRetry job, r⟩ = false := rfl
      rw [burden_append (by simp [passesOn, hl]) (k r) (.op _ k)] at hb
      rw [hs, if_neg Bool.false_ne_true, Nat.add_zero]
      omega
  | other hs hp =>
      rw [burden_append hp (k r) (.op _ k)] at hb
      rw [hs data, if_neg Bool.false_ne_true, Nat.add_zero]
      omega

theorem run_balanced (hj : w.jobs = []) (h : (bookingSystem P).Run G (.start w) c) (S b : Nat)
    (data : NotificationJobData) : Balanced S b c data := by
  refine Run.observed (R := Call.entitlement) (I := fun c _ => Balanced S b c data) h (fun _ => rfl)
    Standing.body_follows (fun _ _ _ _ => exec_answered rfl) ?_ ?_ ?_ ?_
  · simp [Balanced, sent, attempts, Config.start, backlog, hj]
    rfl
  · exact fun c call w' _ hrun hI ha => hI.spawn hrun ha
  · intro c d _ hI
    cases d <;> exact hI
  · intro c i call o k ch r w' hrun hI hi ha hx _ _
    refine hI.fire hi hx fun job ho => ?_
    subst ho
    obtain rfl : call = .work job := ha
    have hopen := ((attemptRun_follows hrun hi).1 job rfl).1.passedOn
    rw [attemptAt_eq] at hopen
    exact ⟨rfl, hopen⟩

/-! ## Jobs and their bookings -/

theorem exec_bookingFindUnique_none {id : String} (hx : exec w (.bookingFindUnique id) ch = (.ok none, w')) :
    w.db.bookings.find id = none := by
  rcases unlessFault_cases hx with ⟨e, he, _⟩ | hx
  · cases he
  · simp only [Prod.mk.injEq, Except.ok.injEq, Option.map_eq_none_iff] at hx
    exact hx.1

/-- The booking of a job is in the table, and the job has an attempt left. -/
def Job.Sound (job : Job) (w : World) : Prop :=
  (w.db.bookings.find job.data.bookingId).isSome ∧ job.retryCount ≤ retryLimit

/-- A worker has a sound job, finds its booking, and gives up at the last attempt only. -/
structure Works (c : BookingConfig) (i : Nat) (job : Job) : Prop where
  sound : job.Sound c.world
  finds : (c.past i).any misses = false
  last : (c.past i).any givesUp = true → retryLimit ≤ job.retryCount

structure JobsSound (c : BookingConfig) : Prop where
  jobs : ∀ job ∈ c.world.jobs, job.Sound c.world
  workers : ∀ i job, c.callOf i = some (.work job) → Works c i job

theorem Job.Sound.fire {job : Job} (h : job.Sound w) (hx : exec w o ch = (r, w')) : job.Sound w' := by
  obtain ⟨b, hb⟩ := Option.isSome_iff_exists.mp h.1
  obtain ⟨b', hb', _⟩ := exec_kept hx _ b hb
  exact ⟨by rw [hb']; rfl, h.2⟩

theorem Works.event {k} {job : Job} (h : Works c i job) (hrun : (bookingSystem P).Run G (.start w) c)
    (hi : c.threads[i]? = some ⟨.work job, .op o k⟩) (hx : exec c.world o ch = (r, w')) :
    misses ⟨o, r⟩ = false ∧ (givesUp ⟨o, r⟩ = true → retryLimit ≤ job.retryCount) := by
  have ha := ((attemptRun_follows hrun hi).1 job rfl).2
  cases o with
  | bookingFindUnique id =>
      refine ⟨?_, fun hg => (Bool.false_ne_true hg).elim⟩
      rcases r with e | _ | b
      · rfl
      · have hn := exec_bookingFindUnique_none hx
        have hs := h.sound.1
        rw [← show id = job.data.bookingId from ha, hn] at hs
        cases hs
      · rfl
  | jobRetry job' =>
      obtain rfl : job' = job := ha
      exact ⟨rfl, fun hg => by simpa [givesUp] using hg⟩
  | _ => exact ⟨rfl, fun hg => (Bool.false_ne_true hg).elim⟩

theorem JobsSound.fire {k} (h : JobsSound c) (hrun : (bookingSystem P).Run G (.start w) c)
    (hi : c.threads[i]? = some ⟨call, .op o k⟩) (hx : exec c.world o ch = (r, w')) :
    JobsSound ⟨w', c.threads.set i ⟨call, k r⟩, c.log ++ [⟨⟨o, r⟩, i⟩]⟩ := by
  have hcall : c.callOf i = some call := by rw [Config.callOf, hi]; rfl
  have hentitled := (hrun.follows (R := Call.entitlement) (fun _ => rfl) Standing.body_follows
    (fun _ _ _ _ => exec_answered rfl) i _ hi).1
  refine ⟨fun job hj => ?_, fun j job hj => ?_⟩
  · have old : job ∈ c.world.jobs → job.Sound w' := fun hj => (h.jobs job hj).fire hx
    have hq := exec_queues hx
    change job ∈ w'.jobs at hj
    generalize w'.jobs = jobs at hq hj
    cases hq with
    | @send d =>
        rcases List.mem_append.mp hj with hj | hj
        · exact old hj
        · cases List.mem_singleton.mp hj
          obtain ⟨b, hb, hid⟩ := hentitled
          obtain ⟨b', hf, _⟩ := (run_vouched hrun).known i b hb
          rw [hid] at hf
          have hd : Job.Sound { data := d } c.world := ⟨by rw [hf]; rfl, Nat.zero_le _⟩
          exact hd.fire hx
    | @retry job₀ r hl =>
        rcases List.mem_append.mp hj with hj | hj
        · exact old hj
        · cases List.mem_singleton.mp hj
          obtain rfl : call = .work job₀ := hentitled
          exact ⟨((h.workers i job₀ hcall).sound.fire hx).1, hl⟩
    | drop _ => exact old hj
    | other _ _ => exact old hj
  · rw [callOf_set hi] at hj
    obtain ⟨hs, hf, hl⟩ := h.workers j job hj
    by_cases hij : i = j
    · subst hij
      cases hcall.symm.trans hj
      obtain ⟨he, hg⟩ := (h.workers i job hj).event hrun hi hx
      refine ⟨hs.fire hx, ?_, ?_⟩ <;> rw [past_append, if_pos rfl, List.any_append]
      · simp [hf, he]
      · rw [Bool.or_eq_true]
        exact fun h => h.elim hl fun h => hg (by simpa using h)
    · refine ⟨hs.fire hx, ?_, ?_⟩ <;> rw [past_append, if_neg hij, List.append_nil]
      · exact hf
      · exact hl

theorem run_jobsSound (hj : w.jobs = []) (h : (bookingSystem P).Run G (.start w) c) : JobsSound c := by
  refine Run.observed (R := Call.entitlement) (I := fun c _ => JobsSound c) h (fun _ => rfl)
    Standing.body_follows (fun _ _ _ _ => exec_answered rfl) ⟨?_, ?_⟩ ?_ ?_ ?_
  · rw [Config.start, hj]
    exact fun _ h => absurd h List.not_mem_nil
  · intro i job h
    cases h
  · intro c call w' _ hrun hI ha
    obtain ⟨hjobs, hjob⟩ := Call.accept_some ha
    obtain ⟨jobs, rfl⟩ := Call.accept_jobs ha
    refine ⟨fun job hj => hI.jobs job (hjobs job hj), fun i job hi => ?_⟩
    rcases Nat.lt_or_ge i c.threads.length with hlt | hge
    · rw [callOf_append hlt] at hi
      obtain ⟨hs, hf, hl⟩ := hI.workers i job hi
      exact ⟨hs, hf, hl⟩
    · rw [Config.callOf, List.getElem?_append_right hge, List.getElem?_singleton] at hi
      split at hi
      · cases hi
        have hp : c.past i = [] := hrun.past_nil hge
        exact ⟨hI.jobs job (hjob job rfl), by change (c.past i).any _ = false; rw [hp]; rfl,
          by change (c.past i).any _ = true → _; rw [hp]; exact fun hg => (Bool.false_ne_true hg).elim⟩
      · cases hi
  · intro c d _ hI
    have hb : (d.apply c.world).db.bookings = c.world.db.bookings := d.apply_bookings
    have hs : ∀ job : Job, job.Sound c.world → job.Sound (d.apply c.world) := by
      intro job h
      rwa [Job.Sound, hb]
    refine ⟨fun job hj => hs job (hI.jobs job ?_), fun i job hi => ?_⟩
    · cases d <;> exact hj
    · obtain ⟨h₁, h₂, h₃⟩ := hI.workers i job hi
      exact ⟨hs job h₁, h₂, h₃⟩
  · exact fun c i call o k ch r w' hrun hI hi _ hx _ _ => hI.fire hrun hi hx

/-! ## What becomes of a notification -/

theorem Attempt.Done.share {s : Attempt} (h : s.Done) (hm : s.missed = false) :
    (!s.passedOn).toNat = (s.toClient && s.toCoach).toNat + s.gaveUp.toNat := by
  cases h with
  | delivered hd hp hg => rw [hp, hg, ← Attempt.delivered, hd]; rfl
  | missed h => rw [hm] at h; cases h
  | passedOn hd hp hg => rw [hp, hg, ← Attempt.delivered, hd]; rfl
  | gaveUp hd hp hg => rw [hp, hg, ← Attempt.delivered, hd]; rfl

/-- A worker that holds a notification works on it, has delivered it, or has dropped it. -/
theorem held_share (hs : JobsSound c) (hrun : (bookingSystem P).Run G (.start w) c) (hi : c.threads[i]? = some th) :
    (held data th (c.past i)).toNat = (th.call.worksOn data && running th).toNat +
      (th.call.worksOn data && (c.past i).any (mailed .client) && (c.past i).any (mailed .coach)).toNat +
      (th.call.worksOn data && (c.past i).any givesUp).toNat := by
  cases hw : th.call.worksOn data with
  | false => simp [held, hw]
  | true =>
      obtain ⟨call, prog⟩ := th
      cases call with
      | work job =>
          have hf := attemptRun_follows hrun hi
          have hmissed := (hs.workers i job (by rw [Config.callOf, hi]; rfl)).finds
          simp only [held, hw, Bool.true_and]
          rw [attemptAt_eq] at hf
          cases prog with
          | pure a => simpa [running] using Attempt.Done.share (hf job rfl) hmissed
          | throw e => simpa [running] using Attempt.Done.share (hf job rfl) hmissed
          | op o k =>
              obtain ⟨hd, hm, hp, hg⟩ := (hf.1 job rfl).1
              simp only [Attempt.delivered] at hd hp hg
              rw [hp, hg, hd]
              rfl
      | _ => cases hw

theorem tally_held (hs : JobsSound c) (hrun : (bookingSystem P).Run G (.start w) c) :
    (c.tally fun th past => (held data th past).toNat) = inHand c data + delivered c data + dropped c data := by
  rw [inHand, delivered, dropped, ← Config.tally_add, ← Config.tally_add]
  exact Config.tally_congr fun i th hi => held_share hs hrun hi

theorem sent_eq (hj : w.jobs = []) (h : (bookingSystem P).Run G (.start w) c) (data : NotificationJobData) :
    sent c data = queued c data + c.tally fun th past => (held data th past).toNat := by
  have hb := run_balanced hj h 1 0 data
  have hq : backlog 1 0 data c.world.jobs = queued c data := by
    unfold backlog queued
    induction c.world.jobs with
    | nil => rfl
    | cons job jobs ih =>
        rw [List.map_cons, List.sum_cons, List.countP_cons, ih, Nat.add_comm]
        simp
  have ht : c.tally (burden 1 0 data) = c.tally fun th past => (held data th past).toNat :=
    Config.tally_congr fun i th _ => by cases hh : held data th (c.past i) <;> simp [burden, hh]
  rw [Balanced, hq, ht] at hb
  omega

theorem returns_eq {s : Option NotificationJobData} {prog : BookingProg (Option BookingWithRelations)}
    (h : prog.Follows announcing call.announced s) : returns data ⟨call, prog⟩ = decide (s = some data) := by
  cases prog with
  | pure b =>
      cases b with
      | none =>
          obtain rfl : s = none := h
          rfl
      | some b =>
          obtain rfl : s = some (b.toBooking.notification call.kind) := h
          simp [returns]
  | throw e =>
      obtain rfl : s = none := h
      rfl
  | op o k =>
      obtain rfl : s = none := h.1
      rfl

theorem announcing_next (e : Event Ans Failure) :
    decide (announcing.next none e = some data) = sends data e := by
  unfold announcing sends
  dsimp only
  split <;> simp_all

theorem sent_answered (h : (bookingSystem P).Run G (.start w) c) (data : NotificationJobData) :
    sent c data = answered c data := by
  refine Run.observed (R := fun _ => announcing) (I := fun c _ => sent c data = answered c data) h (fun _ => rfl)
    Call.body_announced (fun _ _ _ _ => trivial) rfl ?_ ?_ ?_
  · intro c call w' _ hrun hI ha
    have hnew : returns data ⟨call, call.body P⟩ = false := returns_eq (Call.body_announced call)
    unfold answered at hI ⊢
    rw [hrun.tally_spawn]
    change sent c data = _ + (returns data ⟨call, call.body P⟩).toNat
    rw [hnew, hI]
    rfl
  · exact fun c d _ hI => hI
  · intro c i call o k ch r w' hrun hI hi _ hx _ _
    have ht := tally_fire w' ⟨call, k r⟩ hi (fun th _ => (returns data th).toNat) ⟨o, r⟩
    obtain ⟨hs, hk⟩ := hrun.follows (R := fun _ => announcing) (fun _ => rfl) Call.body_announced
      (fun _ _ _ _ => trivial) i _ hi
    have hnew : returns data ⟨call, k r⟩ = _ := returns_eq (hk r trivial)
    rw [show phase _ none c i = none from hs, announcing_next] at hnew
    unfold answered sent at hI ⊢
    rw [List.countP_append, List.countP_singleton, hI]
    have hold : returns data ⟨call, .op o k⟩ = false := rfl
    simp only [hnew, hold, Bool.toNat_false, Nat.add_zero] at ht
    rw [ht]
    cases sends data ⟨o, r⟩ <;> rfl

/-- The notification of every request that has returned is in the queue, in the hands of a worker, delivered to both
recipients, or dropped. -/
theorem notifications_accounted (hj : w.jobs = []) (h : (bookingSystem P).Run G (.start w) c)
    (data : NotificationJobData) :
    answered c data = queued c data + inHand c data + delivered c data + dropped c data := by
  rw [← sent_answered h, sent_eq hj h data, tally_held (run_jobsSound hj h) h]
  omega

/-- Anna's booking is announced at once. -/
theorem notifications_accounted_sample : ∃ c, (bookingSystem .sample).Run .any (.start .sample) c ∧
    delivered c ⟨"b1", "c1", .confirmed⟩ = 1 ∧ answered c ⟨"b1", "c1", .confirmed⟩ =
      queued c ⟨"b1", "c1", .confirmed⟩ + inHand c ⟨"b1", "c1", .confirmed⟩ +
        delivered c ⟨"b1", "c1", .confirmed⟩ + dropped c ⟨"b1", "c1", .confirmed⟩ := by
  obtain ⟨c, h, hp⟩ := run_of_play (S := bookingSystem .sample) (G := .any) (c := .start .sample)
    (bookSample ++ [.spawn (.work ⟨⟨"b1", "c1", .confirmed⟩, 0⟩)] ++ fires 1 8 .linked)
    (fun c => delivered c ⟨"b1", "c1", .confirmed⟩ = 1) (by decide)
  exact ⟨c, h, by simpa using hp, notifications_accounted rfl h _⟩

/-! ## How often workers try -/

/-- The mails that a worker has sent to a recipient: one at most. -/
def mailedBy (recipient : Recipient) (data : NotificationJobData) (th : BookingThread)
    (past : List (Event Ans Failure)) : Nat :=
  (th.call.worksOn data && past.any (mailed recipient)).toNat

theorem sends_once {k} {recipient : Recipient} (hrun : (bookingSystem P).Run G (.start w) c)
    (hi : c.threads[i]? = some ⟨call, .op o k⟩) (hw : call.worksOn data = true)
    (hm : mailed recipient ⟨o, r⟩ = true) : (c.past i).any (mailed recipient) = false := by
  cases call with
  | work job =>
      have ha := ((attemptRun_follows hrun hi).1 job rfl).2
      unfold mailed at hm
      split at hm
      · rename_i mail _ he
        cases he
        have hsends : (attemptAt c i).Sends job.data mail := ha
        obtain ⟨_, _, hfresh⟩ := hsends
        rw [attemptAt_eq] at hfresh
        rw [← of_decide_eq_true hm]
        cases hr : mail.recipient <;> rw [hr] at hfresh <;> exact hfresh
      · cases hm
  | _ => cases hw

theorem run_mails (h : (bookingSystem P).Run G (.start w) c) (data : NotificationJobData) (recipient : Recipient) :
    mailsTo c data recipient = c.tally (mailedBy recipient data) := by
  refine Run.observed (R := Call.attempt) (I := fun c _ => mailsTo c data recipient = c.tally (mailedBy recipient data))
    h (fun _ => rfl) Attempt.body_follows (fun _ _ _ _ => exec_answered rfl) rfl ?_ ?_ ?_
  · intro c call w' _ hrun hI ha
    have hnone : ∀ th, mailedBy recipient data th [] = 0 := fun th => by simp [mailedBy]
    rw [hrun.tally_spawn, hnone, ← hI]
    refine List.countP_congr fun e he => ?_
    rw [callOf_append (hrun.log_tid e he)]
  · exact fun c d _ hI => hI
  · intro c i call o k ch r w' hrun hI hi _ hx _ _
    have ht := tally_fire w' ⟨call, k r⟩ hi (mailedBy recipient data) ⟨o, r⟩
    have hcall : c.callOf i = some call := by rw [Config.callOf, hi]; rfl
    unfold mailsTo at hI ⊢
    simp only [callOf_set hi, List.countP_append, List.countP_singleton, hcall, Option.any_some]
    cases hw : call.worksOn data with
    | false =>
        simp only [mailedBy, hw, Bool.false_and, Bool.toNat_false, Nat.add_zero] at ht
        simp only [Bool.false_and, Bool.false_eq_true, if_false, Nat.add_zero]
        exact hI.trans ht.symm
    | true =>
        cases hm : mailed recipient ⟨o, r⟩ with
        | false =>
            simp [mailedBy, hw, hm] at ht
            simpa using hI.trans ht.symm
        | true =>
            have hfresh := sends_once hrun hi hw hm
            simp only [mailedBy, hw, hfresh, Bool.true_and, Bool.toNat_false, List.any_append, List.any_cons, hm,
              Bool.true_or, Bool.or_true, Bool.toNat_true] at ht
            simp only [Bool.and_self, if_true]
            omega

theorem backlog_le {jobs : List Job} (h : ∀ job ∈ jobs, job.retryCount ≤ retryLimit) :
    backlog 0 1 data jobs ≤ (retryLimit + 1) * jobs.countP (·.data = data) := by
  induction jobs with
  | nil => exact Nat.le_refl _
  | cons job jobs ih =>
      have ih := ih fun job hj => h job (List.mem_cons_of_mem _ hj)
      have hl := h job List.mem_cons_self
      rw [backlog, List.map_cons, List.sum_cons, List.countP_cons, ← backlog]
      by_cases hd : job.data = data
      · simp only [hd, if_true, decide_true, Nat.mul_add]
        omega
      · simp only [hd, if_false, decide_false, Bool.false_eq_true, Nat.add_zero]
        omega

theorem burden_le (hs : JobsSound c) (hi : c.threads[i]? = some th) :
    burden 0 1 data th (c.past i) ≤ (retryLimit + 1) * (held data th (c.past i)).toNat := by
  cases hh : held data th (c.past i) with
  | false => simp [burden, hh]
  | true =>
      obtain ⟨call, prog⟩ := th
      cases call with
      | work job =>
          have hl := (hs.workers i job (by rw [Config.callOf, hi]; rfl)).sound.2
          simp only [burden, hh, if_true, Call.round, Bool.toNat_true]
          omega
      | _ => cases hh

theorem le_burden (hs : JobsSound c) (hrun : (bookingSystem P).Run G (.start w) c) (hi : c.threads[i]? = some th) :
    (retryLimit + 1) * (th.call.worksOn data && (c.past i).any givesUp).toNat ≤ burden 0 1 data th (c.past i) := by
  cases hg : th.call.worksOn data && (c.past i).any givesUp with
  | false => simp
  | true =>
      have hh : held data th (c.past i) = true := by
        have hshare : (held data th (c.past i)).toNat = _ := held_share hs hrun hi
        rw [hg] at hshare
        cases hh : held data th (c.past i) with
        | true => rfl
        | false => simp [hh] at hshare
      obtain ⟨call, prog⟩ := th
      cases call with
      | work job =>
          have hl := (hs.workers i job (by rw [Config.callOf, hi]; rfl)).last (Bool.and_eq_true_iff.mp hg).2
          simp only [burden, hh, if_true, Call.round, Bool.toNat_true]
          omega
      | _ => cases hh

/-- No notification takes more attempts than the queue gives it, none is dropped before it has taken them all, and its
mails are as many as its attempts at most. -/
theorem notifications_retried (hj : w.jobs = []) (h : (bookingSystem P).Run G (.start w) c)
    (data : NotificationJobData) (recipient : Recipient) : delivered c data ≤ mailsTo c data recipient ∧
      mailsTo c data recipient ≤ attempts c data ∧ attempts c data ≤ (retryLimit + 1) * answered c data ∧
      (retryLimit + 1) * dropped c data ≤ attempts c data := by
  have hs := run_jobsSound hj h
  have hb := run_balanced hj h 0 1 data
  rw [Balanced, Nat.zero_mul, Nat.zero_add, Nat.one_mul] at hb
  rw [run_mails h, ← sent_answered h]
  refine ⟨Config.tally_le fun i th _ => ?_, Config.tally_le fun i th _ => ?_, ?_, ?_⟩
  · refine Bool.toNat_le_toNat (Bool.le_iff_imp.mpr fun hd => ?_)
    simp only [Bool.and_eq_true] at hd
    cases recipient with
    | client => simp only [hd, Bool.and_self]
    | coach => simp only [hd, Bool.and_self]
  · exact Bool.toNat_le_toNat (Bool.le_iff_imp.mpr fun hm => (Bool.and_eq_true_iff.mp hm).1)
  · rw [hb, sent_eq hj h data, Nat.mul_add, ← Config.tally_mul]
    exact Nat.add_le_add (backlog_le fun job hj => (hs.jobs job hj).2) (Config.tally_le fun i th hi => burden_le hs hi)
  · rw [hb, dropped, ← Config.tally_mul]
    exact Nat.le_trans (Config.tally_le fun i th hi => le_burden hs h hi) (Nat.le_add_left _ _)

/-- A mail to Anna, whose first attempt failed after the mail to the coach was refused. -/
theorem notifications_retried_sample : ∃ c, (bookingSystem .sample).Run .any (.start .sample) c ∧
    mailsTo c ⟨"b1", "c1", .confirmed⟩ .client = 2 ∧ attempts c ⟨"b1", "c1", .confirmed⟩ = 2 ∧
      attempts c ⟨"b1", "c1", .confirmed⟩ ≤ (retryLimit + 1) * answered c ⟨"b1", "c1", .confirmed⟩ := by
  obtain ⟨c, h, hp⟩ := run_of_play (S := bookingSystem .sample) (G := .any) (c := .start .sample)
    (bookSample ++ [.spawn (.work ⟨⟨"b1", "c1", .confirmed⟩, 0⟩)] ++ fires 1 7 .linked ++
      [.fire 1 { fault := some (.other "refused") }] ++ fires 1 1 ++
      [.spawn (.work ⟨⟨"b1", "c1", .confirmed⟩, 1⟩)] ++ fires 2 5)
    (fun c => mailsTo c ⟨"b1", "c1", .confirmed⟩ .client = 2 && attempts c ⟨"b1", "c1", .confirmed⟩ = 2) (by decide)
  simp only [Bool.and_eq_true, decide_eq_true_eq] at hp
  exact ⟨c, h, hp.1, hp.2, (notifications_retried rfl h _ .client).2.2.1⟩

end CoachingCalendar
