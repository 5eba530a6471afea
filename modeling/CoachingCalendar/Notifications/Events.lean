import CoachingCalendar.Bookings.Lemmas.Meet
import CoachingCalendar.Notifications.Audience

/-!
# Whose calendar events they are

An event is put into the calendar of its booking's coach by a job of the booking, and it takes a call that holds the
booking to get it out.
-/

namespace CoachingCalendar
open Lib Lib.System

variable {P : Platform} {w w' : World} {c c' : BookingConfig} {G : BookingGuard} {ev : CalendarEvent} {n : Nat}
variable {o : Op} {ch : Choice} {r : Except Failure (Ans o)} {i : Nat} {id : String} {call : Call}
variable {log : List BookingEntry} {φ : Nat → Phase}

/-! ## Numbers of events -/

/-- No event but one of the booking has the number, or will. -/
structure Names (w : World) (n : Nat) (id : String) : Prop where
  used : n < w.nextEventId
  events : ∀ ev ∈ w.calendar, ev.id = n → ev.bookingId = id

theorem Names.exec (h : Names w n id) (hx : exec w o ch = (r, w')) : Names w' n id := by
  refine ⟨Nat.lt_of_lt_of_le h.used (exec_nextEventId hx), fun ev hev hn => ?_⟩
  rcases exec_events hx hev with hev | ⟨hid, -, -⟩
  · exact h.events ev hev hn
  · exact absurd (hn.symm.trans hid) (Nat.ne_of_lt h.used)

theorem Names.of_same (h : Names w n id) (hc : w'.calendar = w.calendar) (hn : w'.nextEventId = w.nextEventId) :
    Names w' n id := ⟨hn ▸ h.used, hc ▸ h.events⟩

/-- The events were inserted for their bookings, and wherever a number is stored it is one of an event of the booking
that it is stored with. -/
structure Labelled (w : World) (log : List BookingEntry) (φ : Nat → Phase) : Prop where
  events : ∀ ev ∈ w.calendar, ev.id < w.nextEventId
  inserted : ∀ ev ∈ w.calendar, ∃ l ∈ log, l.op = .calendarInsert ev.bookingId ev.coachId ev.toCreateMeetEventInput
  rows : ∀ b ∈ w.db.bookings, ∀ n, b.googleEventId = some n → Names w n b.id
  returned : ∀ l ∈ log, ∀ b, returnedRow l.toEvent = some b → ∀ n, b.googleEventId = some n → Names w n b.id
  created : ∀ i b n, φ i = .created b n → Names w n b.id

theorem Labelled.of_same (h : Labelled w log φ) (hb : w'.db.bookings = w.db.bookings)
    (hc : w'.calendar = w.calendar) (hn : w'.nextEventId = w.nextEventId) : Labelled w' log φ where
  events := hc ▸ hn ▸ h.events
  inserted := hc ▸ h.inserted
  rows b hmem n hid := (h.rows b (hb ▸ hmem) n hid).of_same hc hn
  returned l hl b hret n hid := (h.returned l hl b hret n hid).of_same hc hn
  created i b n hi := (h.created i b n hi).of_same hc hn

theorem Labelled.fire (h : Labelled w log φ) (ha : (φ i).allowed call o) (hx : exec w o ch = (r, w')) :
    Labelled w' (log ++ [⟨⟨o, r⟩, i⟩]) (Function.update φ i ((φ i).next P ⟨o, r⟩)) := by
  have rows : ∀ b ∈ w'.db.bookings, ∀ n, b.googleEventId = some n → Names w' n b.id := by
    refine exec_rows hx (fun b hb n hn => (h.rows b hb n hn).exec hx) (fun _ _ _ _ hn => by cases hn)
      (fun _ _ _ hb => hb) fun id patch b₁ b he hid hb n hn => ?_
    cases he
    generalize hs : φ i = s at ha
    cases ha with
    | cancel _ => exact hb n hn
    | clear => cases hn
    | attach _ =>
        cases hn
        rw [BookingPatch.apply_id, hid]
        exact (h.created i _ _ hs).exec hx
  refine ⟨fun ev hev => ?_, fun ev hev => ?_, rows, fun l hl b hb n hn => ?_, fun j b n hj => ?_⟩
  · rcases exec_events hx hev with hev | ⟨hid, hnext, -⟩
    · exact Nat.lt_of_lt_of_le (h.events ev hev) (exec_nextEventId hx)
    · omega
  · rcases exec_events hx hev with hev | ⟨-, -, rfl⟩
    · obtain ⟨l, hl, ho⟩ := h.inserted ev hev
      exact ⟨l, List.mem_append_left _ hl, ho⟩
    · exact ⟨_, List.mem_concat_self, rfl⟩
  · rcases List.mem_append.mp hl with hl | hl
    · exact (h.returned l hl b hb n hn).exec hx
    · obtain rfl := List.mem_singleton.mp hl
      exact rows b (Table.find_mem (exec_returnedRow hx hb)) n hn
  · by_cases hji : j = i
    · subst hji
      rw [Function.update_self] at hj
      by_cases hs : φ j = .created b n
      · exact (h.created j b n hs).exec hx
      · obtain ⟨hread, rfl, hnext⟩ := exec_created hx hj hs
        refine ⟨by omega, fun ev hev hid => ?_⟩
        rcases exec_events hx hev with hev | ⟨-, -, rfl⟩
        · exact absurd hid (Nat.ne_of_lt (h.events ev hev))
        · obtain ⟨b', hs', hb', -⟩ := ha
          rw [hread] at hs'
          cases hs'
          exact hb'.symm
    · rw [Function.update_of_ne hji] at hj
      exact (h.created j b n hj).exec hx

theorem run_labelled (h₀ : w.Fresh) (h : (bookingSystem P).Run G (.start w) c) :
    Labelled c.world c.log (phases P c) := by
  refine bookingRun_tracked .refl h ⟨?_, ?_, ?_, ?_, ?_⟩ ?_ ?_ ?_
  · exact fun ev hev => by simp [Config.start, h₀.calendar] at hev
  · exact fun ev hev => by simp [Config.start, h₀.calendar] at hev
  · intro b hb
    change b ∈ w.db.bookings at hb
    rw [h₀.bookings] at hb
    exact absurd hb Table.not_mem_empty
  · exact fun l hl => absurd hl List.not_mem_nil
  · exact fun i b n hi => by cases hi
  · exact fun jobs w log φ h => h.of_same rfl rfl rfl
  · exact fun d w log φ h => h.of_same d.apply_bookings (by cases d <;> rfl) (by cases d <;> rfl)
  · exact fun c i call o k ch r w' h _ ha hx _ => h.fire ha hx

/-! ## Events of bookings -/

theorem Call.holds_identity {b b' : Booking} (h : b'.identity = b.identity) (hh : call.holds b') : call.holds b := by
  cases call with
  | cancelByClient token reason => exact hh.trans (Booking.identity_manageToken h)
  | rescheduleByClient token newStartAt => exact hh.trans (Booking.identity_manageToken h)
  | cancelByCoach coach bookingId reason =>
      exact ⟨hh.1.trans (Booking.identity_id h), hh.2.imp_left fun he => he.trans (Booking.identity_coachId h)⟩
  | create dto originUrl => exact hh
  | work job => exact hh

/-- The event is of the booking `b`, which one request made: a job of the booking put it into the calendar of its
coach, with the client and the coach as guests. -/
structure Posted (S : System Ans Failure (Option BookingWithRelations) World Choice Call Drift) (G : BookingGuard)
    (w : World) (c : BookingConfig) (ev : CalendarEvent) (b : Booking) (booking : BookingWithRelations)
    (dto : CreateBookingDto) (originUrl : Option String) : Prop where
  about : b.id = ev.bookingId
  calendar : ev.coachId = b.coachId
  online : b.location = .googleMeet
  postedBy : ∃ e ∈ c.log, ∃ job, c.callOf e.tid = some (.work job) ∧ job.data.bookingId = b.id ∧
    e.op = .calendarInsert ev.bookingId ev.coachId ev.toCreateMeetEventInput
  joined : ∃ c₁, S.Run G (.start w) c₁ ∧ S.Run G c₁ c ∧ booking = c₁.world.db.withRelations booking.toBooking ∧
    b.identity = booking.identity
  content : ev.toCreateMeetEventInput = meetEventInput booking
  made : ∃ i eventType, c.callOf i = some (.create dto originUrl) ∧ CreatedFrom c i eventType b.id ∧
    Asked dto originUrl eventType b
  guests : ev.attendeeEmails = [dto.clientEmail, booking.coach.email]

/-- In one step of a run an event stays, or the step belongs to a call that holds its booking. -/
theorem step_events (h₀ : w.Fresh) (h : (bookingSystem P).Run G (.start w) c) (hs : (bookingSystem P).Step G c c')
    (hev : ev ∈ c.world.calendar) : ev ∈ c'.world.calendar ∨
      ∃ i call, Config.FiredBy i c c' ∧ c.callOf i = some call ∧
        ∃ b ∈ c.world.db.bookings, b.id = ev.bookingId ∧ call.holds b := by
  cases hs with
  | spawn _ ha =>
      obtain ⟨jobs, rfl⟩ := Call.accept_jobs ha
      exact .inl hev
  | drift d => cases d <;> exact .inl hev
  | @fire i call o k ch r w' hi hx _ =>
      by_cases hmem : ev ∈ w'.calendar
      · exact .inl hmem
      rcases exec_calendar_cases hx with ⟨hc, -⟩ | ⟨_, _, _, rfl, hc, -⟩ | ⟨coachId, eventId, rfl, hc, -⟩
      · exact absurd (hc ▸ hev) hmem
      · exact absurd (hc ▸ List.mem_append_left _ hev) hmem
      · have hn : ev.id = eventId := by
          by_contra hn
          exact hmem (hc ▸ List.mem_filter.mpr ⟨hev, by simpa using hn⟩)
        have hp : Outgoing (c.past i) call (.calendarDelete coachId eventId) := (booking_licensed.follows h hi).1
        cases hp with
        | inward ho => cases ho
        | @delete _ b b' _ hb hh hb' hid hnum =>
            obtain ⟨_, hb, hread⟩ := hb
            obtain ⟨l, hl, -, rfl⟩ := mem_past.mp hb
            obtain ⟨_, hb', hret⟩ := hb'
            obtain ⟨l', hl', -, rfl⟩ := mem_past.mp hb'
            have hnames := (run_labelled h₀ h).returned l' hl' b' hret eventId hnum
            obtain ⟨row, hf, hsame⟩ := run_returned h hl (returnedRow_of_readRow hread)
            refine .inr ⟨i, call, ⟨_, rfl, rfl⟩, by rw [Config.callOf, hi]; rfl, row, Table.find_mem hf, ?_, ?_⟩
            · rw [Table.find_key hf, ← hid, hnames.events ev hev hn]
            · exact Call.holds_identity hsame.symm hh

theorem run_posted (h₀ : w.Fresh) (h : (bookingSystem P).Run G (.start w) c) (hev : ev ∈ c.world.calendar) :
    ∃ b ∈ c.world.db.bookings, ∃ booking dto originUrl, Posted (bookingSystem P) G w c ev b booking dto originUrl := by
  obtain ⟨l, hl, hop⟩ := (run_labelled h₀ h).inserted ev hev
  obtain ⟨call, hcall, hp, -⟩ := booking_licensed.log h l hl
  rw [hop] at hp
  change Outgoing _ call _ at hp
  generalize hin : ev.toCreateMeetEventInput = input at hp hop
  generalize hid : ev.bookingId = bookingId at hp hop
  generalize hco : ev.coachId = coachId at hp hop
  cases hp with
  | inward ho => cases ho
  | @insert job booking hb hjob _ hl' =>
      obtain ⟨_, hb, hjoined⟩ := hb
      obtain ⟨l', hl', -, rfl⟩ := mem_past.mp hb
      obtain ⟨c₁, h₁, h', hrel, b, hmem, hbid, hsame⟩ := run_joined h hl' hjoined
      obtain ⟨i, dto, originUrl, eventType, -, -, -, hi, hc, hasked⟩ := run_asked h₀ h hmem
      have hemail : booking.clientEmail = b.clientEmail := congrArg (·.clientEmail) hsame.symm
      refine ⟨b, hmem, booking, dto, originUrl, hbid.trans hid.symm, ?_, ?_, ?_, ?_, hin, ?_, ?_⟩
      · exact hco.trans (Booking.identity_coachId hsame).symm
      · exact (Booking.identity_location hsame).trans ‹_›
      · exact ⟨l, hl, job, hcall, by rw [← hjob, hbid], by rw [hop, hin, hid, hco]⟩
      · exact ⟨c₁, h₁, h', hrel, hsame⟩
      · exact ⟨i, eventType, hi, hc, hasked⟩
      · rw [hin, meetEventInput, hemail, hasked.clientEmail]

/-! ## The result -/

/-- Whatever the order of the calls, an event in a calendar is of one booking, in the calendar of its coach and for its
client and its coach, and stays there as long as nobody who holds the booking makes a call. -/
theorem events_posted (h₀ : w.Fresh) (h : (bookingSystem P).Run G (.start w) c) (h' : (bookingSystem P).Run G c c')
    (hev : ev ∈ c.world.calendar) : ∃ b ∈ c.world.db.bookings,
      (∃ booking dto originUrl, Posted (bookingSystem P) G w c ev b booking dto originUrl) ∧
      ((∀ i call, c'.callOf i = some call → ¬ call.holds b) → ev ∈ c'.world.calendar) := by
  obtain ⟨b, hb, hposted⟩ := run_posted h₀ h hev
  refine ⟨b, hb, hposted, fun hs => ?_⟩
  obtain ⟨booking, dto, originUrl, hposted⟩ := hposted
  induction h' with
  | refl => exact hev
  | @tail c₁ c₂ hrun hstep ih =>
      have hstay := ih fun i call hi => hs i call (hstep.callOf hi)
      rcases step_events h₀ (h.trans hrun) hstep hstay with hev' | ⟨i, call, _, hi, b', hb', hid, hh⟩
      · exact hev'
      · obtain ⟨b₁, hf, hsame⟩ := run_identity h hrun (Table.find_some.mpr ⟨hb, rfl⟩)
        have hfound := Table.find_some.mpr ⟨hb', hid.trans hposted.about.symm⟩
        cases hf.symm.trans hfound
        exact absurd (Call.holds_identity hsame hh) (hs i call (hstep.callOf hi))

/-- The event of Anna's booking outlasts a cancellation with another token. -/
theorem events_posted_guess : ∃ c c', (bookingSystem .sample).Run .any (.start .sample) c ∧
    (bookingSystem .sample).Run .any c c' ∧ c'.callOf 2 = some (.cancelByClient "t2" none) ∧
    ∃ ev ∈ c.world.calendar, ∃ b ∈ c.world.db.bookings,
      (∃ booking dto originUrl, Posted (bookingSystem .sample) .any .sample c ev b booking dto originUrl) ∧
      ev ∈ c'.world.calendar := by
  let job : Job := { data := ⟨"b1", "c1", .confirmed⟩ }
  obtain ⟨c, h, hp⟩ := run_of_play (S := bookingSystem .sample) (G := .any) (c := .start .sample)
    (bookSample ++ [.spawn (.work job)] ++ fires 1 3 .linked)
    (fun c => !c.world.calendar.isEmpty && (c.world.db.bookings.rows.all fun b => b.manageToken = "t1") &&
      ((bookingSystem .sample).play .any ([.spawn (.cancelByClient "t2" none)] ++ fires 2 1) c).any fun c' =>
        c'.threads.map (·.call) = [.create .sample none, .work job, .cancelByClient "t2" none]) (by decide)
  simp only [Bool.and_eq_true, Bool.not_eq_true', List.all_eq_true, decide_eq_true_eq, Option.any_eq_true] at hp
  obtain ⟨⟨hne, ht⟩, c', hc', hcalls⟩ := hp
  obtain ⟨ev, hev⟩ := List.isEmpty_eq_false_iff_exists_mem.mp hne
  have call : ∀ i, c'.callOf i = [Call.create .sample none, .work job, .cancelByClient "t2" none][i]? := by
    intro i
    rw [← hcalls, List.getElem?_map]
    rfl
  obtain ⟨b, hb, hposted, hstays⟩ := events_posted ⟨rfl, rfl, rfl⟩ h (play_run hc') hev
  refine ⟨c, c', h, play_run hc', call 2, ev, hev, b, hb, hposted, hstays fun i call' hi => ?_⟩
  rw [call] at hi
  rcases i with _ | _ | _ | i
  · cases hi; exact id
  · cases hi; exact id
  · cases hi
    rw [Call.holds, ht b hb]
    decide
  · cases hi

end CoachingCalendar
