import CoachingCalendar.Bookings.Lemmas.Final

/-!
# Calendar events under the condition that nobody else changes the event or the time

Every event in the calendar is stored with its booking, or is about to be stored by the job that
created it, or is about to be deleted by the request that moved its booking.
-/

namespace CoachingCalendar
open Lib Lib.System

variable {P : Platform} {w w' : World} {log : List BookingEntry} {φ : Nat → Phase} {c c' : BookingConfig}
variable {call : Call} {s : Phase} {o : Op} {ch : Choice} {r : Except Failure (Ans o)} {i : Nat}

/-! ## One operation on one row -/

theorem exec_time {id : String} {b b' : Booking} (hx : exec w o ch = (r, w'))
    (hb : w.db.bookings.find id = some b) (hb' : w'.db.bookings.find id = some b')
    (hm : moves id ⟨⟨o, r⟩, i⟩ = false) : b'.startAt = b.startAt ∧ b'.endAt = b.endAt := by
  rcases exec_row hx hb with hf | ⟨patch, b₁, he, hf⟩ | ⟨tx, b₁, he, hw, hf⟩
  · cases hf.symm.trans hb'; exact ⟨rfl, rfl⟩
  · cases hf.symm.trans hb'; exact ⟨rfl, rfl⟩
  · cases he
    rw [moves_transaction hw] at hm; cases hm

theorem PatchAllowed.number {id : String} {patch : BookingPatch} (h : PatchAllowed s id patch)
    (hs : patch.stores = false) (b : Booking) :
    (patch.apply b).googleEventId = if patch.clears then none else b.googleEventId := by
  cases h with
  | cancel _ => rfl
  | clear => rfl
  | attach _ => cases hs

theorem exec_number {id : String} {b b' : Booking} (ha : s.allowed call o) (hx : exec w o ch = (r, w'))
    (hb : w.db.bookings.find id = some b) (hb' : w'.db.bookings.find id = some b')
    (hs : stores id ⟨⟨o, r⟩, i⟩ = false) :
    b'.googleEventId = if clears id ⟨⟨o, r⟩, i⟩ then none else b.googleEventId := by
  by_cases hc : clears id ⟨⟨o, r⟩, i⟩
  · obtain ⟨patch, b₁, he, hp⟩ := patches_iff.mp hc
    cases he
    obtain ⟨b₂, _, _, hf⟩ := exec_bookingUpdate_ok hx
    cases hf.symm.trans hb'
    rw [if_pos hc, PatchAllowed.number ha (patches_update.symm.trans hs), if_pos hp]
  · rw [if_neg hc]
    rcases exec_row hx hb with hf | ⟨patch, b₁, he, hf⟩ | ⟨tx, b₁, he, hw, hf⟩
    · cases hf.symm.trans hb'; rfl
    · cases he
      cases hf.symm.trans hb'
      rw [PatchAllowed.number ha (patches_update.symm.trans hs), if_neg fun hp => hc (patches_update.trans hp)]
    · cases hf.symm.trans hb'; rfl

/-! ## Phases -/

theorem Phase.next_created {e : Event Ans Failure} {b : Booking} {n : Nat}
    (h : s.next P e = .created b n) : s = .created b n ∨ s = .read b ∧ ∃ bookingId coachId input data meet,
      e = ⟨.calendarInsert bookingId coachId input, .ok data⟩ ∧ data.result = some meet ∧ meet.eventId = n := by
  unfold Phase.next at h
  split at h
  · cases h
  · cases h
  · split at h <;> cases h
  · split at h <;> cases h
  · cases h
  · split at h
    · rename_i hd
      cases h; exact .inr ⟨rfl, _, _, _, _, _, rfl, hd, rfl⟩
    · cases h
  · split at h <;> cases h
  · cases h
  · exact .inl h

theorem Phase.next_moved {e : Event Ans Failure} {b : Booking} (h : s.next P e = .moved b) :
    s = .moved b ∨ ∃ tx id b₁, e = ⟨.transaction tx, .ok b₁⟩ ∧ tx.write = .move id ∧ b₁.toBooking = b := by
  unfold Phase.next at h
  split at h
  · cases h
  · cases h
  · split at h
    · cases h
    · rename_i hw
      cases h; exact .inr ⟨_, _, _, rfl, hw, rfl⟩
  · split at h
    · exact .inl h
    · cases h
  · cases h
  · split at h <;> cases h
  · split at h <;> cases h
  · cases h
  · exact .inl h

theorem Phase.next_unlinked {e : Event Ans Failure} {b : Booking} (h : s.next P e = .unlinked b) :
    s = .unlinked b ∨ s = .moved b ∧ ∃ coachId n r, e = ⟨.calendarDelete coachId n, r⟩ := by
  unfold Phase.next at h
  split at h
  · cases h
  · cases h
  · split at h <;> cases h
  · split at h <;> cases h
  · cases h; exact .inr ⟨rfl, _, _, _, rfl⟩
  · split at h <;> cases h
  · split at h <;> cases h
  · cases h
  · exact .inl h

/-! ## Numbers -/

/-- The numbers in use are numbers that Google has given, each to one event. -/
structure Numbered (w : World) (φ : Nat → Phase) : Prop where
  events : ∀ e ∈ w.calendar, e.id < w.nextEventId
  distinct : (w.calendar.map (·.id)).Nodup
  rows : ∀ b ∈ w.db.bookings, ∀ n, b.googleEventId = some n → n < w.nextEventId
  phases : ∀ i b, (φ i).row = some b → ∀ n, b.googleEventId = some n → n < w.nextEventId
  created : ∀ i b n, φ i = .created b n → n < w.nextEventId

theorem InsertedEvent.result_id {data : InsertedEvent} {meet : MeetEventResult}
    (h : data.result = some meet) : data.id = some meet.eventId := by
  unfold result at h
  split at h
  · rename_i hid _
    split at h
    · cases h
    · cases h; exact hid
  · cases h

theorem exec_created {b : Booking} {n : Nat} (hx : exec w o ch = (r, w'))
    (hn : s.next P ⟨o, r⟩ = .created b n) (hs : s ≠ .created b n) :
    s = .read b ∧ n = w.nextEventId ∧ w'.nextEventId = w.nextEventId + 1 := by
  rcases Phase.next_created hn with h | ⟨hr, bookingId, coachId, input, data, meet, he, hd, rfl⟩
  · exact absurd h hs
  · cases he
    rcases exec_calendarInsert hx with ⟨e, he, _⟩ | ⟨⟨data', he, hid⟩, rfl⟩
    · cases he
    · cases he
      exact ⟨hr, hid _ (InsertedEvent.result_id hd), rfl⟩

theorem Numbered.fire (h : Numbered w φ) (ha : (φ i).allowed call o) (hx : exec w o ch = (r, w')) :
    Numbered w' (Function.update φ i ((φ i).next P ⟨o, r⟩)) := by
  have hle := exec_nextEventId hx
  have rows : ∀ b ∈ w'.db.bookings, ∀ n, b.googleEventId = some n → n < w'.nextEventId := by
    refine exec_rows hx (fun b hb n hn => Nat.lt_of_lt_of_le (h.rows b hb n hn) hle)
      (fun _ _ _ _ hn => nomatch hn) (fun _ _ _ hb => hb) fun id patch b₁ b he _ hb n hn => ?_
    cases he
    generalize hs : φ i = s at ha
    cases ha with
    | cancel _ => exact hb n hn
    | clear => cases hn
    | attach _ => cases hn; exact Nat.lt_of_lt_of_le (h.created i _ _ hs) hle
  have events : ∀ e ∈ w'.calendar, e.id < w'.nextEventId := by
    intro e he
    rcases exec_events hx he with he | ⟨hid, hn, -⟩
    · exact Nat.lt_of_lt_of_le (h.events e he) hle
    · exact hid ▸ hn ▸ Nat.lt_succ_self _
  have distinct : (w'.calendar.map (·.id)).Nodup := by
    rcases exec_calendar_cases hx with ⟨hc, -⟩ | ⟨bookingId, coachId, input, -, hc, -⟩ | ⟨coachId, n, -, hc, -⟩
    · exact hc ▸ h.distinct
    · rw [hc, List.map_append, List.nodup_append]
      refine ⟨h.distinct, List.nodup_singleton _, fun n hn m hm hnm => ?_⟩
      obtain ⟨e, he, rfl⟩ := List.mem_map.mp hn
      rw [List.map_singleton, List.mem_singleton] at hm
      exact absurd (hnm.trans hm) (Nat.ne_of_lt (h.events e he))
    · exact hc ▸ h.distinct.sublist (List.filter_sublist.map _)
  refine ⟨events, distinct, rows, fun j b hj n hn => ?_, fun j b n hj => ?_⟩
  · by_cases hji : j = i
    · subst hji
      rw [Function.update_self] at hj
      rcases Phase.next_row hj with hs | hr
      · exact Nat.lt_of_lt_of_le (h.phases j b hs n hn) hle
      · exact rows b (Table.find_mem (exec_returnedRow hx hr)) n hn
    · rw [Function.update_of_ne hji] at hj
      exact Nat.lt_of_lt_of_le (h.phases j b hj n hn) hle
  · by_cases hji : j = i
    · subst hji
      rw [Function.update_self] at hj
      by_cases hs : φ j = .created b n
      · exact Nat.lt_of_lt_of_le (h.created j b n hs) hle
      · obtain ⟨_, rfl, hn⟩ := exec_created hx hj hs
        rw [hn]; exact Nat.lt_succ_self _
    · rw [Function.update_of_ne hji] at hj
      exact Nat.lt_of_lt_of_le (h.created j b n hj) hle

/-! ## The invariant -/

/-- The event is stored with the row, at the row's time. -/
structure Stored (b : Booking) (e : CalendarEvent) : Prop where
  number : b.googleEventId = some e.id
  startAt : e.startAt = b.startAt
  endAt : e.endAt = b.endAt

/-- What a call has still to do about an event. -/
inductive Phase.Owes : Phase → CalendarEvent → Prop
  | store {b e} : e.bookingId = b.id → e.startAt = b.startAt → e.endAt = b.endAt → Owes (.created b e.id) e
  | delete {b e} : b.location = .googleMeet → b.googleEventId = some e.id → Owes (.moved b) e

theorem Phase.Owes.inv {e : CalendarEvent} (h : s.Owes e) :
    (∃ b, s = .created b e.id ∧ e.bookingId = b.id ∧ e.startAt = b.startAt ∧ e.endAt = b.endAt) ∨
      ∃ b, s = .moved b ∧ b.location = .googleMeet ∧ b.googleEventId = some e.id := by
  cases h with
  | store hid hst hen => exact .inl ⟨_, rfl, hid, hst, hen⟩
  | delete hl hn => exact .inr ⟨_, rfl, hl, hn⟩

/-- The row a job goes by. -/
def Phase.basis : Phase → Option Booking
  | .read b | .created b _ => some b
  | _ => none

/-- The row a reschedule goes by after its transaction. -/
def Phase.target : Phase → Option Booking
  | .moved b | .unlinked b => some b
  | _ => none

theorem Phase.row_of_basis {b : Booking} (h : s.basis = some b) : s.row = some b := by
  cases s <;> first | exact h | cases h

theorem Phase.row_of_target {b : Booking} (h : s.target = some b) : s.row = some b := by
  cases s <;> first | exact h | cases h

theorem Phase.next_basis {e : Event Ans Failure} {b : Booking} (h : (s.next P e).basis = some b) :
    readRow e = some b ∨ s.basis = some b ∧ readRow e = none := by
  cases hr : readRow e with
  | some b' =>
      rw [next_of_readRow hr] at h
      exact .inl h
  | none =>
      refine .inr ⟨?_, rfl⟩
      generalize hn : s.next P e = s' at h
      cases s' with
      | read b' =>
          rcases next_read hn with hr' | ⟨rfl, _⟩
          · rw [hr] at hr'; cases hr'
          · exact h
      | created b' n =>
          rcases next_created hn with rfl | ⟨rfl, _⟩
          · exact h
          · exact h
      | _ => cases h

theorem Phase.next_target {e : Event Ans Failure} {b : Booking} (h : (s.next P e).target = some b) :
    s.target = some b ∨
      ∃ tx id b₁, e = ⟨.transaction tx, .ok b₁⟩ ∧ tx.write = .move id ∧ b₁.toBooking = b := by
  generalize hn : s.next P e = s' at h
  cases s' with
  | moved b' =>
      cases h
      exact (next_moved hn).imp_left fun hs => by rw [hs]; rfl
  | unlinked b' =>
      cases h
      rcases next_unlinked hn with rfl | ⟨rfl, _⟩
      · exact .inl rfl
      · exact .inl rfl
  | _ => cases h

structure Dated (w : World) (log : List BookingEntry) (φ : Nat → Phase) : Prop where
  known : RowsKnown w φ
  numbered : Numbered w φ
  linked : ∀ b ∈ w.db.bookings, truthy b.meetLink = false → b.googleEventId = none
  creators : ∀ i b n, φ i = .created b n → truthy b.meetLink = false
  deleters : ∀ i b, φ i = .unlinked b → ∃ n, b.googleEventId = some n ∧ ∀ e ∈ w.calendar, e.id ≠ n
  /-- A row without a link has no number and its time until somebody moves it or stores an event. -/
  jobs : ∀ i b, (φ i).basis = some b → truthy b.meetLink = false →
    (∀ x ∈ since (fun x => x.tid = i && reads b.id x) log, moves b.id x = false ∧ stores b.id x = false) →
    ∀ b', w.db.bookings.find b.id = some b' →
      b'.startAt = b.startAt ∧ b'.endAt = b.endAt ∧ b'.googleEventId = none
  /-- A moved row has its number or none until somebody stores an event. -/
  reschedules : ∀ i b, (φ i).target = some b →
    (∀ x ∈ since (fun x => x.tid = i && moves b.id x) log, stores b.id x = false) →
    ∀ b', w.db.bookings.find b.id = some b' →
      b'.googleEventId = none ∨ b'.googleEventId = b.googleEventId
  live : ∀ e ∈ w.calendar, ∃ b, w.db.bookings.find e.bookingId = some b ∧ b.location = .googleMeet ∧
    (Stored b e ∨ ∃ i, (φ i).Owes e)

section Fire

variable (h : Dated c.world c.log φ) (ha : (φ i).allowed call o) (hx : exec c.world o ch = (r, w'))
include h ha hx

theorem Dated.fire_linked : ∀ b ∈ w'.db.bookings, truthy b.meetLink = false → b.googleEventId = none := by
  refine exec_rows hx h.linked (fun _ _ _ _ => rfl) (fun _ _ _ hb => hb) fun id patch b₁ b he _ hb hl => ?_
  cases he
  generalize hs : φ i = s at ha
  cases ha with
  | cancel _ => exact hb hl
  | clear => rfl
  | attach hne => simp [BookingPatch.apply, truthy, hne] at hl

theorem Dated.fire_creators :
    ∀ j b n, Function.update φ i ((φ i).next P ⟨o, r⟩) j = .created b n → truthy b.meetLink = false := by
  intro j b n hj
  by_cases hji : j = i
  · subst hji
    rw [Function.update_self] at hj
    rcases Phase.next_created hj with hs | ⟨hs, bookingId, coachId, input, data, meet, he, _⟩
    · exact h.creators j b n hs
    · cases he
      obtain ⟨b', hb', _, _, hl, _⟩ := ha
      rw [hs] at hb'; cases hb'
      exact hl
  · rw [Function.update_of_ne hji] at hj
    exact h.creators j b n hj

/-- A deleted event does not come back, and no event takes its number. -/
theorem Dated.fire_deleters (hg : deleteTakesEffect P c ⟨⟨o, r⟩, i⟩) :
    ∀ j b, Function.update φ i ((φ i).next P ⟨o, r⟩) j = .unlinked b →
      ∃ n, b.googleEventId = some n ∧ ∀ e ∈ w'.calendar, e.id ≠ n := by
  have keep : ∀ {n}, n < c.world.nextEventId → (∀ e ∈ c.world.calendar, e.id ≠ n) → ∀ e ∈ w'.calendar, e.id ≠ n := by
    intro n hn hne e he
    rcases exec_events hx he with he | ⟨hid, -, -⟩
    · exact hne e he
    · exact hid ▸ (Nat.ne_of_lt hn).symm
  have old : ∀ {j b}, φ j = .unlinked b → ∃ n, b.googleEventId = some n ∧ ∀ e ∈ w'.calendar, e.id ≠ n := by
    intro j b hj
    obtain ⟨n, hn, hne⟩ := h.deleters j b hj
    exact ⟨n, hn, keep (h.numbered.phases j b (by rw [hj]; rfl) n hn) hne⟩
  intro j b hj
  by_cases hji : j = i
  · subst hji
    rw [Function.update_self] at hj
    rcases Phase.next_unlinked hj with hs | ⟨hs, coachId, n, r', he⟩
    · exact old hs
    · cases he
      obtain ⟨b', hb', hn⟩ := ha
      rw [hs] at hb'
      rcases exec_calendarDelete hx with ⟨e, rfl, _⟩ | ⟨rfl, rfl⟩
      · cases hg
      rcases hb' with hb' | hb' <;> cases hb'
      exact ⟨n, hn, fun e he => by simpa using (List.mem_filter.mp he).2⟩
  · rw [Function.update_of_ne hji] at hj
    exact old hj

/-- What happens to the row that a job or a reschedule goes by. -/
theorem Dated.fire_jobs :
    ∀ j b, (Function.update φ i ((φ i).next P ⟨o, r⟩) j).basis = some b → truthy b.meetLink = false →
      (∀ x ∈ since (fun x => x.tid = j && reads b.id x) (c.log ++ [⟨⟨o, r⟩, i⟩]),
        moves b.id x = false ∧ stores b.id x = false) →
      ∀ b', w'.db.bookings.find b.id = some b' →
        b'.startAt = b.startAt ∧ b'.endAt = b.endAt ∧ b'.googleEventId = none := by
  intro j b hj hl hsince b' hb'
  rw [since_append] at hsince
  have keep : (φ j).basis = some b → (j = i → readRow ⟨o, r⟩ = none) →
      b'.startAt = b.startAt ∧ b'.endAt = b.endAt ∧ b'.googleEventId = none := by
    intro hs hn
    have hp : ((⟨⟨o, r⟩, i⟩ : BookingEntry).tid = j && reads b.id ⟨⟨o, r⟩, i⟩) = false := by
      by_cases hji : j = i
      · simp [reads_of_none (hn hji)]
      · simp [Ne.symm hji]
    rw [if_neg (by simp [hp])] at hsince
    obtain ⟨b₀, hb₀, _⟩ := h.known j b (Phase.row_of_basis hs)
    obtain ⟨hst, hen, hno⟩ := h.jobs j b hs hl (fun x hx => hsince x (List.mem_cons_of_mem _ hx)) b₀ hb₀
    have he := hsince _ List.mem_cons_self
    obtain ⟨hst', hen'⟩ := exec_time hx hb₀ hb' he.1
    refine ⟨hst'.trans hst, hen'.trans hen, ?_⟩
    rw [exec_number ha hx hb₀ hb' he.2, hno, ite_self]
  by_cases hji : j = i
  · subst hji
    rw [Function.update_self] at hj
    rcases Phase.next_basis hj with hr | ⟨hs, hr⟩
    · obtain ⟨rfl, hf⟩ := exec_readRow hx hr
      cases hf.symm.trans hb'
      exact ⟨rfl, rfl, h.linked b (Table.find_mem hf) hl⟩
    · exact keep hs fun _ => hr
  · rw [Function.update_of_ne hji] at hj
    exact keep hj fun he => absurd he hji

theorem Dated.fire_reschedules :
    ∀ j b, (Function.update φ i ((φ i).next P ⟨o, r⟩) j).target = some b →
      (∀ x ∈ since (fun x => x.tid = j && moves b.id x) (c.log ++ [⟨⟨o, r⟩, i⟩]), stores b.id x = false) →
      ∀ b', w'.db.bookings.find b.id = some b' →
        b'.googleEventId = none ∨ b'.googleEventId = b.googleEventId := by
  intro j b hj hsince b' hb'
  rw [since_append] at hsince
  have keep : (φ j).target = some b → (j = i → moves b.id ⟨⟨o, r⟩, i⟩ = false) →
      b'.googleEventId = none ∨ b'.googleEventId = b.googleEventId := by
    intro hs hn
    have hp : ((⟨⟨o, r⟩, i⟩ : BookingEntry).tid = j && moves b.id ⟨⟨o, r⟩, i⟩) = false := by
      by_cases hji : j = i
      · simp [hn hji]
      · simp [Ne.symm hji]
    rw [if_neg (by simp [hp])] at hsince
    obtain ⟨b₀, hb₀, _⟩ := h.known j b (Phase.row_of_target hs)
    have hno := h.reschedules j b hs (fun x hx => hsince x (List.mem_cons_of_mem _ hx)) b₀ hb₀
    rw [exec_number ha hx hb₀ hb' (hsince _ List.mem_cons_self)]
    split
    · exact .inl rfl
    · exact hno
  by_cases hji : j = i
  · subst hji
    rw [Function.update_self] at hj
    rcases Phase.next_target hj with hs | ⟨tx, id, b₁, he, hw, rfl⟩
    · -- no transaction is allowed from there
      refine keep hs fun _ => Bool.eq_false_iff.mpr fun hm => ?_
      obtain ⟨tx, b₁, he, _⟩ := moves_iff.mp hm
      cases he
      generalize φ j = s at ha hs
      cases ha <;> cases hs
    · cases he
      cases (exec_returnedRow (o := .transaction tx) hx rfl).symm.trans hb'
      exact .inr rfl
  · rw [Function.update_of_ne hji] at hj
    exact keep hj fun he => absurd he hji

variable {k : Except Failure (Ans o) → BookingProg (Option BookingWithRelations)}
  (hth : c.threads[i]? = some ⟨call, .op o k⟩) (hg : (noMeetOverlap P).event c ⟨⟨o, r⟩, i⟩)
include hg

/-- An event stored with a row stays stored, or the call that moves the row is going to delete it. -/
theorem Dated.fire_stored {b b' : Booking} {e : CalendarEvent} (he : e ∈ c.world.calendar)
    (hb : c.world.db.bookings.find e.bookingId = some b) (hm : b.location = .googleMeet)
    (hs : Stored b e) (hb' : w'.db.bookings.find e.bookingId = some b') :
    Stored b' e ∨ ((φ i).next P ⟨o, r⟩).Owes e := by
  obtain ⟨_, _, hun⟩ := hg
  have hstores : stores e.bookingId ⟨⟨o, r⟩, i⟩ = false := by
    refine Bool.eq_false_iff.mpr fun hst => ?_
    have hsince := hun.job _ hst
    obtain ⟨patch, b₁, he', hp⟩ := patches_iff.mp hst
    cases he'
    generalize hφ : φ i = s at ha
    generalize hid : e.bookingId = id at ha
    cases ha with
    | cancel _ => cases hp
    | clear => cases hp
    | attach _ =>
        -- the row that the job goes by had no number
        rw [hid] at hsince hb
        have := (h.jobs i _ (by rw [hφ]; rfl) (h.creators i _ _ hφ) hsince b hb).2.2
        rw [hs.number] at this
        cases this
  have hclears : clears e.bookingId ⟨⟨o, r⟩, i⟩ = false := by
    refine Bool.eq_false_iff.mpr fun hcl => ?_
    have hsince := hun.reschedule _ hcl
    obtain ⟨patch, b₁, he', hp⟩ := patches_iff.mp hcl
    cases he'
    generalize hφ : φ i = s at ha
    generalize hid : e.bookingId = id at ha
    cases ha with
    | cancel _ => cases hp
    | attach _ => cases hp
    | @clear b₀ =>
        -- the number is the one of the event that has been deleted
        rw [hid] at hsince hb
        obtain ⟨n, hn, hne⟩ := h.deleters i b₀ hφ
        rcases h.reschedules i b₀ (by rw [hφ]; rfl) hsince b hb with hno | hno
        · rw [hs.number] at hno; cases hno
        · rw [hs.number, hn] at hno
          exact hne e he (Option.some.inj hno)
  have hnumber : b'.googleEventId = some e.id := by
    rw [exec_number ha hx hb hb' hstores, hclears, ← hs.number]; rfl
  by_cases hmv : moves e.bookingId ⟨⟨o, r⟩, i⟩
  · obtain ⟨tx, b₁, he', hw⟩ := moves_iff.mp hmv
    cases he'
    obtain ⟨b₀, hb₀, hb₁, hf⟩ := exec_move_ok hx hw
    cases hb₀.symm.trans hb
    cases hf.symm.trans hb'
    have hn : (φ i).next P ⟨.transaction tx, .ok b₁⟩ = .moved b₁.toBooking := by simp [Phase.next, hw]
    rw [hn, hb₁]
    exact .inr (.delete hm hnumber)
  · obtain ⟨hst, hen⟩ := exec_time hx hb hb' (by simpa using hmv)
    exact .inl ⟨hnumber, hs.startAt.trans hst.symm, hs.endAt.trans hen.symm⟩

/-- A created event goes on to be stored, and is stored in the end. -/
theorem Dated.fire_created {b : Booking} {b' : Booking} {e : CalendarEvent} (hφ : φ i = .created b e.id)
    (hid : e.bookingId = b.id) (hst : e.startAt = b.startAt) (hen : e.endAt = b.endAt)
    (hb' : w'.db.bookings.find e.bookingId = some b') :
    Stored b' e ∨ ((φ i).next P ⟨o, r⟩).Owes e := by
  obtain ⟨_, hstore, hun⟩ := hg
  rw [hφ] at ha ⊢
  cases o with
  | bookingUpdate id patch =>
      cases ha with
      | attach _ =>
          cases r with
          | error e => cases hstore
          | ok b₁ =>
              obtain ⟨b₀, hb₀, _, hf⟩ := exec_bookingUpdate_ok hx
              rw [hid] at hb'
              cases hf.symm.trans hb'
              have hsince := hun.job b.id (patches_iff.mpr ⟨_, b₁, rfl, rfl⟩)
              obtain ⟨hst', hen', _⟩ := h.jobs i b (by rw [hφ]; rfl) (h.creators i _ _ hφ) hsince b₀ hb₀
              exact .inl ⟨rfl, hst.trans hst'.symm, hen.trans hen'.symm⟩
  | bookingFindByManageToken | bookingFindUnique | transaction => cases ha
  | calendarInsert => obtain ⟨_, hb, _⟩ := ha; cases hb
  | calendarDelete => obtain ⟨_, hb | hb, _⟩ := ha <;> cases hb
  | _ => cases r <;> exact .inr (.store hid hst hen)

include hth

omit h in
theorem fire_moved {b : Booking} {e : CalendarEvent} (hφ : φ i = .moved b) (hl : b.location = .googleMeet)
    (hn : b.googleEventId = some e.id) : ((φ i).next P ⟨o, r⟩).Owes e ∨ e ∉ w'.calendar := by
  obtain ⟨hdel, _, _⟩ := hg
  rw [hφ] at ha ⊢
  cases o with
  | integrationFindUnique coachId =>
      have hc : connected P r = true := by simpa [deleteTakesEffect, hth, ha b rfl] using hdel
      simp only [Phase.next, hc]
      exact .inl (.delete hl hn)
  | calendarDelete coachId n =>
      obtain ⟨b', hb' | hb', hn'⟩ := ha <;> cases hb'
      rw [hn] at hn'; cases hn'
      rcases exec_calendarDelete hx with ⟨e', rfl, _⟩ | ⟨_, rfl⟩
      · cases hdel
      · exact .inr fun he => by simpa using (List.mem_filter.mp he).2
  | bookingUpdate => cases ha
  | bookingFindByManageToken | bookingFindUnique | transaction => cases ha
  | calendarInsert => obtain ⟨_, hb, _⟩ := ha; cases hb
  | _ => cases r <;> exact .inl (.delete hl hn)

theorem Dated.fire_old {e : CalendarEvent} (he : e ∈ c.world.calendar) (he' : e ∈ w'.calendar) :
    ∃ b, w'.db.bookings.find e.bookingId = some b ∧ b.location = .googleMeet ∧
      (Stored b e ∨ ∃ j, (Function.update φ i ((φ i).next P ⟨o, r⟩) j).Owes e) := by
  obtain ⟨b, hb, hl, hs⟩ := h.live e he
  obtain ⟨b', hb', hsame⟩ := exec_kept hx _ _ hb
  have owed : ((φ i).next P ⟨o, r⟩).Owes e → ∃ j, (Function.update φ i ((φ i).next P ⟨o, r⟩) j).Owes e :=
    fun ho => ⟨i, by rwa [Function.update_self]⟩
  refine ⟨b', hb', hsame.2.2.trans hl, ?_⟩
  rcases hs with hs | ⟨j, hj⟩
  · exact (h.fire_stored ha hx hg he hb hl hs hb').imp_right owed
  · by_cases hji : j = i
    · subst hji
      rcases hj.inv with ⟨b₀, hφ, hid, hst, hen⟩ | ⟨b₀, hφ, hl', hn⟩
      · exact (h.fire_created ha hx hg hφ hid hst hen hb').imp_right owed
      · rcases fire_moved ha hx hth hg hφ hl' hn with ho | hne
        · exact .inr (owed ho)
        · exact absurd he' hne
    · exact .inr ⟨j, by rwa [Function.update_of_ne hji]⟩

theorem Dated.fire_live : ∀ e ∈ w'.calendar, ∃ b, w'.db.bookings.find e.bookingId = some b ∧
    b.location = .googleMeet ∧
    (Stored b e ∨ ∃ j, (Function.update φ i ((φ i).next P ⟨o, r⟩) j).Owes e) := by
  intro e he
  have old := h.fire_old ha hx hth hg (e := e)
  cases ho : o.dates with
  | false => exact old (by rwa [(exec_calendar_frame ho hx).1] at he) he
  | true =>
      cases o with
      | calendarDelete =>
          refine old ?_ he
          rcases exec_calendarDelete hx with ⟨_, rfl, rfl⟩ | ⟨_, rfl⟩
          · exact he
          · exact (List.mem_filter.mp he).1
      | calendarInsert bookingId coachId input =>
          rcases exec_calendarInsert hx with ⟨_, rfl, rfl⟩ | ⟨⟨data, rfl, hid⟩, rfl⟩
          · exact old he he
          rcases List.mem_append.mp he with hmem | hnew
          · exact old hmem he
          -- the job that created the event is going to store it
          rw [List.mem_singleton] at hnew
          obtain ⟨b, hφ, rfl, hl, _, hst, hen⟩ := ha
          obtain ⟨b', hb', hsame⟩ := h.known i b (by rw [hφ]; rfl)
          obtain ⟨meet, hd⟩ := Option.isSome_iff_exists.mp (show data.result.isSome from hg.2.1)
          have hn : (φ i).next P ⟨.calendarInsert b.id coachId input, .ok data⟩ = .created b e.id := by
            rw [hφ, hnew, ← hid _ (InsertedEvent.result_id hd)]
            simp only [Phase.next, hd]
          refine ⟨b', by rw [hnew]; exact hb', hsame.2.2.trans hl, .inr ⟨i, ?_⟩⟩
          rw [Function.update_self, hn]
          exact .store (by rw [hnew]) (by rw [hnew]; exact hst) (by rw [hnew]; exact hen)
      | _ => cases ho

theorem Dated.fire : Dated w' (c.log ++ [⟨⟨o, r⟩, i⟩]) (Function.update φ i ((φ i).next P ⟨o, r⟩)) where
  known := h.known.fire hx
  numbered := h.numbered.fire ha hx
  linked := h.fire_linked ha hx
  creators := h.fire_creators ha hx
  deleters := h.fire_deleters ha hx hg.1
  jobs := h.fire_jobs ha hx
  reschedules := h.fire_reschedules ha hx
  live := h.fire_live ha hx hth hg

end Fire

/-! ## Runs -/

theorem Dated.of_bookings (h : Dated w log φ) (hb : w'.db.bookings = w.db.bookings)
    (hc : w'.calendar = w.calendar) (hn : w'.nextEventId = w.nextEventId) : Dated w' log φ where
  known := h.known.of_bookings hb
  numbered := by
    obtain ⟨h₁, h₂, h₃, h₄, h₅⟩ := h.numbered
    constructor <;> simp only [hb, hc, hn] <;> assumption
  linked := by rw [hb]; exact h.linked
  creators := h.creators
  deleters := by rw [hc]; exact h.deleters
  jobs := by rw [hb]; exact h.jobs
  reschedules := by rw [hb]; exact h.reschedules
  live := by rw [hc, hb]; exact h.live

theorem Dated.fresh (hw : w.Fresh) : Dated w [] fun _ => .idle where
  known := .start
  numbered := by
    refine ⟨by simp [hw.calendar], by simp [hw.calendar], ?_, by simp [Phase.row], by simp⟩
    rw [hw.bookings]; exact fun _ h => nomatch h
  linked := by rw [hw.bookings]; exact fun _ h => nomatch h
  creators := by simp
  deleters := by simp
  jobs := fun _ _ h => nomatch h
  reschedules := fun _ _ h => nomatch h
  live := by simp [hw.calendar]

theorem run_dated (hw : w.Fresh) (h : (bookingSystem P).Run (noMeetOverlap P) (.start w) c) :
    Dated c.world c.log (phases P c) := by
  refine bookingRun_tracked .refl h (.fresh hw) (fun _ _ _ _ hd => hd.of_bookings rfl rfl rfl)
    (fun d _ _ _ hd => hd.of_bookings d.apply_bookings ?_ ?_)
    fun c i call o k ch r w' hd hth ha hx hg => hd.fire ha hx hth hg
  · cases d <;> rfl
  · cases d <;> rfl

end CoachingCalendar
