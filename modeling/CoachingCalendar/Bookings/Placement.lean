import CoachingCalendar.Bookings.Lemmas.Exclusive
import CoachingCalendar.Bookings.Lemmas.Reading
import CoachingCalendar.Bookings.WellFormed

/-!
# Where a booking was placed

A booking gets its time in a transaction, from a call that has read the settings of the coach. At that time it lies on
one date of the coach's timezone.
-/

namespace CoachingCalendar
open Lib Lib.System

/-- The booking whose time an entry has set. -/
def bookingPlaced : BookingEntry → Option String
  | ⟨⟨.transaction _, .ok b⟩, _⟩ => some b.id
  | _ => none

/-- The last entry that has set the time of a booking. -/
def lastPlacing (log : List BookingEntry) (id : String) : Option BookingEntry :=
  log.reverse.find? fun e => bookingPlaced e = some id

/-- The settings by which the booking got its present time. -/
def BookingConfig.placement (c : BookingConfig) (id : String) : Option Settings :=
  (lastPlacing c.log id).bind fun e => (c.reading e.tid).placed

variable {P : Platform} {admits : Statement → Prop} {w w' : World} {c : BookingConfig} {G : BookingGuard}
variable {o : Op} {ch : Choice} {r : Except Failure (Ans o)} {i : Nat}

/-- The booking got its time by settings of its coach, on one date of their timezone. -/
def PlacedBy (P : Platform) (b : Booking) (settings : Settings) : Prop :=
  settings.coachId = b.coachId ∧ (P.luxon.zone settings.businessTimezone).date b.startAt =
    (P.luxon.zone settings.businessTimezone).date b.endAt

theorem PlacedBy.of_same {b b' : Booking} {settings : Settings} (h : PlacedBy P b settings)
    (hco : b'.coachId = b.coachId) (hs : b'.startAt = b.startAt) (he : b'.endAt = b.endAt) : PlacedBy P b' settings := by
  unfold PlacedBy
  rw [hco, hs, he]
  exact h

/-! ## One operation -/

theorem lastPlacing_append (log : List BookingEntry) (e : BookingEntry) (id : String) :
    lastPlacing (log ++ [e]) id = if bookingPlaced e = some id then some e else lastPlacing log id := by
  unfold lastPlacing
  rw [List.reverse_append, List.reverse_singleton, List.singleton_append, List.find?_cons]
  split <;> simp_all

theorem bookingPlaced_some {id : String} (h : bookingPlaced ⟨⟨o, r⟩, i⟩ = some id) :
    ∃ tx b, (⟨o, r⟩ : Event Ans Failure) = ⟨.transaction tx, .ok b⟩ ∧ b.id = id := by
  unfold bookingPlaced at h
  split at h
  · rename_i he
    cases he
    cases h
    exact ⟨_, _, rfl, rfl⟩
  · cases h

theorem Committed.time {s : Phase} {tx : SlotTransaction} {b : BookingWithRelations} (h : Committed w tx b w')
    (ha : TransactionAllowed s tx)
    (hrow : ∀ b, s.row = some b → ∃ b', w.db.bookings.find b.id = some b' ∧ SameRow b b') :
    b.coachId = tx.coachId ∧ b.startAt = tx.startAt ∧ b.endAt = tx.endAt := by
  cases h with
  | create hw _ =>
      cases ha with
      | create hw' hco hs he _ =>
          cases hw.symm.trans hw'
          exact ⟨hco.symm, hs.symm, he.symm⟩
      | move hw' _ _ _ => cases hw.symm.trans hw'
  | move hw hb =>
      cases ha with
      | create hw' _ _ _ _ => cases hw.symm.trans hw'
      | @move _ row hw' hco _ _ =>
          cases hw.symm.trans hw'
          -- the row in the table is of the coach of the row that the call read
          obtain ⟨b', hf, hsame⟩ := hrow row rfl
          cases hb.symm.trans hf
          exact ⟨hsame.2.1.trans hco.symm, rfl, rfl⟩

theorem exec_placed {b : Booking} (hx : exec w o ch = (r, w')) (hb : b ∈ w'.db.bookings) :
    (∃ tx b₁, (⟨o, r⟩ : Event Ans Failure) = ⟨.transaction tx, .ok b₁⟩ ∧ b₁.toBooking = b) ∨
      bookingPlaced ⟨⟨o, r⟩, i⟩ ≠ some b.id ∧ ∃ b₀ ∈ w.db.bookings, b₀.id = b.id ∧ b.coachId = b₀.coachId ∧
        b.startAt = b₀.startAt ∧ b.endAt = b₀.endAt := by
  have hf := Table.find_some.mpr ⟨hb, rfl⟩
  by_cases hp : bookingPlaced ⟨⟨o, r⟩, i⟩ = some b.id
  · obtain ⟨tx, b₁, he, hid⟩ := bookingPlaced_some hp
    cases he
    rcases exec_transaction hx with ⟨e, he, _⟩ | ⟨d, _, _, b', he, hc⟩
    · cases he
    · cases he
      exact .inl ⟨tx, b₁, rfl, Option.some.inj ((hid ▸ hc.find).symm.trans hf)⟩
  · refine .inr ⟨hp, ?_⟩
    rcases exec_new (i := i) hx hb with ⟨b₀, hb₀, hid⟩ | hnew
    · refine ⟨b₀, hb₀, hid, ?_⟩
      rcases exec_row hx (Table.find_some.mpr ⟨hb₀, hid⟩) with hf' | ⟨patch, b₁, _, hf'⟩ | ⟨tx, b₁, he, hw, hf'⟩
      · cases hf.symm.trans hf'
        exact ⟨rfl, rfl, rfl⟩
      · cases hf.symm.trans hf'
        exact ⟨rfl, rfl, rfl⟩
      · cases he
        obtain ⟨b', hf₀, hb', -⟩ := exec_move_ok hx hw
        have hid : b'.id = b.id := Table.find_key hf₀
        exact absurd (congrArg some ((congrArg Booking.id hb').trans hid)) hp
    · obtain ⟨tx, data, manageToken, rfl, hw, _⟩ := exec_bookingCreated hx hnew
      cases r with
      | error e => cases hnew
      | ok b₁ =>
          refine absurd ?_ hp
          simpa [bookingCreated, bookingPlaced, hw] using hnew

theorem Reading.next_placed (s : Reading) (e : Event Ans Failure) :
    (∃ tx b, e = ⟨.transaction tx, .ok b⟩) ∨ (s.next e).placed = s.placed := by
  unfold Reading.next
  split
  · exact .inl ⟨_, _, rfl⟩
  · exact .inr rfl
  · exact .inr rfl

/-! ## Runs -/

theorem reading_fire (w' : World) (ths : List BookingThread) (e : Event Ans Failure) (i j : Nat) :
    BookingConfig.reading ⟨w', ths, c.log ++ [⟨e, i⟩]⟩ j = if j = i then (c.reading i).next e else c.reading j := by
  have h := congrFun (phase_fire (c := c) Reading.next {} w' ths e i) j
  rw [Function.update_apply] at h
  exact h

/-- What has been placed stays placed by the same settings, as long as it is not placed again. -/
theorem placement_fire {w' : World} {ths : List BookingThread} {e : Event Ans Failure} {id : String}
    (hp : bookingPlaced ⟨e, i⟩ ≠ some id) (honce : ∀ tx b, e = ⟨.transaction tx, .ok b⟩ → (c.reading i).placed = none)
    {settings : Settings} (h : c.placement id = some settings) :
    BookingConfig.placement ⟨w', ths, c.log ++ [⟨e, i⟩]⟩ id = some settings := by
  obtain ⟨l, hl, hs⟩ := Option.bind_eq_some_iff.mp h
  refine Option.bind_eq_some_iff.mpr ⟨l, by rw [lastPlacing_append, if_neg hp, hl], ?_⟩
  rw [reading_fire]
  split
  · rename_i hi
    rw [hi] at hs
    rcases (c.reading i).next_placed e with ⟨tx, b, he⟩ | hn
    · rw [honce tx b he] at hs
      cases hs
    · rw [hn, hs]
  · exact hs

/-- Every booking was placed by settings of its coach. -/
theorem run_placed (hw : w.Fresh) (h : (calendarSystem P admits).Run G (.start w) c) :
    ∀ b ∈ c.world.db.bookings, ∃ settings, c.placement b.id = some settings ∧ PlacedBy P b settings := by
  induction h with
  | refl =>
      intro b hb
      change b ∈ w.db.bookings at hb
      rw [hw.bookings] at hb
      exact absurd hb Table.not_mem_empty
  | @tail c c' hrun hs ih =>
      cases hs with
      | spawn _ ha =>
          obtain ⟨jobs, rfl⟩ := Call.accept_jobs ha
          exact ih
      | drift d =>
          intro b hb
          exact ih b (d.apply_bookings c.world ▸ hb)
      | @fire i call o k ch r w' hi hx hg =>
          intro b hb
          have hreads := (Reading.run_follows hrun hi).1
          rcases exec_placed (i := i) hx hb with ⟨tx, b₁, he, rfl⟩ | ⟨hp, b₀, hb₀, hid, hco, hstart, hend⟩
          · cases he
            obtain ⟨-, settings, hclear⟩ := hreads
            have hallowed := (bookingRun_follows (run_of_changes hrun) hi).1
            obtain ⟨-, hknown⟩ := run_represents hw (run_of_changes hrun)
            rcases exec_transaction hx with ⟨e, he, _⟩ | ⟨d, _, _, b', he, hc⟩
            · cases he
            · cases he
              obtain ⟨hco, hstart, hend⟩ := hc.time hallowed (hknown i)
              refine ⟨settings, ?_, ?_⟩
              · have hlast := (lastPlacing_append c.log ⟨⟨.transaction tx, .ok b₁⟩, i⟩ b₁.id).trans (if_pos rfl)
                refine Option.bind_eq_some_iff.mpr ⟨_, hlast, ?_⟩
                rw [reading_fire, if_pos rfl]
                exact hclear.read
              · exact ⟨hclear.coachId.trans hco.symm, by rw [hstart, hend]; exact hclear.sameDay⟩
          · obtain ⟨settings, hpl, hby⟩ := ih b₀ hb₀
            refine ⟨settings, placement_fire hp (fun tx b he => ?_) (hid ▸ hpl), hby.of_same hco hstart hend⟩
            cases he
            exact hreads.1

end CoachingCalendar
