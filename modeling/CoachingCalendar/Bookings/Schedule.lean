import CoachingCalendar.Bookings.Lemmas.Reading
import CoachingCalendar.Slots.Theorems

/-! # Bookings and the schedule they are committed against -/

namespace CoachingCalendar
open Lib Lib.System

variable {P : Platform} {admits : Statement → Prop} {w : World} {c : BookingConfig} {i : Nat} {tx : SlotTransaction}
variable {d : Db}

/-- A row of the weekly schedule or an override is created, updated or removed. -/
def Statement.editsAvailability : Statement → Prop
  | .weeklyCreate _ _ | .weeklyUpdate _ _ | .weeklyDelete _ => True
  | .overrideCreate _ _ | .overrideUpdate _ _ | .overrideDelete _ => True
  | _ => False

/-- An effective range of the date holds the interval, as `isWithinEffectiveRange` measures it. -/
def InEffectiveRange (P : Platform) (Z : Zone) (d : Db) (tx : SlotTransaction) : Prop :=
  ∃ r ∈ effectiveRanges P Z d tx.coachId (Z.date tx.startAt),
    r.contains (candidate P.luxon Z tx.startAt tx.endAt) = true

/-- When the offset at the end is the one that the start of the day was resolved with, the measure is the local
clock. -/
theorem InEffectiveRange.insideHours {Z : Zone} (h : InEffectiveRange P Z d tx)
    (hday : Z.date tx.startAt = Z.date tx.endAt) (hoff : Z.offset tx.endAt * msPerMinute =
      midnight (Z.date tx.startAt) - P.luxon.startOfDay Z tx.startAt) :
    InsideHours (effectiveRanges P Z d tx.coachId (Z.date tx.startAt)) Z tx.startAt tx.endAt := by
  obtain ⟨r, hr, hc⟩ := h
  obtain ⟨hstart, hend⟩ := candidate_within.mp hc
  have hclock : Z.clock tx.endAt = tx.endAt + Z.offset tx.endAt * msPerMinute - midnight (Z.date tx.startAt) := by
    have := Z.wall_eq tx.endAt
    rw [hday]; unfold Zone.wall at this; omega
  exact ⟨r, hr, hstart, by omega⟩

instance (Z : Zone) : Decidable (InEffectiveRange P Z d tx) := inferInstanceAs (Decidable (∃ r ∈ _, _))

/-- A call commits a booking by the settings of the coach that it has read. When the snapshot of the transaction has
the rows that the lookups of the attempt have found, the interval is in an effective range of the snapshot. -/
theorem booking_respects_schedule (h : CommitsAt P admits w c i tx d) :
    ∃ settings, (c.reading i).settings = some settings ∧ settings.coachId = tx.coachId ∧
      ((∀ e ∈ (c.reading i).attempt, d.answers e) →
        InEffectiveRange P (P.luxon.zone settings.businessTimezone) d tx ∧
        ((P.luxon.zone settings.businessTimezone).offset tx.endAt * msPerMinute =
            midnight ((P.luxon.zone settings.businessTimezone).date tx.startAt) -
              P.luxon.startOfDay (P.luxon.zone settings.businessTimezone) tx.startAt →
          InsideHours (effectiveRanges P (P.luxon.zone settings.businessTimezone) d tx.coachId
              ((P.luxon.zone settings.businessTimezone).date tx.startAt))
            (P.luxon.zone settings.businessTimezone) tx.startAt tx.endAt)) := by
  obtain ⟨call, k, hi⟩ := h.thread
  obtain ⟨-, settings, hclear⟩ := (Reading.run_follows h.run hi).1
  refine ⟨settings, hclear.read, hclear.coachId, fun hsame => ?_⟩
  have hin : InEffectiveRange P (P.luxon.zone settings.businessTimezone) d tx := hclear.within d hsame
  exact ⟨hin, hin.insideHours hclear.sameDay⟩

/-! ## One request -/

/-- The operation that a call issues next. -/
def issuing : BookingThread → Option Op
  | ⟨_, .op o _⟩ => some o
  | _ => none

theorem of_issuing {th : BookingThread} {o : Op} (h : issuing th = some o) : ∃ call k, th = ⟨call, .op o k⟩ := by
  obtain ⟨call, p⟩ := th
  cases p with
  | op o' k =>
      obtain rfl : o' = o := Option.some.inj h
      exact ⟨call, k, rfl⟩
  | _ => cases h

/-- The transaction of the sample request. -/
def SlotTransaction.sample : SlotTransaction := CreateBookingDto.sample.transaction none .sample 1773046800000

/-- Call `0` is the sample request and has made its checks. -/
def checkSample : List (Move Choice Call (Change Statement.editsAvailability)) :=
  [.spawn (.create .sample none)] ++ List.replicate 6 (.fire 0 {})

def committing (c : BookingConfig) : Bool :=
  c.threads[0]?.any (fun th => issuing th = some (.transaction .sample)) &&
    (exec c.world (.transaction .sample) { newId := "b1", newToken := "t1" }).1.isOk

theorem commits_of_play (ms : List (Move Choice Call (Change Statement.editsAvailability))) (p : BookingConfig → Bool)
    (h : ((calendarSystem .sample Statement.editsAvailability).play .any ms (.start .sample)).any
      (fun c => committing c && p c) = true) :
    ∃ c, CommitsAt .sample Statement.editsAvailability .sample c 0 .sample c.world.db ∧ p c = true := by
  obtain ⟨c, hc, hp⟩ := run_of_play _ _ h
  rw [Bool.and_eq_true, committing, Bool.and_eq_true] at hp
  obtain ⟨⟨hth, hok⟩, hp⟩ := hp
  obtain ⟨th, hi, hth⟩ := (Option.any_eq_true _ _).mp hth
  obtain ⟨call, k, rfl⟩ := of_issuing (of_decide_eq_true hth)
  refine ⟨c, ⟨hc, ⟨call, k, hi⟩, { newId := "b1", newToken := "t1" }, ?_⟩, hp⟩
  generalize exec c.world (.transaction .sample) { newId := "b1", newToken := "t1" } = x at hok
  obtain ⟨_ | b, w'⟩ := x
  · cases hok
  · exact ⟨b, w', rfl, rfl⟩

/-- Nobody edits the schedule meanwhile. -/
theorem booking_respects_schedule_undisturbed :
    ∃ c, CommitsAt .sample Statement.editsAvailability .sample c 0 .sample c.world.db ∧
      InEffectiveRange .sample (Platform.sample.luxon.zone "Europe/Budapest") c.world.db .sample := by
  obtain ⟨c, h, hp⟩ := commits_of_play checkSample (fun c =>
    (c.reading 0).attempt.all c.world.db.answers && (c.reading 0).settings = some { coachId := "c1" }) (by decide)
  rw [Bool.and_eq_true, decide_eq_true_eq] at hp
  obtain ⟨settings, hs, -, hin⟩ := booking_respects_schedule h
  cases hs.symm.trans hp.2
  exact ⟨c, h, (hin (List.all_eq_true.mp hp.1)).1⟩

/-- The coach takes the day off after the check has looked and before the transaction. -/
theorem booking_on_a_day_off : ¬ ∀ (P : Platform) (w : World) (c : BookingConfig) (i : Nat) (tx : SlotTransaction)
    (d : Db), CommitsAt P Statement.editsAvailability w c i tx d →
    ∃ settings, (c.reading i).settings = some settings ∧
      InEffectiveRange P (P.luxon.zone settings.businessTimezone) d tx := by
  intro hall
  obtain ⟨c, h, hp⟩ := commits_of_play (checkSample ++ [.drift (.edit
    { statement := .overrideCreate "c1" ⟨20521, true, none, none⟩, newId := "o1", admitted := trivial })])
    (fun c => !decide (InEffectiveRange .sample ⟨fun _ => 60⟩ c.world.db .sample)) (by decide)
  obtain ⟨timezone, -, hin⟩ := hall _ _ _ _ _ _ h
  rw [Bool.not_eq_true', decide_eq_false_iff_not] at hp
  exact hp hin

end CoachingCalendar
