import CoachingCalendar.Bookings.Requests
import CoachingCalendar.Slots.Theorems

/-!
# The zone of the server

What the two requests that name a time do with the same string on servers in different zones.
-/

namespace CoachingCalendar
open Lib Lib.Prog

/-- The same program on a server in another zone. -/
def Platform.on (P : Platform) (Z : Zone) : Platform := { P with luxon := { P.luxon with systemZone := Z } }

/-! ## Strings -/

/-- After the `T` or the blank comes an offset. -/
def hasOffset (s : String) : Bool :=
  (s.toList.dropWhile fun c => c ≠ 'T' && c ≠ ' ').any fun c => c = 'Z' || c = 'z' || c = '+' || c = '-'

/-- How luxon reads the strings that the DTOs admit, and two things about UTC. -/
structure Luxon.ReadsIso (L : Luxon) (isISO8601 : String → Bool) : Prop where
  /-- An offset in the string decides its instant. -/
  offset : ∀ s, isISO8601 s = true → hasOffset s = true → ∀ Z Z', L.fromISO Z s = L.fromISO Z' s
  /-- Without one the string is a local time, or not valid in any zone. -/
  plain : ∀ s, isISO8601 s = true → hasOffset s = false →
    (∀ Z, L.fromISO Z s = none) ∨
      ∃ localTS, ∀ minutes, L.fromISO ⟨fun _ => minutes⟩ s = some (localTS - minutes * msPerMinute)
  utc : L.zone "UTC" = ⟨fun _ => 0⟩
  resolve : ∀ localTS, L.resolve ⟨fun _ => 0⟩ 0 localTS = localTS

/-! ## Outcomes -/

abbrev RequestOutcome := Prog.Outcome World Ans Failure (Option BookingWithRelations)

def RequestOutcome.Rejects (out : RequestOutcome) : Prop := ∃ e, out.result = .error e

/-- The call returns the booking, and the table has it. -/
def RequestOutcome.Stores (out : RequestOutcome) (b : BookingWithRelations) : Prop :=
  out.result = .ok (some b) ∧ out.world.db.bookings.find b.id = some b.toBooking

/-- Both reject, or both store the same times. -/
def RequestOutcome.Agrees (out₁ out₂ : RequestOutcome) : Prop :=
  out₁.Rejects ∧ out₂.Rejects ∨
  ∃ b₁ b₂, out₁.Stores b₁ ∧ out₂.Stores b₂ ∧ b₁.startAt = b₂.startAt ∧ b₁.endAt = b₂.endAt

/-- The calls that ask for `s` do not depend on the zone of the server: the start is read off the string and the
time zone of the coach. -/
structure ServerZoneFree (P : Platform) (s : String) : Prop where
  agrees : ∀ (Z₁ Z₂ : Zone) (call : Call) (w : World) (env : Trace → Choice), call.requestedStart = some s →
    RequestOutcome.Agrees ((call.body (P.on Z₁)).run exec env w []) ((call.body (P.on Z₂)).run exec env w [])
  determined : ∃ instant : String → Int, ∀ (Z : Zone) (call : Call) (w : World) (env : Trace → Choice)
    (b : BookingWithRelations) (settings : Settings), call.requestedStart = some s →
    RequestOutcome.Stores ((call.body (P.on Z)).run exec env w []) b →
    ((call.body (P.on Z)).run exec env w []).world.db.settings.find b.coachId = some settings →
    b.startAt = instant settings.businessTimezone

variable {P : Platform} {s : String} {isISO8601 : String → Bool}

/-! ## One zone -/

section Request

variable {call : Call} {w : World} {env : Trace → Choice}

theorem Call.isRequest_of_start (h : call.requestedStart = some s) : call.isRequest = true := by
  cases call <;> first | rfl | cases h

theorem request_ends (h : call.requestedStart = some s) :
    RequestOutcome.Rejects ((call.body P).run exec env w []) ∨ ∃ b,
      RequestOutcome.Stores ((call.body P).run exec env w []) b := by
  have hdone := fun x => @Call.body_done P call (Call.isRequest_of_start h) w env x
  generalize (call.body P).run exec env w [] = out at hdone
  obtain ⟨e | x, w', t⟩ := out
  · exact .inl ⟨e, rfl⟩
  · obtain ⟨b, rfl, hd⟩ := hdone x rfl
    exact .inr ⟨b, rfl, hd.change.row⟩

end Request

/-! ## Two zones -/

section Read

variable {Z₁ Z₂ : Zone} (hread : P.luxon.fromISO Z₁ s = P.luxon.fromISO Z₂ s)
include hread

theorem parseStartAt_on : parseStartAt (P.on Z₁) s = parseStartAt (P.on Z₂) s := by
  funext locale
  unfold parseStartAt
  rw [show (P.on Z₁).luxon.fromISO (P.on Z₁).luxon.systemZone s = _ from hread]
  rfl

theorem body_on {call : Call} (h : call.requestedStart = some s) : call.body (P.on Z₁) = call.body (P.on Z₂) := by
  cases call with
  | create dto originUrl =>
      cases h
      have hcreate : BookingsService.create (P.on Z₁) dto originUrl = BookingsService.create (P.on Z₂) dto originUrl := by
        unfold BookingsService.create
        rw [parseStartAt_on hread]
        rfl
      simp only [Call.body, hcreate]
  | rescheduleByClient token newStartAt =>
      cases h
      have hmove : BookingsService.rescheduleByClient (P.on Z₁) token s =
          BookingsService.rescheduleByClient (P.on Z₂) token s := by
        unfold BookingsService.rescheduleByClient
        rw [parseStartAt_on hread]
        rfl
      simp only [Call.body, hmove]
  | _ => cases h

end Read

theorem serverZoneFree_of_read (h : ∀ Z Z', P.luxon.fromISO Z s = P.luxon.fromISO Z' s) : ServerZoneFree P s where
  agrees Z₁ Z₂ call w env hasks := by
    rw [body_on (h Z₁ Z₂) hasks]
    rcases request_ends hasks with hr | ⟨b, hb⟩
    · exact .inl ⟨hr, hr⟩
    · exact .inr ⟨b, b, hb, hb, rfl, rfl⟩
  determined := by
    refine ⟨fun _ => (P.luxon.fromISO P.luxon.systemZone s).getD 0, fun Z call w env b settings hasks hb _ => ?_⟩
    have hread : P.luxon.fromISO Z s = some b.startAt := (stores_requestedStart hasks hb.1).2
    rw [h _ Z, hread]
    rfl

/-! ## A coach in UTC -/

/-- The coach is bookable on the whole day of `t`. -/
def World.openInUtc (t : Int) : World :=
  { db := { (World.withRange "c1" (t / msPerDay) 0 1440).db with
      settings := ⟨[{ coachId := "c1", businessTimezone := "UTC" }], List.nodup_singleton _⟩ }
    clock := t }

theorem World.openInUtc_calm (t : Int) : Choice.Calm {} (World.openInUtc t) where
  fault := rfl
  snapshot := rfl
  newId := rfl
  newToken _ hb := absurd hb Table.not_mem_empty

theorem books_hour {L : Luxon} (hP : P.luxon = L) (hutc : L.zone "UTC" = ⟨fun _ => 0⟩)
    (hresolve : ∀ localTS, L.resolve ⟨fun _ => 0⟩ 0 localTS = localTS) {t : Int}
    (hread : L.fromISO L.systemZone s = some t) (hroom : t % msPerDay + 60 * msPerMinute < msPerDay) :
    ¬ RequestOutcome.Rejects ((Call.body P (.create { CreateBookingDto.sample with startAt := s } none)).run exec
      (fun _ => {}) (World.openInUtc t) []) := by
  subst hP
  have hwall : ∀ x, (Zone.mk fun _ => 0).wall x = x := fun x => by simp [Zone.wall]
  have hdiv := Int.mul_ediv_add_emod t msPerDay
  -- what the call finds
  let dto := { CreateBookingDto.sample with startAt := s }
  have htype : (World.openInUtc t).db.eventTypes.find dto.eventTypeId = some .sample := rfl
  have hloc : dto.location ∈ EventType.sample.locations := by
    change LocationType.googleMeet ∈ _
    decide
  have hsettings : (World.openInUtc t).db.settingsOf EventType.sample.coachId =
      some { coachId := "c1", businessTimezone := "UTC" } := rfl
  -- the hour is in the day
  have hday : (P.luxon.zone "UTC").date t =
      (P.luxon.zone "UTC").date (t + EventType.sample.durationMinutes * msPerMinute) := by
    rw [hutc]
    simp only [Zone.date, hwall, EventType.sample]
    unfold msPerDay msPerMinute at *
    omega
  have hfree : Bookable P (P.luxon.zone "UTC") (World.openInUtc t).db (dto.transaction none .sample t) := by
    rw [hutc]
    refine ⟨⟨⟨0, 1440⟩, ?_, ?_, ?_⟩, fun b hb => absurd hb Table.not_mem_empty⟩
    · simp [effectiveRanges, World.openInUtc, World.withRange, Table.findMany, overrideRanges,
        AvailabilityOverride.range, CreateBookingDto.transaction, EventType.sample, Zone.date, hwall]
    · simpa [CreateBookingDto.transaction] using Zone.clock_nonneg _ _
    · simp only [CreateBookingDto.transaction, Luxon.startOfDay, hresolve, midnight, Zone.date, hwall, EventType.sample]
      unfold msPerDay msPerMinute at *
      omega
  obtain ⟨b, w', hr, -⟩ := create_succeeds none htype rfl hloc hsettings hread (Int.le_refl t)
    (World.openInUtc_calm t) hday hfree
  have hbody : Runs exec (fun _ => {}) (Call.body P (.create dto none)) (World.openInUtc t) (.ok (some b)) w' :=
    hr.bind .pure
  rintro ⟨e, he⟩
  cases (hbody []).1.symm.trans he

/-! ## Theorem -/

/-- The server's zone plays no part exactly when the string has an offset, or is valid nowhere. -/
theorem serverZoneFree_iff (hL : P.luxon.ReadsIso isISO8601) (hs : isISO8601 s = true) :
    ServerZoneFree P s ↔ hasOffset s = true ∨ ∀ Z, P.luxon.fromISO Z s = none := by
  constructor
  · intro hfree
    by_contra hno
    push Not at hno
    obtain ⟨hoff, Z, hvalid⟩ := hno
    obtain hnone | ⟨localTS, hlocal⟩ := hL.plain s hs (by simpa using hoff)
    · exact hvalid (hnone Z)
    -- a server an hour further ahead reads it an hour earlier
    obtain ⟨minutes, hroom⟩ : ∃ minutes : Int,
        (localTS - minutes * msPerMinute) % msPerDay + 60 * msPerMinute < msPerDay := by
      by_cases h : localTS % msPerDay + 60 * msPerMinute < msPerDay
      · exact ⟨0, by simpa using h⟩
      · refine ⟨60, ?_⟩
        unfold msPerDay msPerMinute at *
        omega
    let call := Call.create { CreateBookingDto.sample with startAt := s } none
    have hbooks := @books_hour (P.on ⟨fun _ => minutes⟩) s _ rfl hL.utc hL.resolve _ (hlocal minutes) hroom
    rcases hfree.agrees ⟨fun _ => minutes⟩ ⟨fun _ => minutes + 60⟩ call _ _ rfl with
      ⟨hr, -⟩ | ⟨b₁, b₂, h₁, h₂, hstart, -⟩
    · exact hbooks hr
    · have hread₁ := (hlocal minutes).symm.trans ((stores_requestedStart rfl h₁.1).2)
      have hread₂ := (hlocal (minutes + 60)).symm.trans ((stores_requestedStart rfl h₂.1).2)
      rw [hstart, ← hread₂, Option.some.injEq] at hread₁
      unfold msPerMinute at hread₁
      omega
  · rintro (hoff | hnone)
    · exact serverZoneFree_of_read (hL.offset s hs hoff)
    · exact serverZoneFree_of_read fun Z Z' => (hnone Z).trans (hnone Z').symm

/-! ### Two strings -/

/-- The sample platform, for a time with an offset and the same time without one. -/
def Platform.iso : Platform :=
  { Platform.sample with luxon := { Platform.sample.luxon with
      zone := fun name => if name = "UTC" then ⟨fun _ => 0⟩ else ⟨fun _ => 60⟩
      fromISO := fun Z s =>
        if s = "2026-03-09T09:00:00Z" then some 1773046800000
        else if s = "2026-03-09T09:00:00" then some (fixOffset Z (Z.offset 1773046800000) 1773046800000)
        else none } }

theorem Platform.iso_reads : Platform.iso.luxon.ReadsIso
    fun s => s = "2026-03-09T09:00:00Z" || s = "2026-03-09T09:00:00" where
  offset s hs hoff Z Z' := by
    rcases Bool.or_eq_true _ _ ▸ hs with h | h <;> obtain rfl := of_decide_eq_true h
    · rfl
    · exact absurd hoff (by decide)
  plain s hs hoff := by
    rcases Bool.or_eq_true _ _ ▸ hs with h | h <;> obtain rfl := of_decide_eq_true h
    · exact absurd hoff (by decide)
    · exact .inr ⟨1773046800000, fun minutes => by simp [Platform.iso, fixOffset]⟩
  utc := rfl
  resolve localTS := by simp [Platform.iso, Platform.sample, Luxon.sample, fixOffset]

theorem serverZoneFree_iff_utc : ServerZoneFree .iso "2026-03-09T09:00:00Z" :=
  (serverZoneFree_iff Platform.iso_reads (by decide)).mpr (.inl (by decide))

/-- 09:00 without an offset is one instant in London and another in Budapest. -/
theorem server_zone_decides : ¬ ∀ (P : Platform) (isISO8601 : String → Bool) (s : String),
    P.luxon.ReadsIso isISO8601 → isISO8601 s = true → ServerZoneFree P s := by
  intro hall
  have hfree := hall _ _ "2026-03-09T09:00:00" Platform.iso_reads (by decide)
  have hbooks := @books_hour (Platform.iso.on ⟨fun _ => 0⟩) "2026-03-09T09:00:00" _ rfl Platform.iso_reads.utc
    Platform.iso_reads.resolve 1773046800000 rfl (by decide)
  rcases hfree.agrees ⟨fun _ => 0⟩ ⟨fun _ => 60⟩
    (.create { CreateBookingDto.sample with startAt := "2026-03-09T09:00:00" } none) _ _ rfl with
    ⟨hr, -⟩ | ⟨b₁, b₂, h₁, h₂, hstart, -⟩
  · exact hbooks hr
  · have hread₁ : some 1773046800000 = some b₁.startAt :=
      (@stores_requestedStart _ _ "2026-03-09T09:00:00" rfl _ _ _ h₁.1).2
    have hread₂ : some 1773043200000 = some b₂.startAt :=
      (@stores_requestedStart _ _ "2026-03-09T09:00:00" rfl _ _ _ h₂.1).2
    rw [hstart, ← hread₂] at hread₁
    revert hread₁
    decide

end CoachingCalendar
