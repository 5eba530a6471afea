import CoachingCalendar.Dashboard.Lemmas.Catalogue
import CoachingCalendar.Dashboard.Lemmas.Isolation
import CoachingCalendar.Dashboard.Lemmas.Patch
import CoachingCalendar.Dashboard.Lemmas.Usable

/-! # What holds of the requests of coaches -/

namespace CoachingCalendar.Dashboard
open Lib Lib.Prog Lib.System

variable {P : Platform} {toDateOnly : String → Option Int} {w : World} {c : DashboardConfig}

/-! ## Usable ranges -/

theorem noNullMinute_of_usable {overrides : List AvailabilityOverride} (h : ∀ o ∈ overrides, o.Usable) :
    NoNullMinute overrides := by
  intro range hr
  unfold overrideRanges at hr
  split at hr
  · cases hr
  · rename_i hu
    obtain ⟨o, ho, rfl⟩ := List.mem_map.mp hr
    refine ⟨o, ho, ?_⟩
    cases h o ho with
    | off hoff _ _ => exact (hu (List.any_eq_true.mpr ⟨o, ho, hoff⟩)).elim
    | range _ hs he _ => simp [AvailabilityOverride.range, hs, he]

/-- However requests with admitted bodies interleave, every weekly row and every override is usable, and neither
lookup of effective ranges takes a minute from a null. -/
theorem availability_usable (hw : w.db.Usable) (h : (dashboardSystem P toDateOnly).Run .any (.start w) c) :
    c.world.db.Usable ∧
    (∀ coachId isoDate, NoNullMinute (c.world.db.overrides.findMany fun o => o.coachId = coachId && o.date = isoDate)) ∧
    ∀ coachId fromIsoDate toIsoDate isoDate, NoNullMinute ((overridesByDate (c.world.db.overrides.findMany fun o =>
      o.coachId = coachId && fromIsoDate ≤ o.date && o.date ≤ toIsoDate) isoDate).getD []) := by
  have hbody : ∀ (call : Call) (w w' : World), (dashboardSystem P toDateOnly).accept call w = some w' →
      ((dashboardSystem P toDateOnly).body call).Follows usable (fun _ _ => True) () := by
    intro call w w' ha
    change (if _ then _ else _) = _ at ha
    split at ha
    · exact Request.body_usable ‹_›
    · cases ha
  have hdb : c.world.db.Usable := by
    refine h.assumed (J := fun w => w.db.Usable) (R := fun _ => usable) hw hbody (fun _ w o ch hJ => exec_answers hJ)
      (fun call w w' hJ ha => ?_) (fun d w hJ => ?_) fun _ _ w o ch hJ ho => exec_usable hJ ho
    · change (if _ then _ else _) = _ at ha
      split at ha <;> cases ha
      exact hJ
    · cases d with
      | tick _ => exact hJ
      | edit _ => exact ⟨hJ.weekly, hJ.override⟩
  refine ⟨hdb, fun coachId isoDate => ?_, fun coachId fromIsoDate toIsoDate isoDate => ?_⟩
  · exact noNullMinute_of_usable fun o ho => hdb.override o (Table.mem_findMany.mp ho).1
  · rw [overridesByDate_getD]
    exact noNullMinute_of_usable fun o ho => hdb.override o (Table.mem_findMany.mp (List.mem_filter.mp ho).1).1

theorem World.sample_usable : CoachingCalendar.World.sample.db.Usable where
  weekly r hr := by
    obtain rfl | rfl : r = ⟨"w1", "c1", 1, 540, 1020⟩ ∨ r = ⟨"w2", "c1", 2, 540, 1020⟩ := by
      simpa [CoachingCalendar.World.sample, Db.sample, ← Table.mem_rows] using hr
    all_goals exact ⟨by decide, by decide, by decide, by decide⟩
  override _ ho := absurd ho Table.not_mem_empty

/-- Two updates read the row of Monday before either writes, one with a new start and one with a new end, and an
override is added. The later update wins, with the start that it read. -/
theorem availability_usable_stale : ∃ c,
    (dashboardSystem .sample fun _ => some 20521).Run .any (.start .sample) c ∧
    c.world.db.weeklyAvailabilities.find "w1" = some ⟨"w1", "c1", 1, 540, 600⟩ ∧
    c.world.db.overrides.rows.length = 1 ∧ c.world.db.Usable := by
  obtain ⟨c, h, hp⟩ := run_of_play (S := dashboardSystem .sample fun _ => some 20521) (G := .any) (c := .start .sample)
    ([.spawn ⟨.sample, .weeklyUpdate "w1" { startMinute := some 1000 }⟩,
      .spawn ⟨.sample, .weeklyUpdate "w1" { endMinute := some 600 }⟩,
      .spawn ⟨.sample, .overrideCreate { date := "2026-03-09", startMinute := some 600, endMinute := some 660 }⟩] ++
      fires 0 1 ++ fires 1 1 ++ fires 0 1 ++ fires 1 1 ++ fires 2 1 { newId := "o1" })
    (fun c => c.world.db.weeklyAvailabilities.find "w1" = some ⟨"w1", "c1", 1, 540, 600⟩ &&
      c.world.db.overrides.rows.length = 1) (by decide)
  rw [Bool.and_eq_true, decide_eq_true_eq, decide_eq_true_eq] at hp
  exact ⟨c, h, hp.1, hp.2, (availability_usable World.sample_usable h).1⟩

/-! ## Isolation -/

/-- A request of a coach who is no admin leaves the rows of all others as they were, and comes out the same in two
databases with the same rows of the coach, whatever rows the others have. -/
theorem coach_isolated {coach : Coach} (hc : coach.role = .coach) (hid : coach.id ≠ "") (request : Request)
    (choices : Nat → Choice) {w₁ w₂ : World} (hb₁ : w₁.db.BookingsOwned) (hb₂ : w₂.db.BookingsOwned)
    (hf₁ : ∀ n, w₁.db.FreshId (choices n).newId) (hf₂ : ∀ n, w₂.db.FreshId (choices n).newId)
    (h : w₁.db.AgreeOn (· = coach.id) w₂.db) :
    let out w := (request.body P toDateOnly coach).run exec (decided choices) w []
    w₁.db.AgreeOn (fun owner => !(owner = coach.id)) (out w₁).world.db ∧
      (out w₁).result = (out w₂).result ∧ (out w₁).world.db.AgreeOn (· = coach.id) (out w₂).world.db := by
  have htwin : Apartly choices (Start choices coach w₁.db w₂.db) (request.body P toDateOnly coach)
      (End coach w₁.db w₂.db) := Request.body_twin hc hid request
  obtain ⟨hr, -, ha⟩ := htwin w₁ w₂ [] [] rfl (Before.mk (.refl h) hb₁ hb₂ hf₁ hf₂)
  exact ⟨ha.left, hr, ha.own⟩

/-- The sample with a second coach, who has an event type. -/
def Db.neighbours : Db :=
  { Db.sample with
    coaches := ⟨[.sample, { Coach.sample with id := "c2", email := "other@example.com" }], by decide⟩
    eventTypes := ⟨[.sample, { EventType.sample with id := "e2", coachId := "c2" }], by decide⟩ }

/-- To the first coach the event type of the second is as missing as where there is no second coach. -/
theorem coach_isolated_neighbours :
    let out d := (Request.body .sample (fun _ => none) .sample (.eventTypeRemove "e2")).run exec
      (decided fun _ => { newId := "e3" }) { db := d, clock := 0 } []
    Db.neighbours.AgreeOn (fun owner => !(owner = "c1")) (out Db.neighbours).world.db ∧
      (out Db.neighbours).result = (out .sample).result ∧
      (out .sample).result = .error (.notFound (.text "Event type not found")) := by
  have booked : ∀ d : Db, d.bookings = .empty → d.BookingsOwned := by
    intro d hd b hb
    rw [hd] at hb
    exact absurd hb Table.not_mem_empty
  have h := @coach_isolated .sample (fun _ => none) .sample rfl (by decide) (.eventTypeRemove "e2")
    (fun _ => { newId := "e3" }) { db := Db.neighbours, clock := 0 } { db := .sample, clock := 0 }
    (booked _ rfl) (booked _ rfl) (fun _ => ⟨by decide, by decide, by decide⟩)
    (fun _ => ⟨by decide, by decide, by decide⟩) ⟨rfl, rfl, rfl, rfl, rfl, rfl, rfl⟩
  exact ⟨h.1, h.2.1, by decide⟩

/-! ## Updates of overrides -/

/-- The row with what the body gives. -/
def OverrideBody.merge (toDateOnly : String → Option Int) (body : OverrideBody) (row : AvailabilityOverride) :
    AvailabilityOverride :=
  row.merge (body.date.join.bind toDateOnly) body.isUnavailable.join body.startMinute.join body.endMinute.join

/-- What the body does not name is as it was. A day off has no minutes. -/
structure OnlyNamed (body : OverrideBody) (row row' : AvailabilityOverride) : Prop where
  date : body.date = none → row'.date = row.date
  isUnavailable : body.isUnavailable = none → row'.isUnavailable = row.isUnavailable
  startMinute : body.startMinute = none → row'.startMinute = if row'.isUnavailable then none else row.startMinute
  endMinute : body.endMinute = none → row'.endMinute = if row'.isUnavailable then none else row.endMinute

/-- An update that succeeds changes only what the body names. One that fails changes nothing, and one that is refused
would leave no range. -/
def PatchKeepsRest (toDateOnly : String → Option Int) (body : OverrideBody) (row : AvailabilityOverride)
    (out : Prog.Outcome World Ans Failure AvailabilityOverride) : Prop :=
  match out.result with
  | .ok row' => OnlyNamed body row row' ∧ out.world.db.overrides.find row.id = some row'
  | .error e => out.world.db.overrides.find row.id = some row ∧
      ∀ m, e = .badRequest m → ¬ (body.merge toDateOnly row).HasRange

section Patch

variable {coach : Coach} {row : AvailabilityOverride} {body : OverrideBody}
variable {env : List (Entry World Ans Failure) → Choice}

theorem toDto_merge (h : body.isUnavailable.isSome ∨ row.isUnavailable = false) :
    body.toDto.merge toDateOnly row = body.merge toDateOnly row := by
  obtain ⟨date, isUnavailable, startMinute, endMinute⟩ := body
  have hu : (isUnavailable.getD (some false)).getD row.isUnavailable = isUnavailable.join.getD row.isUnavailable := by
    rcases isUnavailable with _ | _
    · simpa using h
    · rfl
  simp only [UpdateAvailabilityOverrideDto.merge, OverrideBody.merge, OverrideBody.toDto, AvailabilityOverride.merge, hu]
  rcases date with _ | _ <;> rcases startMinute with _ | _ <;> rcases endMinute with _ | _ <;> rfl

theorem toDto_merge_onlyNamed :
    OnlyNamed body row (body.toDto.merge toDateOnly row) ↔ body.isUnavailable.isSome ∨ row.isUnavailable = false := by
  obtain ⟨date, isUnavailable, startMinute, endMinute⟩ := body
  constructor
  · intro h
    rcases isUnavailable with _ | _
    · exact .inr (h.isUnavailable rfl).symm
    · exact .inl rfl
  · intro h
    rw [toDto_merge h]
    refine ⟨fun hd => ?_, fun hu => ?_, fun hm => ?_, fun hm => ?_⟩
    · cases hd; rfl
    · cases hu; rfl
    · cases hm
      simp [OverrideBody.merge, AvailabilityOverride.merge]
    · cases hm
      simp [OverrideBody.merge, AvailabilityOverride.merge]

/-- An update changes only what its body names exactly when the body names `isUnavailable`, or the row is no day off,
or the body has minutes and a date that is none, which fails after the checks. -/
theorem patch_keeps_rest_iff (henv : ∀ t, (env t).fault = none) (hrow : w.db.overrides.find row.id = some row)
    (howner : row.coachId = coach.id) :
    PatchKeepsRest toDateOnly body row
        ((AvailabilityOverrideService.update toDateOnly coach row.id body.toDto).run exec env w []) ↔
      body.isUnavailable.isSome ∨ row.isUnavailable = false ∨
        (body.toDto.merge toDateOnly row).HasRange ∧ ¬ body.toDto.hasDate toDateOnly := by
  unfold PatchKeepsRest
  by_cases hr : (body.toDto.merge toDateOnly row).HasRange
  · by_cases hd : body.toDto.hasDate toDateOnly
    · obtain ⟨w', hruns, hfound⟩ := update_runs henv hrow howner hr hd
      obtain ⟨hres, hw⟩ := hruns []
      rw [hres, hw]
      dsimp only
      rw [and_iff_left hfound, toDto_merge_onlyNamed]
      exact or_congr_right ⟨.inl, fun h => h.resolve_right fun h => h.2 hd⟩
    · obtain ⟨hres, hw⟩ := update_fails henv hrow howner hr hd []
      rw [hres, hw]
      exact iff_of_true ⟨hrow, fun m hm => by cases hm⟩ (.inr (.inr ⟨hr, hd⟩))
  · obtain ⟨m, hruns⟩ := update_refuses (w := w) henv hrow howner hr
    obtain ⟨hres, hw⟩ := hruns []
    rw [hres, hw]
    constructor
    · intro h
      by_contra hc
      push Not at hc
      -- a day off stays one when the merge asks the row, so the refusal was for no want of a range
      refine h.2 m rfl (.inl ?_)
      have hu : body.isUnavailable = none := by simpa using hc.1
      simpa [OverrideBody.merge, AvailabilityOverride.merge, hu] using hc.2.1
    · intro h
      refine ⟨hrow, fun _ _ => ?_⟩
      rw [← toDto_merge]
      · exact hr
      · exact h.imp_right fun h => h.resolve_right fun h => hr h.1

end Patch

/-- 2026-03-09, off. -/
def dayOff : AvailabilityOverride := ⟨"o1", "c1", 20521, true, none, none⟩

/-- The sample world with that override. -/
def World.withDayOff : World :=
  { CoachingCalendar.World.sample with db := { Db.sample with overrides := ⟨[dayOff], by decide⟩ } }

theorem patch_keeps_rest_iff_named :
    PatchKeepsRest (fun _ => some 20522) { date := some (some "2026-03-10"), isUnavailable := some (some true) }
      dayOff
      ((AvailabilityOverrideService.update (fun _ => some 20522) .sample "o1"
        (OverrideBody.toDto { date := some (some "2026-03-10"), isUnavailable := some (some true) })).run exec
          (fun _ => {}) World.withDayOff []) :=
  have found : World.withDayOff.db.overrides.find dayOff.id = some dayOff := by decide
  have owned : dayOff.coachId = Coach.sample.id := rfl
  (patch_keeps_rest_iff (fun _ => rfl) found owned).mpr (.inl rfl)

/-- A body with nothing but a date makes a day off one that is not, and the update is refused for its minutes. -/
theorem patch_moves_no_day_off :
    ¬ ∀ (toDateOnly : String → Option Int) (body : OverrideBody) (row : AvailabilityOverride) (coach : Coach)
        (w : World), body.toDto.valid = true → w.db.overrides.find row.id = some row → row.coachId = coach.id →
      PatchKeepsRest toDateOnly body row
        ((AvailabilityOverrideService.update toDateOnly coach row.id body.toDto).run exec (fun _ => {}) w []) := by
  intro hall
  have h := hall (fun _ => some 20522) { date := some (some "2026-03-10") } dayOff .sample
    World.withDayOff (by decide) (by decide) rfl
  unfold PatchKeepsRest at h
  have hres : ((AvailabilityOverrideService.update (fun _ => some 20522) .sample dayOff.id
      (OverrideBody.toDto { date := some (some "2026-03-10") })).run exec (fun _ => {}) World.withDayOff []).result =
      .error (.badRequest (.text "startMinute and endMinute are required unless isUnavailable is true")) := by decide
  rw [hres] at h
  exact h.2 _ rfl (.inl rfl)

/-! ## The catalogue -/

/-- While no accepted reordering gives out the position of an event type that it leaves out, the positions stay
distinct, and every call does what it owes to the order of the list. -/
theorem catalogue_ordered {coach : Coach} {w₀ w : World} {t : List Served}
    (h : CatalogueRun P toDateOnly coach w₀ t w) (h₀ : w₀.db.Ordered coach.id) (hc : ∀ s ∈ t, s.Covers coach.id) :
    w.db.Ordered coach.id ∧ ∀ s ∈ t, s.Orderly coach.id := by
  induction h with
  | start => exact ⟨h₀, fun _ hs => absurd hs List.not_mem_nil⟩
  | rest _ hsame ih =>
      obtain ⟨hord, hall⟩ := ih hc
      refine ⟨?_, hall⟩
      rwa [Db.Ordered, hsame]
  | @call t w request env out _ hq hout ih =>
      obtain ⟨hord, hall⟩ := ih fun s hs => hc s (List.mem_append_left _ hs)
      have hcovers := hc _ (List.mem_append_right t List.mem_cons_self)
      have hchanged : Changed coach.id w.db request out.result out.world.db := hout ▸ Request.changed hq env []
      refine ⟨hchanged.ordered hord hcovers, fun s hs => ?_⟩
      rcases List.mem_append.mp hs with hs | hs
      · exact hall s hs
      · obtain rfl := List.mem_singleton.mp hs
        exact hchanged.orderly

/-- The sample world before the coach has an event type. -/
def World.withoutCatalogue : World :=
  { CoachingCalendar.World.sample with db := { Db.sample with eventTypes := .empty } }

/-- A call of the sample coach in which nothing fails, and a row that it creates gets the id. -/
def served (w : World) (request : Request) (newId : String := "") : Served :=
  ⟨w, request, (request.body .sample (fun _ => none) .sample).run exec (fun _ => { newId }) w []⟩

def CreateEventTypeDto.sample : CreateEventTypeDto where
  title := "Session"
  durationMinutes := 60
  locations := [.phone]

/-- Two event types are created, one after the other. -/
def World.withTwo : World :=
  let first := served World.withoutCatalogue (.eventTypeCreate .sample) "e1"
  (served first.outcome.world (.eventTypeCreate .sample) "e2").outcome.world

theorem World.withTwo_run : ∃ t, CatalogueRun .sample (fun _ => none) .sample World.withoutCatalogue t World.withTwo ∧
    ∀ s ∈ t, s.Covers Coach.sample.id := by
  refine ⟨_, .call (.call .start rfl rfl) rfl rfl, fun s hs ids hids => ?_⟩
  simp only [List.nil_append, List.cons_append, List.mem_cons, List.not_mem_nil, or_false] at hs
  rcases hs with rfl | rfl <;> cases hids

theorem catalogue_ordered_swapped :
    ∃ t w, CatalogueRun .sample (fun _ => none) .sample World.withoutCatalogue t w ∧ w.db.Ordered "c1" ∧
      ∃ s ∈ t, s.request = .eventTypeReorder ["e2", "e1"] ∧ s.outcome.result = .ok .done ∧ s.Orderly "c1" := by
  obtain ⟨t, ht, hc⟩ := World.withTwo_run
  have hrun := @CatalogueRun.call _ _ _ _ _ _ (.eventTypeReorder ["e2", "e1"]) (fun _ => {}) _ ht rfl rfl
  have hall : ∀ e ∈ World.withTwo.db.catalogue "c1", e.id ∈ ["e2", "e1"] := by decide
  have hcovers : ∀ s ∈ t ++ [served World.withTwo (.eventTypeReorder ["e2", "e1"])], s.Covers Coach.sample.id := by
    intro s hs
    rcases List.mem_append.mp hs with hs | hs
    · exact hc s hs
    · obtain rfl := List.mem_singleton.mp hs
      intro ids hids _ e he hnot
      cases hids
      exact absurd (hall e he) hnot
  obtain ⟨hord, hall⟩ := catalogue_ordered hrun List.nodup_nil hcovers
  exact ⟨_, _, hrun, hord, _, List.mem_append_right _ List.mem_cons_self, rfl, by decide,
    hall _ (List.mem_append_right _ List.mem_cons_self)⟩

/-- A reordering of the second of two event types is accepted, and both are first. -/
theorem catalogue_collides :
    ¬ ∀ (coach : Coach) (w₀ w : World) (t : List Served), CatalogueRun .sample (fun _ => none) coach w₀ t w →
      w₀.db.catalogue coach.id = [] → w.db.Ordered coach.id ∧ ∀ s ∈ t, s.Orderly coach.id := by
  intro hall
  obtain ⟨t, ht, -⟩ := World.withTwo_run
  have hrun := @CatalogueRun.call _ _ _ _ _ _ (.eventTypeReorder ["e2"]) (fun _ => {}) _ ht rfl rfl
  exact absurd (hall _ _ _ _ hrun rfl).1 (by decide)

end CoachingCalendar.Dashboard
