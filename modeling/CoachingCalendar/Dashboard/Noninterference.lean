import CoachingCalendar.Dashboard.Lemmas.Blind
import CoachingCalendar.Dashboard.Lemmas.Unseen
import CoachingCalendar.Dashboard.Theorems

/-! # Coaches do not disturb each other -/

namespace CoachingCalendar.Dashboard
open Lib Lib.Prog Lib.System

variable {P : Platform} {toDateOnly : String → Option Int} {d₁ d₂ : Db} {w w₁ w₂ : World}
variable {c c₁ c₂ : DashboardConfig} {coachId id : String}

/-! ## Along one run -/

theorem Settled.unused {d d' : Db} {log : List (Logged Ans Failure)} (h : Settled d log d') (hn : ¬ Given d log id) :
    d'.Unused id := by
  intro kind _
  cases ho : d'.ownerOf kind id with
  | none => rfl
  | some owner => exact absurd (h.given ho) hn

theorem run_keeps (h : (requestSystem P toDateOnly).Run (drawsIds d₁ d₂) (.start w) c) {i : Nat} {call : Call} {o : Op}
    {k : Except Failure (Ans o) → DashboardProg Response} (hi : c.threads[i]? = some ⟨call, .op o k⟩) :
    call.Plain ∧ o.Keeps call.coach.id (fun kind id => ∃ e ∈ c.past i, Found e kind id call.coach.id) ∧
      ∀ r r', Sees call.coach.id o r r' → k r = k r' := by
  obtain ⟨hplain, hblind⟩ := Run.blind (S := requestSystem P toDateOnly) h
    (fun call hc => Request.body_discreet hc.1 call.request) _ (List.mem_of_getElem? hi)
  exact ⟨hplain, (requests_licensed.follows h hi).1 hplain, hblind.1⟩

theorem drawsIds_notGiven {e : Logged Ans Failure} (hw : ∀ id, d₁.Unused id → d₂.Unused id → w.db.Unused id)
    (he : (drawsIds d₁ d₂).event c e) {log : List (Logged Ans Failure)}
    (hlog : ∀ id, (∃ l ∈ log, createdId l.toEvent = some id) → ∃ l ∈ c.log, createdId l.toEvent = some id) :
    ∀ id ∈ createdId e.toEvent, ¬ Given w.db log id := by
  rintro id hid (hu | hl)
  · exact hu (hw id (he.2 id hid).1 (he.2 id hid).2.1)
  · obtain ⟨l, hl, hc⟩ := hlog id hl
    exact (he.2 id hid).2.2 l hl hc

theorem run_settled (h : (requestSystem P toDateOnly).Run (drawsIds d₁ d₂) (.start w) c)
    (hw : ∀ id, d₁.Unused id → d₂.Unused id → w.db.Unused id) (hb : w.db.BookingsOwned) :
    Settled w.db c.log c.world.db := by
  induction h with
  | refl => exact .start hb
  | tail hrun hs ih =>
      cases hs with
      | spawn _ ha =>
          change (if _ then _ else _) = _ at ha
          split at ha <;> cases ha
          exact ih
      | fire hi hx he => exact ih.fire (run_keeps hrun hi).2.1 hx (drawsIds_notGiven hw he fun _ h => h)
      | drift _ => exact ih

theorem Settled.keeps {d : Db} (h : Settled d c.log c.world.db) {i : Nat} {o : Op}
    (ho : o.Keeps coachId fun kind id => ∃ e ∈ c.past i, Found e kind id coachId) :
    o.Keeps coachId (c.world.db.OnlyOf coachId) := by
  refine ho.mono fun kind id ⟨e, he, hf⟩ => ?_
  obtain ⟨l, hl, -, rfl⟩ := mem_past.mp he
  exact (h.found hl hf).2

/-! ## Two runs -/

theorem error_of_map {α β : Type} {f : α → β} {r r' : Except Failure α} (h : r.map f = r'.map f) {e : Failure}
    (he : r ≠ .error e) : r' ≠ .error e := by
  rintro rfl
  cases r with
  | ok a => cases h
  | error e' =>
      cases h
      exact he rfl

theorem Sees.error {o : Op} {r r' : Except Failure (Ans o)} (h : Sees coachId o r r') {e : Failure} (he : r ≠ .error e) :
    r' ≠ .error e := by
  unfold Sees at h
  split at h
  · exact error_of_map h he
  · exact error_of_map h he
  · exact error_of_map h he
  · exact error_of_map h he
  · exact h ▸ he

theorem Sees.createdId {o : Op} {r r' : Except Failure (Ans o)} (h : Sees coachId o r r') :
    Dashboard.createdId ⟨o, r'⟩ = Dashboard.createdId ⟨o, r⟩ := by
  unfold Sees at h
  split at h
  · rfl
  · rfl
  · rfl
  · rfl
  · rw [h]

/-- The rows of the coach are the same, and no row has been created that the full run has not. -/
structure Undisturbed (coachId : String) (u₁ : World) (l₁ : List (Logged Ans Failure)) (u₂ : World)
    (l₂ : List (Logged Ans Failure)) : Prop where
  agree : u₁.db.AgreeOn (· = coachId) u₂.db
  created : ∀ id, (∃ l ∈ l₂, createdId l.toEvent = some id) → ∃ l ∈ l₁, createdId l.toEvent = some id

theorem unwinds (hb₁ : w₁.db.BookingsOwned) (hb₂ : w₂.db.BookingsOwned) (h : w₁.db.AgreeOn (· = coachId) w₂.db) :
    Unwinds (requestSystem P toDateOnly) (drawsIds w₁.db w₂.db) w₁ w₂ (fun call => call.coach.id = coachId)
      (Undisturbed coachId) where
  start := ⟨h, fun _ h => h⟩
  spawn := by
    intro call u₁ l₁ u₂ l₂ v₁ hK _ ha
    change (if _ then _ else _) = _ at ha
    split at ha <;> cases ha
    exact ⟨u₂, if_pos ‹_›, hK⟩
  spawnOther := by
    intro call u₁ l₁ u₂ l₂ v₁ hK _ ha
    change (if _ then _ else _) = _ at ha
    split at ha <;> cases ha
    exact hK
  drift hK := ⟨hK.agree, hK.created⟩
  fire := by
    intro c₁ c₂ i j call o k ch r v₁ hrun₁ hrun₂ hK hm hi hj hx he
    obtain rfl : call.coach.id = coachId := of_decide_eq_true hm
    obtain ⟨-, ho₁, hk⟩ := run_keeps hrun₁ hi
    have hs₁ := run_settled hrun₁ (fun _ h _ => h) hb₁
    have hs₂ := run_settled hrun₂ (fun _ _ h => h) hb₂
    have hnew₁ := drawsIds_notGiven (w := w₁) (fun _ h _ => h) he fun _ h => h
    have hnew₂ := drawsIds_notGiven (w := w₂) (fun _ _ h => h) he hK.created
    obtain rfl : ((requestSystem P toDateOnly).exec c₁.world o ch).1 = r := congrArg Prod.fst hx
    obtain rfl : ((requestSystem P toDateOnly).exec c₁.world o ch).2 = v₁ := congrArg Prod.snd hx
    have ha := exec_alongside hK.agree hs₁.booked hs₂.booked (hs₁.keeps ho₁) (hs₂.keeps (run_keeps hrun₂ hj).2.1) he.1
      fun id hid => ⟨hs₁.unused (hnew₁ id hid), hs₂.unused (hnew₂ id hid)⟩
    have hcreated := ha.sees.createdId
    refine ⟨_, _, rfl, ⟨ha.sees.error he.1, fun id hid => ?_⟩, hk _ _ ha.sees, ha.apart.own, fun id hid => ?_⟩
    · have hid : id ∈ createdId ⟨o, (exec c₁.world o ch).1⟩ := hcreated ▸ hid
      exact ⟨(he.2 id hid).1, (he.2 id hid).2.1, fun l hl hc => hnew₂ id hid (.inr ⟨l, hl, hc⟩)⟩
    · obtain ⟨l, hl, hc⟩ := hid
      rcases List.mem_append.mp hl with hl | hl
      · obtain ⟨l', hl', hc'⟩ := hK.created id ⟨l, hl, hc⟩
        exact ⟨l', List.mem_append_left _ hl', hc'⟩
      · obtain rfl := List.mem_singleton.mp hl
        exact ⟨_, List.mem_append_right _ List.mem_cons_self, hcreated.symm.trans hc⟩
  fireOther := by
    intro c₁ i call o k ch r v₁ u₂ l₂ hrun₁ hK hm hi hx he
    have hne : call.coach.id ≠ coachId := of_decide_eq_false hm
    have hs₁ := run_settled hrun₁ (fun _ h _ => h) hb₁
    have hnew₁ := drawsIds_notGiven (w := w₁) (fun _ h _ => h) he fun _ h => h
    obtain rfl : ((requestSystem P toDateOnly).exec c₁.world o ch).1 = r := congrArg Prod.fst hx
    obtain rfl : ((requestSystem P toDateOnly).exec c₁.world o ch).2 = v₁ := congrArg Prod.snd hx
    have ho := hs₁.keeps (run_keeps hrun₁ hi).2.1
    have ha := exec_alongside (.refl _ _) hs₁.booked hs₁.booked ho ho he.1
      fun id hid => ⟨hs₁.unused (hnew₁ id hid), hs₁.unused (hnew₁ id hid)⟩
    refine ⟨.trans (.symm (ha.apart.left.mono fun owner ho => ?_)) hK.agree, fun id hid => ?_⟩
    · simpa [of_decide_eq_true ho] using Ne.symm hne
    · obtain ⟨l, hl, hc⟩ := hK.created id hid
      exact ⟨l, List.mem_append_left _ hl, hc⟩

/-! ## The result -/

/-- However the requests of coaches interleave, those of one coach come to what they come to when no one else makes
any, in a database with the same rows of hers and any rows of the others. -/
theorem coaches_undisturbed (hb₁ : w₁.db.BookingsOwned) (hb₂ : w₂.db.BookingsOwned)
    (hagree : w₁.db.AgreeOn (· = coachId) w₂.db)
    (h : (requestSystem P toDateOnly).Run (drawsIds w₁.db w₂.db) (.start w₁) c) :
    ∃ c', (requestSystem P toDateOnly).Run (drawsIds w₁.db w₂.db) (.start w₂) c' ∧
      c'.threads = c.threads.filter (fun th => th.call.coach.id = coachId) ∧
      c.world.db.AgreeOn (· = coachId) c'.world.db := by
  obtain ⟨c', hrun, hth, hK⟩ := h.purged (unwinds hb₁ hb₂ hagree)
  exact ⟨c', hrun, hth, hK.agree⟩

/-- A coach shortens her Monday while another, whom the second database does not have, removes his event type and adds
a Monday of his own. -/
theorem coaches_undisturbed_neighbours :
    let start d : DashboardConfig := .start { db := d, clock := 0 }
    let S := requestSystem .sample fun _ => none
    ∃ c c', S.Run (drawsIds Db.neighbours .sample) (start Db.neighbours) c ∧ c.threads.length = 3 ∧
      c.world.db.eventTypes.find "e2" = none ∧ S.Run (drawsIds Db.neighbours .sample) (start .sample) c' ∧
      c'.threads.length = 1 ∧ c.world.db.AgreeOn (· = "c1") c'.world.db := by
  have booked : ∀ d : Db, d.bookings = .empty → d.BookingsOwned := by
    intro d hd b hb
    rw [hd] at hb
    exact absurd hb Table.not_mem_empty
  let other : Coach := { Coach.sample with id := "c2" }
  obtain ⟨c, h, hp⟩ := run_of_play (S := requestSystem .sample fun _ => none) (G := drawsIds Db.neighbours .sample)
    (c := .start { db := Db.neighbours, clock := 0 })
    [.spawn ⟨.sample, .weeklyUpdate "w1" { endMinute := some 600 }⟩, .spawn ⟨other, .eventTypeRemove "e2"⟩,
      .spawn ⟨other, .weeklyCreate { weekday := 1, startMinute := 540, endMinute := 600 }⟩, .fire 0 {}, .fire 1 {},
      .fire 1 {}, .fire 2 { newId := "w3" }, .fire 0 {}]
    (fun c => c.threads.length = 3 && c.world.db.eventTypes.find "e2" = none &&
      (c.threads.filter fun th => th.call.coach.id = "c1").length = 1) (by decide +kernel)
  simp only [Bool.and_eq_true, decide_eq_true_eq] at hp
  obtain ⟨c', h', hth, hagree⟩ := @coaches_undisturbed .sample (fun _ => none) { db := Db.neighbours, clock := 0 }
    { db := .sample, clock := 0 } c "c1" (booked _ rfl) (booked _ rfl) ⟨rfl, rfl, rfl, rfl, rfl, rfl, rfl⟩ h
  exact ⟨c, c', h, hp.1.1, hp.1.2, h', hth ▸ hp.2, hagree⟩

end CoachingCalendar.Dashboard
