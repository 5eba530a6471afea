import CoachingCalendar.Origins.Lemmas

/-! # The answers of the allow-list -/

namespace CoachingCalendar.Origins
open Lib Lib.System

variable {w : World} {c c' : OriginConfig} {origin : String} {i j k : Nat} {present answer : Bool}

/-! ## On one instance -/

def Call.edits : Call → Bool
  | .add _ _ | .remove _ _ => true
  | .isAllowed _ _ => false

/-- Call `j` on instance `k` has changed the origin and completed, nobody has changed the origin since, and a
call `i` on the same instance that was made after this has answered. -/
structure AnswersAfter (origin : String) (k j i : Nat) (present answer : Bool) (c c' : OriginConfig) : Prop where
  completed : ∃ call reply, c.Ended j call (.ok reply) ∧ call.edits = true ∧ call.node = k
  last : ∃ l, lastChange origin c'.log = some l ∧ l.tid = j ∧ changed l.toEvent = some (origin, present)
  later : c.threads.length ≤ i
  answered : c'.Ended i (.isAllowed k origin) (.ok (.answer answer))

/-- The same as a test, for an edit that has returned. -/
def answersAfter (origin : String) (k j i : Nat) (present answer : Bool) (c c' : OriginConfig) : Bool :=
  (c.returned j).any (fun x => x.1.edits && x.1.node = k) &&
    (lastChange origin c'.log).any (fun l => l.tid = j && changed l.toEvent = some (origin, present)) &&
    c.threads.length ≤ i && c'.returned i = some (.isAllowed k origin, .answer answer)

theorem AnswersAfter.of_test (h : answersAfter origin k j i present answer c c' = true) :
    AnswersAfter origin k j i present answer c c' := by
  simp only [answersAfter, Bool.and_eq_true, Option.any_eq_true, decide_eq_true_eq] at h
  obtain ⟨⟨⟨⟨⟨call, reply⟩, hj, hedits, hnode⟩, l, hl, htid, hp⟩, hlater⟩, hi⟩ := h
  exact ⟨⟨call, reply, Config.ended_of_returned hj, hedits, hnode⟩, ⟨l, hl, htid, hp⟩, hlater,
    Config.ended_of_returned hi⟩

theorem settledOn_of_ended {G : OriginGuard} (h : originSystem.Run G (.start w) c) {call : Call} {reply : Reply}
    (hj : c.Ended j call (.ok reply)) (hedits : call.edits = true) {l : OriginEntry}
    (hl : lastChange origin c.log = some l) (htid : l.tid = j) : settledOn origin call.node c = true := by
  refine (settledOn_iff hl).mpr ⟨?_, ?_⟩
  · have hthread : c.threads[l.tid]? = some ⟨call, .pure reply⟩ := htid ▸ hj
    simp [Config.callOf, hthread]
  · have := ended_final h hj
    cases call with
    | isAllowed => cases hedits
    | add => exact htid ▸ this
    | remove => exact htid ▸ this

theorem decided_agrees {c₁ c₂ : OriginConfig} (h : originSystem.Run (notOvertaken origin) (.start w) c₁)
    {e : Event Ans Failure} (hi : Issues originSystem (notOvertaken origin) c₁ ⟨e, i⟩ c₂)
    (hs : settledOn origin k c₁ = true) {origins : List String} (hd : decidedBy k e = some origins) :
    origin ∈ origins ↔ origin ∈ c₁.world.table.origins := by
  obtain ⟨⟨call, p, ht⟩, ⟨ch, hx⟩, hg, _⟩ := hi
  obtain ⟨o, r⟩ := e
  have hf := h.follows_past (R := Call.protocol) (fun _ => rfl) Call.body_follows (fun _ _ _ _ => trivial) ht
  cases o with
  | peek k' =>
      have hr : .ok (c₁.world.caches k', c₁.world.clock) = r := congrArg Prod.fst hx
      subst hr
      simp only [decidedBy, Option.ite_none_right_eq_some] at hd
      obtain ⟨rfl, hd⟩ := hd
      exact run_settled h hs origins (Option.filter_eq_some_iff.mp hd).1
  | store k' origins' =>
      have hr : .ok () = r := congrArg Prod.fst hx
      subst hr
      simp only [decidedBy, Option.ite_none_right_eq_some, Option.some.injEq] at hd
      obtain ⟨rfl, rfl⟩ := hd
      exact not_overtaken_agrees h hf.1 hg hs
  | findByOrigin => simp [decidedBy] at hd
  | create => simp [decidedBy] at hd
  | delete => simp [decidedBy] at hd
  | findMany => simp [decidedBy] at hd
  | invalidate => simp [decidedBy] at hd

/-- An instance answers according to the last change of an origin that completed on it, when no load of it is
overtaken by a change. -/
theorem answers_last_change (h : originSystem.Run (notOvertaken origin) (.start w) c)
    (h' : originSystem.Run (notOvertaken origin) c c') (ha : AnswersAfter origin k j i present answer c c') :
    answer = present := by
  obtain ⟨⟨call, reply, hj, hedits, rfl⟩, ⟨l, hl, htid, hp⟩, hlater, hi⟩ := ha
  obtain ⟨_, t, ht, hne⟩ := h'.log_ended hj
  obtain ⟨past', e, origins, hpast, hd, hans⟩ := ended_final (h.trans h') hi
  -- nobody has changed the origin since the call completed
  have hq : ∀ x ∈ t, changes origin x = false := by
    intro x hx
    by_contra hc
    rw [ht, lastChange, List.reverse_append, List.find?_append] at hl
    cases hf : t.reverse.find? (changes origin) with
    | none =>
        exact hc (by simpa using List.find?_eq_none.mp hf x (by simpa using hx))
    | some y =>
        rw [hf, Option.some_or, Option.some.injEq] at hl
        subst hl
        exact hne _ (by simpa using List.mem_of_find?_eq_some hf) htid
  have he : ⟨e, i⟩ ∈ t := h.log_spawned ht hlater (by simp [hpast])
  obtain ⟨c₁, c₂, hc₁⟩ := h'.issued ht he
  obtain ⟨t₁, ht₁, hsub⟩ := hc₁.log_before ht
  have hl₁ : lastChange origin c₁.log = some l := by
    rw [ht₁, lastChange_quiet fun x hx => hq x (hsub hx), ← lastChange_quiet hq, ← ht, hl]
  have hrun := h.trans hc₁.before
  have hs := settledOn_of_ended hrun (hc₁.before.log_ended hj).1 hedits hl₁ htid
  have hagree := (decided_agrees hrun (hc₁.step.issues hc₁.log) hs hd).trans
    ((run_upToDate hrun).table l present hl₁ hp)
  cases hans
  rw [Bool.eq_iff_iff, List.contains_iff_mem]
  exact hagree

/-- An origin is added, and then asked for. -/
theorem answers_last_change_added : ∃ c c' answer, originSystem.Run (notOvertaken "o") (.start .sample) c ∧
    originSystem.Run (notOvertaken "o") c c' ∧ c'.Ended 1 (.isAllowed 0 "o") (.ok (.answer answer)) ∧ answer = true := by
  obtain ⟨c, h, hp⟩ := run_of_play (S := originSystem) (G := notOvertaken "o") (c := .start .sample)
    ([.spawn (.add 0 ⟨"o", none⟩)] ++ fires 0 3)
    (fun c => (originSystem.play (notOvertaken "o") ([.spawn (.isAllowed 0 "o")] ++ fires 1 3) c).any
      (answersAfter "o" 0 0 1 true true c)) (by decide)
  obtain ⟨c', hc', hp⟩ := (Option.any_eq_true _ _).mp hp
  have ha := AnswersAfter.of_test hp
  exact ⟨c, c', true, h, play_run hc', ha.answered, answers_last_change h (play_run hc') ha⟩

/-- An instance loads the origins, drops its cache after an origin is added, stores the load, and does not
know the origin. -/
theorem answers_not_last_change : ¬ ∀ (w : World) (c c' : OriginConfig) (origin : String) (k j i : Nat)
    (present answer : Bool), originSystem.Run .any (.start w) c → originSystem.Run .any c c' →
    AnswersAfter origin k j i present answer c c' → answer = present := by
  intro hall
  obtain ⟨c, h, hp⟩ := run_of_play (S := originSystem) (G := .any) (c := .start .sample)
    ([.spawn (.isAllowed 0 "o")] ++ fires 0 2 ++ [.spawn (.add 0 ⟨"o", none⟩)] ++ fires 1 3)
    (fun c => (originSystem.play .any (fires 0 1 ++ [.spawn (.isAllowed 0 "o")] ++ fires 2 1) c).any
      (answersAfter "o" 0 1 2 true false c)) (by decide)
  obtain ⟨c', hc', hp⟩ := (Option.any_eq_true _ _).mp hp
  cases hall _ c c' "o" 0 1 2 true false h (play_run hc') (.of_test hp)

/-! ## Across instances -/

/-- The origins that a call looks its origin up in are from the last `CACHE_TTL_MS + delay` milliseconds. -/
theorem decided_held {delay : Int} (hw : w.Fresh) (h : originSystem.Run (storedWithin delay) (.start w) c)
    {e : Event Ans Failure} (hi : Issues originSystem (storedWithin delay) c ⟨e, i⟩ c') {origins : List String}
    (hd : decidedBy k e = some origins) : c'.world.Held (c'.world.clock - CACHE_TTL_MS - delay) origins := by
  obtain ⟨⟨call, p, ht⟩, ⟨ch, hx⟩, hg, _⟩ := hi
  obtain ⟨o, r⟩ := e
  have hf := h.follows_past (R := Call.protocol) (fun _ => rfl) Call.body_follows (fun _ _ _ _ => trivial) ht
  have hI := run_aged h hw
  have hx : exec c.world o ch = (r, c'.world) := hx
  rw [exec_clock hx]
  cases o with
  | peek k' =>
      have hr : .ok (c.world.caches k', c.world.clock) = r := congrArg Prod.fst hx
      subst hr
      simp only [decidedBy, Option.ite_none_right_eq_some] at hd
      obtain ⟨rfl, hd⟩ := hd
      obtain ⟨ho, hnew⟩ := Option.filter_eq_some_iff.mp hd
      have hnew : c.world.clock - (c.world.caches k').cachedAt ≤ CACHE_TTL_MS := by simpa using hnew
      exact ((hI.caches k' origins ho).mono (by omega)).exec hx
  | store k' origins' =>
      have hr : .ok () = r := congrArg Prod.fst hx
      subst hr
      simp only [decidedBy, Option.ite_none_right_eq_some, Option.some.injEq] at hd
      obtain ⟨rfl, rfl⟩ := hd
      exact ((not_delayed_held hI hf.1 hg).mono (by simp only [CACHE_TTL_MS]; omega)).exec hx
  | findByOrigin => simp [decidedBy] at hd
  | create => simp [decidedBy] at hd
  | delete => simp [decidedBy] at hd
  | findMany => simp [decidedBy] at hd
  | invalidate => simp [decidedBy] at hd

theorem answer_decided {G : OriginGuard} (h : originSystem.Run G (.start w) c) (hs : originSystem.Step G c c')
    (hi : Config.FiredBy i c c') (ha : c'.Ended i (.isAllowed k origin) (.ok (.answer answer))) :
    ∃ e origins, Issues originSystem G c ⟨e, i⟩ c' ∧ decidedBy k e = some origins ∧
      answer = origins.contains origin := by
  obtain ⟨⟨e, tid⟩, hlog, htid⟩ := hi
  obtain rfl : tid = i := htid
  obtain ⟨past', e', origins, hpast, hd, hans⟩ := ended_final (h.tail hs) ha
  have hpast' : c'.past tid = c.past tid ++ [e] := by simp [Config.past, hlog]
  obtain ⟨_, he⟩ := List.append_inj' (hpast'.symm.trans hpast) rfl
  cases hans
  cases he
  exact ⟨e, origins, hs.issues hlog, hd, rfl⟩

/-- An answer is what the table said at some time of the last `CACHE_TTL_MS + delay` milliseconds. So it
honours every change from before this time, when the origin was not changed since. -/
theorem answers_recent {delay : Int} (hw : w.Fresh) (h : originSystem.Run (storedWithin delay) (.start w) c)
    (hs : originSystem.Step (storedWithin delay) c c') (hi : Config.FiredBy i c c')
    (ha : c'.Ended i (.isAllowed k origin) (.ok (.answer answer))) :
    (∃ origins, c'.world.Held (c'.world.clock - CACHE_TTL_MS - delay) origins ∧ answer = origins.contains origin) ∧
      ∀ c₁ t, originSystem.Run (storedWithin delay) (.start w) c₁ → originSystem.Run (storedWithin delay) c₁ c' →
        c'.log = c₁.log ++ t → (∀ e ∈ t, changes origin e = false) →
        c₁.world.clock < c'.world.clock - CACHE_TTL_MS - delay →
        answer = c₁.world.table.origins.contains origin := by
  obtain ⟨e, origins, hissues, hd, rfl⟩ := answer_decided h hs hi ha
  have hheld := decided_held hw h hissues hd
  refine ⟨⟨origins, hheld, rfl⟩, fun c₁ t h₁ h₁' ht hq hlt => ?_⟩
  obtain ⟨htable, hpast⟩ := run_unchanged h₁' ht hq
  rw [Bool.eq_iff_iff, List.contains_iff_mem, List.contains_iff_mem]
  rcases hheld with ⟨_, rfl⟩ | ⟨era, he, rfl, hle, _⟩
  · exact htable
  · rcases hpast era he with hold | hagree
    · have := (run_aged h₁ hw).past era hold
      omega
    · exact hagree

/-- An origin is added on one instance, and another one has it a minute later. -/
theorem answers_recent_added : ∃ c' answer, originSystem.Run (storedWithin 5) (.start .sample) c' ∧
    c'.Ended 2 (.isAllowed 0 "o") (.ok (.answer answer)) ∧ answer = true := by
  obtain ⟨c₁, h₁, hp⟩ := run_of_play (S := originSystem) (G := storedWithin 5) (c := .start .sample)
    ([.spawn (.isAllowed 0 "o")] ++ fires 0 2 ++ [.drift 5] ++ fires 0 1 ++ [.spawn (.add 1 ⟨"o", none⟩)] ++ fires 1 3)
    (fun c₁ => c₁.world.table.origins.contains "o" && c₁.log.length = 6 && c₁.world.clock = 5 &&
      (originSystem.play (storedWithin 5) ([.drift 60006, .spawn (.isAllowed 0 "o")] ++ fires 2 2) c₁).any fun c =>
        (originSystem.next (storedWithin 5) c (.fire 2 {})).any fun c' => c'.world.clock = 60011 &&
          (c'.log.drop 6).all (fun e => !changes "o" e) &&
          c'.returned 2 = some (.isAllowed 0 "o", .answer true)) (by decide)
  simp only [Bool.and_eq_true, decide_eq_true_eq, Option.any_eq_true, List.all_eq_true, Bool.not_eq_true'] at hp
  obtain ⟨⟨⟨hadded, hlen⟩, hbefore⟩, c, hc, c', hc', ⟨hclock, hq⟩, hr⟩ := hp
  have h := play_run hc
  have hs := step_of_next hc'
  have hend := Config.ended_of_returned hr
  obtain ⟨t, ht⟩ := (h.tail hs).log_grows
  have hrecent := answers_recent ⟨fun _ => rfl, rfl⟩ (h₁.trans h) hs (firedBy_of_next hc') hend
  have := hrecent.2 c₁ t h₁ (h.tail hs) ht.symm
    (by rwa [← ht, ← hlen, List.drop_left] at hq) (by rw [hbefore, hclock]; decide)
  exact ⟨c', _, (h₁.trans h).tail hs, hend, this.trans hadded⟩

end CoachingCalendar.Origins
