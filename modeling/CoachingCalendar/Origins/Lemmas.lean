import CoachingCalendar.Origins.Service

/-! # What runs of the allow-list keep -/

namespace CoachingCalendar.Origins
open Lib Lib.Prog Lib.System

/-! ## The table -/

namespace OriginTable

variable {t t' : OriginTable} {row : AllowedOrigin} {origin id : String}

theorem create_rows (h : t.create row = some t') : t'.rows = t.rows ++ [row] := by
  unfold create at h
  split at h
  · cases h
  · split at h
    · cases h
    · rename_i hr
      cases h
      exact (Table.insert_some hr).2

theorem mem_create (h : t.create row = some t') : origin ∈ t'.origins ↔ origin ∈ t.origins ∨ origin = row.origin := by
  simp [origins, create_rows h]

theorem mem_delete (h : t.toTable.find id = some row) :
    origin ∈ (t.delete id).origins ↔ origin ∈ t.origins ∧ origin ≠ row.origin := by
  obtain ⟨hrow, hid⟩ := Table.find_some.mp h
  have rows : ∀ x, x ∈ (t.delete id).rows ↔ x ∈ t.rows ∧ x.id ≠ id := fun x => Table.mem_delete
  simp only [origins, List.mem_map, rows]
  constructor
  · rintro ⟨x, ⟨hx, hne⟩, rfl⟩
    refine ⟨⟨x, hx, rfl⟩, fun he => hne ?_⟩
    rw [List.inj_on_of_nodup_map t.unique hx hrow he, hid]
  · rintro ⟨⟨x, hx, rfl⟩, hne⟩
    refine ⟨x, ⟨hx, fun he => hne ?_⟩, rfl⟩
    rw [Table.eq_of_key hx hrow (he.trans hid.symm)]

end OriginTable

/-! ## What an operation can do -/

/-- What an operation did to the world. -/
inductive Change (w : World) : (o : Op) → Except Failure (Ans o) → World → Prop
  | create {dto table id} : w.table.create ⟨id, dto.origin, dto.label⟩ = some table →
      Change w (.create dto) (.ok ⟨id, dto.origin, dto.label⟩) (w.change table)
  | delete {id row} : w.table.find id = some row →
      Change w (.delete id) (.ok row) (w.change (w.table.delete id))
  | load : Change w .findMany (.ok ⟨w.table.rows, w.clock⟩) w
  | store {k origins} : Change w (.store k origins) (.ok ()) (w.setCache k ⟨some origins, w.clock⟩)
  | invalidate {k} : Change w (.invalidate k) (.ok ()) (w.setCache k { w.caches k with origins := none })
  | same {o r} : changed ⟨o, r⟩ = none → loads ⟨o, r⟩ = none → invalidates ⟨o, r⟩ = false → Change w o r w

variable {w w' : World} {o : Op} {ch : Choice} {r : Except Failure (Ans o)} {origin : String}

theorem exec_change (h : exec w o ch = (r, w')) : Change w o r w' := by
  cases o with
  | findByOrigin origin =>
      obtain rfl := mayFail_frame h
      exact .same rfl rfl rfl
  | create dto =>
      rcases mayFail_cases h with ⟨e, rfl, rfl⟩ | h
      · exact .same rfl rfl rfl
      · split at h
        · cases h
          exact .same rfl rfl rfl
        · rename_i ht
          cases h
          exact .create ht
  | delete id =>
      rcases mayFail_cases h with ⟨e, rfl, rfl⟩ | h
      · exact .same rfl rfl rfl
      · split at h
        · cases h
          exact .same rfl rfl rfl
        · rename_i hf
          cases h
          exact .delete hf
  | findMany =>
      rcases mayFail_cases h with ⟨e, rfl, rfl⟩ | h
      · exact .same rfl rfl rfl
      · cases h
        exact .load
  | peek k =>
      cases h
      exact .same rfl rfl rfl
  | store k origins =>
      cases h
      exact .store
  | invalidate k =>
      cases h
      exact .invalidate

theorem exec_clock (h : exec w o ch = (r, w')) : w'.clock = w.clock := by
  cases exec_change h <;> rfl

theorem exec_changed (h : exec w o ch = (r, w')) {present : Bool} (hc : changed ⟨o, r⟩ = some (origin, present)) :
    origin ∈ w'.table.origins ↔ present = true := by
  cases exec_change h with
  | create ht =>
      simp only [changed, Option.some.injEq, Prod.mk.injEq] at hc
      obtain ⟨rfl, rfl⟩ := hc
      simp [World.change, OriginTable.mem_create ht]
  | delete hf =>
      simp only [changed, Option.some.injEq, Prod.mk.injEq] at hc
      obtain ⟨rfl, rfl⟩ := hc
      simp [World.change, OriginTable.mem_delete hf]
  | same hn => simp [hn] at hc
  | load => simp [changed] at hc
  | store => simp [changed] at hc
  | invalidate => simp [changed] at hc

theorem exec_unchanged (h : exec w o ch = (r, w')) {i : Nat} (hc : changes origin ⟨⟨o, r⟩, i⟩ = false) :
    origin ∈ w'.table.origins ↔ origin ∈ w.table.origins := by
  cases exec_change h with
  | @create dto _ _ ht =>
      have hne : dto.origin ≠ origin := by simpa [changes, changed] using hc
      simp [World.change, OriginTable.mem_create ht, Ne.symm hne]
  | @delete _ row hf =>
      have hne : row.origin ≠ origin := by simpa [changes, changed] using hc
      simp [World.change, OriginTable.mem_delete hf, Ne.symm hne]
  | same => rfl
  | load => rfl
  | store => rfl
  | invalidate => rfl

theorem changed_of_changes {e : OriginEntry} (h : changes origin e = true) :
    ∃ present, changed e.toEvent = some (origin, present) := by
  obtain ⟨⟨origin', present⟩, hp, ho⟩ := (Option.any_eq_true _ _).mp h
  obtain rfl : origin' = origin := of_decide_eq_true ho
  exact ⟨present, hp⟩

/-! ## The course of one call -/

/-- The origins that an `isAllowed` call on instance `k` looks its origin up in. -/
def decidedBy (k : Nat) : Event Ans Failure → Option (List String)
  | ⟨.peek k', .ok (cache, now)⟩ => if k' = k then cache.fresh now else none
  | ⟨.store k' origins, .ok _⟩ => if k' = k then some origins else none
  | _ => none

namespace Call

/-- A call works on its own instance. It drops the cache after its change, and stores what it loaded. -/
def allowed (call : Call) (past : List (Event Ans Failure)) : Op → Prop
  | .create _ | .delete _ => ∀ e ∈ past, invalidates e = false
  | .invalidate k => k = call.node
  | .store k origins => k = call.node ∧ (∃ e ∈ past, ∃ s, loads e = some s) ∧
      ∀ e ∈ past, ∀ s, loads e = some s → origins = s.origins
  | _ => True

/-- How a call ends. -/
def final (call : Call) (past : List (Event Ans Failure)) : Except Failure Reply → Prop
  | .error _ => True
  | .ok reply =>
      match call with
      | .isAllowed k origin => ∃ past' e origins, past = past' ++ [e] ∧ decidedBy k e = some origins ∧
          reply = .answer (origins.contains origin)
      | _ => ∃ e ∈ past, invalidates e = true

def protocol (call : Call) : Protocol Ans Failure (List (Event Ans Failure)) where
  answers _ _ := True
  next := Protocol.record.next
  allowed := call.allowed

@[simp] theorem protocol_next (call : Call) (past : List (Event Ans Failure)) (e : Event Ans Failure) :
    call.protocol.next past e = past ++ [e] := rfl

end Call

theorem Call.body_follows (call : Call) : call.body.Follows call.protocol call.final [] := by
  cases call with
  | add k dto =>
      show ((AllowedOriginsService.add k dto).bind _).Follows _ _ _
      rw [follows_bind]
      refine .perform_bind trivial (fun existing _ => ?_) fun _ _ => trivial
      cases existing with
      | some _ => exact trivial
      | none =>
          refine .perform_bind (by simp [Call.protocol, Call.allowed, Protocol.record, invalidates]) (fun created _ => ?_)
            fun _ _ => trivial
          refine .perform_bind rfl (fun _ _ => ?_) fun _ _ => trivial
          exact ⟨⟨.invalidate k, .ok ()⟩, by simp, rfl⟩
  | remove k id =>
      show ((AllowedOriginsService.remove k id).bind _).Follows _ _ _
      rw [follows_bind]
      refine .perform_bind (by simp [Call.protocol, Call.allowed]) (fun removed _ => ?_) fun _ _ => trivial
      refine follows_perform.mpr ⟨rfl, fun r _ => ?_⟩
      cases r with
      | error _ => exact trivial
      | ok _ => exact ⟨⟨.invalidate k, .ok ()⟩, by simp, rfl⟩
  | isAllowed k origin =>
      show ((AllowedOriginsService.isAllowed k origin).bind _).Follows _ _ _
      rw [follows_bind]
      refine .perform_bind trivial (fun state _ => ?_) fun _ _ => trivial
      obtain ⟨cache, now⟩ := state
      dsimp only
      split
      · rename_i origins hf
        exact ⟨[], _, origins, rfl, by simp [decidedBy, hf], rfl⟩
      · refine .perform_bind trivial (fun s _ => ?_) fun _ _ => trivial
        refine .perform_bind ?_ (fun _ _ => ?_) fun _ _ => trivial
        · simp [Call.protocol, Call.allowed, Call.node, loads, Protocol.record]
        · exact ⟨_, _, s.origins, rfl, by simp [decidedBy], rfl⟩

/-! ## The table and the changes -/

variable {G : OriginGuard} {c c' : OriginConfig} {i k : Nat}

/-- A condition on configurations that holds along every run. -/
theorem originRun_recorded {I : OriginConfig → Prop} (h : originSystem.Run G (.start w) c) (h₀ : I (.start w))
    (hspawn : ∀ (c : OriginConfig) call, originSystem.Run G (.start w) c → I c →
      I ⟨c.world, c.threads ++ [⟨call, call.body⟩], c.log⟩)
    (hdrift : ∀ (c : OriginConfig) (ms : Nat), I c → I ⟨{ c.world with clock := c.world.clock + ms }, c.threads, c.log⟩)
    (hfire : ∀ (c : OriginConfig) i call o p ch r w', originSystem.Run G (.start w) c → I c →
      c.threads[i]? = some ⟨call, .op o p⟩ → call.allowed (c.past i) o → exec c.world o ch = (r, w') →
      G.event c ⟨⟨o, r⟩, i⟩ → I ⟨w', c.threads.set i ⟨call, p r⟩, c.log ++ [⟨⟨o, r⟩, i⟩]⟩) : I c := by
  refine h.recorded (R := Call.protocol) (fun _ => rfl) Call.body_follows (fun _ _ _ _ => trivial) h₀ ?_ hdrift ?_
  · rintro c call _ hrun hI ⟨⟩
    exact hspawn c call hrun hI
  · exact fun c i call o p ch r w' hrun hI hi ha hx _ he => hfire c i call o p ch r w' hrun hI hi ha hx he

theorem ended_final (h : originSystem.Run G (.start w) c) {call : Call} {r : Except Failure Reply}
    (hi : c.Ended i call r) : call.final (c.past i) r := by
  have := h.follows_past (R := Call.protocol) (fun _ => rfl) Call.body_follows (fun _ _ _ _ => trivial) hi
  cases r <;> exact this

theorem lastChange_append {log : List OriginEntry} {e : OriginEntry} :
    lastChange origin (log ++ [e]) = if changes origin e then some e else lastChange origin log := by
  cases h : changes origin e <;> simp [lastChange, h]

theorem lastChange_quiet {log t : List OriginEntry} (h : ∀ e ∈ t, changes origin e = false) :
    lastChange origin (log ++ t) = lastChange origin log := by
  have : t.reverse.find? (changes origin) = none := by
    simpa using h
  simp [lastChange, this]

/-- The table is as the last change of an origin says, and so is every load since. -/
structure UpToDate (origin : String) (c : OriginConfig) : Prop where
  table : ∀ l present, lastChange origin c.log = some l → changed l.toEvent = some (origin, present) →
    (origin ∈ c.world.table.origins ↔ present = true)
  loads : ∀ e ∈ since (changes origin) c.log, ∀ s, loads e.toEvent = some s →
    (origin ∈ s.origins ↔ origin ∈ c.world.table.origins)

theorem exec_loads (h : exec w o ch = (r, w')) {s : Snapshot} (hs : loads ⟨o, r⟩ = some s) :
    s.origins = w.table.origins ∧ s.takenAt = w.clock ∧ w' = w := by
  cases exec_change h with
  | load =>
      cases hs
      exact ⟨rfl, rfl, rfl⟩
  | same _ hn => simp [hn] at hs
  | create => simp [Origins.loads] at hs
  | delete => simp [Origins.loads] at hs
  | store => simp [Origins.loads] at hs
  | invalidate => simp [Origins.loads] at hs

theorem run_upToDate (h : originSystem.Run G (.start w) c) : UpToDate origin c := by
  refine originRun_recorded h ?_ (fun _ _ _ hI => ⟨hI.table, hI.loads⟩) (fun _ _ hI => ⟨hI.table, hI.loads⟩) ?_
  · constructor <;> simp [Config.start, lastChange, since]
  · intro c i call o p ch r w' _ hI _ _ hx _
    cases hc : changes origin ⟨⟨o, r⟩, i⟩ with
    | true =>
        constructor
        · intro l present hl hp
          simp only [lastChange_append, hc, if_true, Option.some.injEq] at hl
          subst hl
          exact exec_changed hx hp
        · simp [since_append, hc]
    | false =>
        constructor
        · intro l present hl hp
          simp only [lastChange_append, hc] at hl
          rw [exec_unchanged hx hc]
          exact hI.table l present hl hp
        · intro e he s hs
          simp only [since_append, hc] at he
          rw [exec_unchanged hx hc]
          rcases List.mem_cons.mp he with rfl | he
          · rw [(exec_loads hx hs).1]
          · exact hI.loads e he s hs

/-! ## A cache after a change on its instance -/

/-- When the last change of the origin came from the instance and the cache was dropped for it, the cache is
as the table says. -/
def Settled (origin : String) (k : Nat) (c : OriginConfig) : Prop :=
  settledOn origin k c = true → ∀ origins, (c.world.caches k).origins = some origins →
    (origin ∈ origins ↔ origin ∈ c.world.table.origins)

theorem settledOn_spawn {th : Thread Ans Failure Reply Call} (h : originSystem.Run G (.start w) c) :
    settledOn origin k ⟨c.world, c.threads ++ [th], c.log⟩ = settledOn origin k c := by
  have hpast : ∀ i, (⟨c.world, c.threads ++ [th], c.log⟩ : OriginConfig).past i = c.past i := fun _ => rfl
  cases hl : lastChange origin c.log with
  | none => simp [settledOn, hl]
  | some l =>
      have hmem : l ∈ c.log := by
        have := List.mem_of_find?_eq_some hl
        simpa using this
      simp [settledOn, hl, hpast, callOf_append (h.log_tid l hmem)]

/-- A load that is not overtaken has seen the last change of the origin. -/
theorem not_overtaken_agrees (h : originSystem.Run G (.start w) c) {call : Call} {origins : List String}
    {r : Except Failure Unit} (ha : call.allowed (c.past i) (.store k origins))
    (hg : overtaken origin c ⟨⟨.store k origins, r⟩, i⟩ = false)
    (hs : settledOn origin k c = true) : origin ∈ origins ↔ origin ∈ c.world.table.origins := by
  simp only [overtaken, hs, Bool.true_and, List.all_eq_false, Bool.not_eq_true, Bool.not_eq_false',
    Bool.and_eq_true, decide_eq_true_eq] at hg
  obtain ⟨x, hx, htid, hload⟩ := hg
  obtain ⟨s, hs⟩ := Option.isSome_iff_exists.mp hload
  have hmem : x ∈ c.log := by
    have := (List.takeWhile_sublist _).subset hx
    simpa using this
  rw [ha.2.2 _ (mem_past.mpr ⟨x, hmem, htid, rfl⟩) s hs]
  exact (run_upToDate h).loads x hx s hs

theorem settledOn_iff {l : OriginEntry} (hl : lastChange origin c.log = some l) :
    settledOn origin k c = true ↔ (c.callOf l.tid).any (·.node = k) = true ∧ ∃ e ∈ c.past l.tid, invalidates e = true := by
  simp [settledOn, hl]

theorem settledOn_fire {call : Call} {p : Except Failure (Ans o) → OriginProg Reply}
    (hi : c.threads[i]? = some ⟨call, .op o p⟩) (ha : call.allowed (c.past i) o)
    (hs : settledOn origin k ⟨w', c.threads.set i ⟨call, p r⟩, c.log ++ [⟨⟨o, r⟩, i⟩]⟩ = true) :
    changes origin ⟨⟨o, r⟩, i⟩ = false ∧
      (settledOn origin k c = true ∨ (invalidates ⟨o, r⟩ = true ∧ call.node = k)) := by
  obtain ⟨l, hl, _⟩ := (Option.any_eq_true _ _).mp hs
  obtain ⟨hnode, e, he, hinv⟩ := (settledOn_iff hl).mp hs
  rw [callOf_set hi] at hnode
  rw [past_append] at he
  rw [lastChange_append] at hl
  cases hc : changes origin ⟨⟨o, r⟩, i⟩ with
  | true =>
      -- a call changes the table before it drops the cache
      obtain ⟨present, hp⟩ := changed_of_changes hc
      simp only [hc, if_true, Option.some.injEq] at hl
      subst hl
      simp only [if_true, List.mem_append, List.mem_singleton] at he
      cases o <;> first | cases hp | skip
      all_goals
        rcases he with he | rfl
        · simp [ha e he] at hinv
        · simp [invalidates] at hinv
  | false =>
      refine ⟨rfl, ?_⟩
      simp only [hc] at hl
      rcases List.mem_append.mp he with he | he
      · exact .inl ((settledOn_iff hl).mpr ⟨hnode, e, he, hinv⟩)
      · split at he
        · rename_i hil
          obtain rfl := List.mem_singleton.mp he
          subst hil
          exact .inr ⟨hinv, by simpa [Config.callOf, hi] using hnode⟩
        · simp at he

theorem run_settled (h : originSystem.Run (notOvertaken origin) (.start w) c) : Settled origin k c := by
  refine originRun_recorded h (by simp [Settled, settledOn, lastChange, Config.start]) ?_ (fun _ _ hI => hI) ?_
  · intro c call hrun hI hs
    rw [settledOn_spawn hrun] at hs
    exact hI hs
  · intro c i call o p ch r w' hrun hI hi ha hx hg hs origins ho
    obtain ⟨hc, hset⟩ := settledOn_fire hi ha hs
    clear hs
    rw [exec_unchanged hx hc]
    have onward : w'.caches k = c.world.caches k → settledOn origin k c = true →
        (origin ∈ origins ↔ origin ∈ c.world.table.origins) := fun hk hs => hI hs origins (hk ▸ ho)
    cases exec_change hx with
    | @invalidate k' =>
        by_cases hk : k' = k
        · simp [World.setCache, hk] at ho
        · have hnode : k' = call.node := ha
          exact onward (Function.update_of_ne (Ne.symm hk) ..) (hset.resolve_right fun hn => hk (hnode.trans hn.2))
    | @store k' origins' =>
        have hs : settledOn origin k c = true := by simpa [invalidates] using hset
        by_cases hk : k' = k
        · subst hk
          simp only [World.setCache, Function.update_self, Option.some.injEq] at ho
          subst ho
          exact not_overtaken_agrees hrun ha hg hs
        · exact onward (Function.update_of_ne (Ne.symm hk) ..) hs
    | create => exact onward rfl (by simpa [invalidates] using hset)
    | delete => exact onward rfl (by simpa [invalidates] using hset)
    | load => exact onward rfl (by simpa [invalidates] using hset)
    | same _ _ hn => exact onward rfl (by simpa [hn] using hset)

/-! ## The age of a cache -/

/-- The table held what the instances know: a load from the time of its rows, a cache from `delay` before it
was stored. -/
structure Aged (delay : Int) (c : OriginConfig) : Prop where
  past : ∀ era ∈ c.world.past, era.ended ≤ c.world.clock
  loads : ∀ e ∈ c.log, ∀ s, loads e.toEvent = some s → c.world.Held s.takenAt s.origins
  caches : ∀ k origins, (c.world.caches k).origins = some origins →
    c.world.Held ((c.world.caches k).cachedAt - delay) origins

theorem World.Held.mono {lo lo' : Int} {origins : List String} (h : w.Held lo origins) (hle : lo' ≤ lo) :
    w.Held lo' origins := by
  rcases h with ⟨h, ho⟩ | ⟨era, he, ho, h, h'⟩
  · exact .inl ⟨by omega, ho⟩
  · exact .inr ⟨era, he, ho, by omega, h'⟩

theorem World.Held.drift {lo : Int} {origins : List String} (h : w.Held lo origins) (ms : Nat) :
    ({ w with clock := w.clock + ms } : World).Held lo origins := by
  rcases h with ⟨h, ho⟩ | ⟨era, he, ho, h, h'⟩
  · refine .inl ⟨?_, ho⟩
    show lo ≤ w.clock + ms
    omega
  · refine .inr ⟨era, he, ho, h, ?_⟩
    show era.ended ≤ w.clock + ms
    omega

theorem World.Held.change {lo : Int} {origins : List String} (h : w.Held lo origins) (table : OriginTable) :
    (w.change table).Held lo origins := by
  rcases h with ⟨h, ho⟩ | ⟨era, he, ho, h, h'⟩
  · exact .inr ⟨⟨w.table.origins, w.clock⟩, by simp [World.change], ho, h, Int.le_refl _⟩
  · exact .inr ⟨era, by simp [World.change, he], ho, h, h'⟩

theorem World.Held.exec {lo : Int} {origins : List String} (h : w.Held lo origins) (hx : exec w o ch = (r, w')) :
    w'.Held lo origins := by
  cases exec_change hx with
  | create => exact h.change _
  | delete => exact h.change _
  | load => exact h
  | store => exact h
  | invalidate => exact h
  | same => exact h

theorem exec_past (hx : exec w o ch = (r, w')) :
    w'.past = w.past ∨ w'.past = w.past ++ [⟨w.table.origins, w.clock⟩] := by
  cases exec_change hx with
  | create => exact .inr rfl
  | delete => exact .inr rfl
  | load => exact .inl rfl
  | store => exact .inl rfl
  | invalidate => exact .inl rfl
  | same => exact .inl rfl

theorem not_delayed_held {delay : Int} (hI : Aged delay c) {call : Call} {origins : List String}
    {r : Except Failure Unit} (ha : call.allowed (c.past i) (.store k origins))
    (hg : delayed delay c ⟨⟨.store k origins, r⟩, i⟩ = false) : c.world.Held (c.world.clock - delay) origins := by
  obtain ⟨_, ⟨e, he, s, hs⟩, hall⟩ := ha
  obtain ⟨l, hl, _, rfl⟩ := mem_past.mp he
  have hle : ¬ delay < c.world.clock - s.takenAt := by
    simpa using List.any_eq_false.mp hg s (List.mem_filterMap.mpr ⟨_, he, hs⟩)
  rw [hall _ he s hs]
  exact (hI.loads l hl s hs).mono (by omega)

theorem run_aged {delay : Int} (h : originSystem.Run (storedWithin delay) (.start w) c) (hw : w.Fresh) :
    Aged delay c := by
  refine originRun_recorded h ?_ (fun _ _ _ hI => ⟨hI.past, hI.loads, hI.caches⟩) ?_ ?_
  · constructor
    · simp [Config.start, hw.past]
    · simp [Config.start]
    · simp [Config.start, hw.caches]
  · intro c ms hI
    refine ⟨fun era he => ?_, fun e he s hs => (hI.loads e he s hs).drift ms, fun k origins ho =>
      (hI.caches k origins ho).drift ms⟩
    have := hI.past era he
    show era.ended ≤ c.world.clock + ms
    omega
  · intro c i call o p ch r w' _ hI _ ha hx hg
    have hclock := exec_clock hx
    have onward : ∀ k origins, w'.caches k = c.world.caches k → (w'.caches k).origins = some origins →
        w'.Held ((w'.caches k).cachedAt - delay) origins := by
      intro k origins hk ho
      rw [hk] at ho ⊢
      exact (hI.caches k origins ho).exec hx
    refine ⟨fun era he => ?_, fun e he s hs => ?_, fun k origins ho => ?_⟩
    · rcases exec_past hx with hp | hp
      · rw [hclock]
        exact hI.past era (hp ▸ he)
      · rw [hp] at he
        rw [hclock]
        rcases List.mem_append.mp he with he | he
        · exact hI.past era he
        · simp [List.mem_singleton.mp he]
    · rcases List.mem_append.mp he with he | he
      · exact (hI.loads e he s hs).exec hx
      · obtain rfl := List.mem_singleton.mp he
        obtain ⟨ho, ht, rfl⟩ := exec_loads hx hs
        exact .inl ⟨Int.le_of_eq ht, ho.symm⟩
    · cases exec_change hx with
      | @invalidate k' =>
          by_cases hk : k' = k
          · simp [World.setCache, hk] at ho
          · exact onward k origins (Function.update_of_ne (Ne.symm hk) ..) ho
      | @store k' origins' =>
          by_cases hk : k' = k
          · subst hk
            simp only [World.setCache, Function.update_self, Option.some.injEq] at ho ⊢
            subst ho
            exact (not_delayed_held hI ha hg).exec hx
          · exact onward k origins (Function.update_of_ne (Ne.symm hk) ..) ho
      | create => exact onward k origins rfl ho
      | delete => exact onward k origins rfl ho
      | load => exact onward k origins rfl ho
      | same => exact onward k origins rfl ho

theorem run_unchanged (h : originSystem.Run G c c') {t : List OriginEntry} (ht : c'.log = c.log ++ t)
    (hq : ∀ e ∈ t, changes origin e = false) :
    (origin ∈ c'.world.table.origins ↔ origin ∈ c.world.table.origins) ∧
      ∀ era ∈ c'.world.past, era ∈ c.world.past ∨ (origin ∈ era.origins ↔ origin ∈ c.world.table.origins) := by
  induction h generalizing t with
  | refl => exact ⟨Iff.rfl, fun _ he => .inl he⟩
  | @tail c₁ c₂ hrun hs ih =>
      cases hs with
      | spawn _ ha =>
          cases ha
          exact ih ht hq
      | @fire i _ o _ ch r _ _ hx _ =>
          obtain ⟨t₁, ht₁⟩ := hrun.log_grows
          have hlog : t = t₁ ++ [⟨⟨o, r⟩, i⟩] := by simpa [← ht₁] using ht.symm
          subst hlog
          obtain ⟨htable, hpast⟩ := ih ht₁.symm fun e he => hq e (List.mem_append_left _ he)
          refine ⟨(exec_unchanged hx (hq ⟨⟨o, r⟩, i⟩ (by simp))).trans htable, fun era he => ?_⟩
          rcases exec_past hx with hp | hp
          · exact hpast era (hp ▸ he)
          · rw [hp] at he
            rcases List.mem_append.mp he with he | he
            · exact hpast era he
            · rw [List.mem_singleton.mp he]
              exact .inr htable
      | drift _ => exact ih ht hq

end CoachingCalendar.Origins
