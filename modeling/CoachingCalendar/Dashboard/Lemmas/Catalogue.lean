import CoachingCalendar.Dashboard.Catalogue
import CoachingCalendar.Dashboard.Lemmas.Statements
import CoachingCalendar.Lib.Sorting

/-! # What calls do to the catalogue -/

namespace CoachingCalendar
open Lib Lib.Prog

variable {d d' : Db} {coachId : String} {ids : List String}

/-! ## Positions -/

theorem mem_catalogue {e : EventType} : e ∈ d.catalogue coachId ↔ e ∈ d.eventTypes ∧ e.coachId = coachId := by
  simp [Db.catalogue, Table.mem_findMany]

/-- Where a reordering from position `k` on puts an event type. -/
def EventType.placed (ids : List String) (k : Nat) (e : EventType) : EventType :=
  if e.id ∈ ids then { e with position := ((k + ids.idxOf e.id : Nat) : Int) } else e

@[simp] theorem EventType.placed_id (k : Nat) (e : EventType) : (e.placed ids k).id = e.id := by
  unfold placed; split <;> rfl

@[simp] theorem EventType.placed_coachId (k : Nat) (e : EventType) : (e.placed ids k).coachId = e.coachId := by
  unfold placed; split <;> rfl

theorem EventType.placed_cons {id : String} (k : Nat) (e : EventType) (hid : id ∉ ids) :
    EventType.placed ids (k + 1) (if e.id = id then { e with position := (k : Int) } else e) = e.placed (id :: ids) k := by
  by_cases he : e.id = id
  · subst he
    simp [placed, hid]
  · simp only [placed, he, if_false, List.mem_cons, false_or, List.idxOf_cons_ne _ (Ne.symm he)]
    split
    · congr 2
      omega
    · rfl

theorem reorder_rows {k : Nat} (hids : ids.Nodup) (h : Db.reorder (ids.zipIdx k) d = .ok d') :
    d'.eventTypes.rows = d.eventTypes.rows.map (EventType.placed ids k) := by
  induction ids generalizing d k with
  | nil =>
      cases h
      exact (List.map_id'' (fun e => by simp [EventType.placed]) _).symm
  | cons id ids ih =>
      rw [List.nodup_cons] at hids
      simp only [List.zipIdx_cons, Db.reorder, bind_eq_ok, setPosition_ok] at h
      obtain ⟨_, ⟨_, rfl⟩, h⟩ := h
      rw [ih hids.2 h]
      simp only [Table.update, List.map_map]
      exact List.map_congr_left fun e _ => EventType.placed_cons k e hids.1

theorem reorder_catalogue (hids : ids.Nodup) (h : Db.reorder ids.zipIdx d = .ok d') :
    d'.catalogue coachId = (d.catalogue coachId).map (EventType.placed ids 0) := by
  unfold Db.catalogue Table.findMany
  rw [reorder_rows hids h, List.filter_map]
  congr 2
  funext e
  simp

theorem ids_nodup (h : d.Owns coachId ids) : ids.Nodup :=
  (Table.keys_perm h).nodup_iff.mp (d.eventTypes.nodup.sublist (List.filter_sublist.map _))

theorem mem_of_owns (h : d.Owns coachId ids) {id : String} (hid : id ∈ ids) : id ∈ (d.catalogue coachId).map (·.id) := by
  obtain ⟨e, he, rfl⟩ := List.mem_map.mp ((Table.keys_perm h).mem_iff.mpr hid)
  rw [Table.mem_findMany, Bool.and_eq_true, decide_eq_true_eq] at he
  exact List.mem_map_of_mem (mem_catalogue.mpr ⟨he.1, he.2.2⟩)

/-! ## What a call can do -/

namespace Dashboard

variable {coach : Coach} {w : World} {P : Platform} {toDateOnly : String → Option Int}

/-- What a call leaves of the event types. -/
inductive Changed (coachId : String) (d : Db) : Request → Except Failure Response → Db → Prop
  | failed {request e d'} : d'.eventTypes = d.eventTypes → Changed coachId d request (.error e) d'
  | created {dto d'} {e : EventType} : d.eventTypes.insert e = some d'.eventTypes → e.coachId = coachId →
      (∀ x ∈ d.catalogue coachId, x.position < e.position) →
      Changed coachId d (.eventTypeCreate dto) (.ok (.eventType e)) d'
  | archived {id k a d'} {patch : EventTypePatch} : patch.position = none →
      d'.eventTypes = d.eventTypes.update k patch.apply (fun _ => rfl) →
      Changed coachId d (.eventTypeArchive id) (.ok a) d'
  | removed {id k a d'} : d'.eventTypes = d.eventTypes.delete k →
      Changed coachId d (.eventTypeRemove id) (.ok a) d'
  | reordered {ids a d'} : d.Owns coachId ids → Db.reorder ids.zipIdx d = .ok d' →
      Changed coachId d (.eventTypeReorder ids) (.ok a) d'

/-- The end of a lookup. -/
def looked {α : Type} (w : World) (Q : α → Prop) (r : Except Failure α) (w' : World) : Prop :=
  w' = w ∧ ∀ a, r = .ok a → Q a

theorem look_ends {o : Op} (look : Ans o) (hexec : ∀ ch, exec w o ch = mayFail ch.fault w (.ok look, w)) :
    Ends exec (perform o) w (looked w (· = look)) := by
  refine .perform fun ch => ?_
  rw [hexec]
  cases ch.fault with
  | some e => exact ⟨rfl, fun _ h => nomatch h⟩
  | none => exact ⟨rfl, fun _ h => (Except.ok.inj h).symm⟩

theorem write_ends {s : Statement} : Ends exec (perform (Op.write s)) w fun r w' =>
    match r with
    | .ok a => ∃ newId, Applied newId w.db s a w'.db
    | .error _ => w' = w := by
  refine .perform fun ch => ?_
  simp only [exec, mayFail]
  cases ch.fault with
  | some e => rfl
  | none =>
      cases ha : w.db.apply ch.newId s with
      | error e => rfl
      | ok x => exact ⟨_, apply_ok ha⟩

theorem assertOwnership_ends {id : String} : Ends exec (EventTypesService.assertOwnership coach id) w
    (looked w fun _ => True) := by
  have lookup : Ends exec (perform (Op.booking (.eventTypeFindUnique id))) w
      (looked w (· = w.db.eventTypes.find id)) := look_ends _ fun _ => unlessFault_eq _
  refine lookup.bind (fun row w₁ h => ?_) fun e w₁ h => ⟨h.1, fun _ h => nomatch h⟩
  obtain rfl := h.1
  unfold assertCoachOwnsOrIsAdmin
  split
  · exact .throw ⟨rfl, fun _ h => nomatch h⟩
  · split
    · exact .throw ⟨rfl, fun _ h => nomatch h⟩
    · exact .pure ⟨rfl, fun _ _ => trivial⟩

theorem nextPosition_ends : Ends exec (EventTypesService.nextPosition coach.id) w
    (looked w fun position => ∀ x ∈ w.db.catalogue coach.id, x.position < position) := by
  have lookup : Ends exec (perform (Op.eventTypeMaxPosition coach.id)) w
      (looked w (· = ((w.db.catalogue coach.id).map (·.position)).max?)) := look_ends _ fun _ => rfl
  refine lookup.bind (fun last w₁ h => ?_) fun e w₁ h => ⟨h.1, fun _ h => nomatch h⟩
  obtain ⟨rfl, hlast⟩ := h
  refine .pure ⟨rfl, fun position hp x hx => ?_⟩
  cases hp
  have hmem : x.position ∈ (w₁.db.catalogue coach.id).map (·.position) := List.mem_map_of_mem hx
  rw [hlast last rfl]
  cases hmax : ((w₁.db.catalogue coach.id).map (·.position)).max? with
  | none =>
      rw [List.max?_eq_none_iff.mp hmax] at hmem
      cases hmem
  | some m =>
      have hle := (List.max?_eq_some_iff.mp hmax).2 _ hmem
      exact Int.lt_add_one_of_le hle

/-- The end of a call without its answer. -/
def changed (coachId : String) (d : Db) (request : Request) {α : Type} (f : α → Response) (r : Except Failure α)
    (w' : World) : Prop :=
  Changed coachId d request (r.map f) w'.db

theorem create_ends {dto : CreateEventTypeDto} (h : dto.position = none) :
    Ends exec (EventTypesService.create coach dto) w (changed coach.id w.db (.eventTypeCreate dto) .eventType) := by
  unfold EventTypesService.create
  rw [h]
  refine nextPosition_ends.bind (fun position w₁ hn => ?_) fun e w₁ hn => .failed (by rw [hn.1])
  obtain ⟨rfl, hpos⟩ := hn
  refine write_ends.mono fun r w' hr => ?_
  unfold changed
  cases r with
  | error e => exact .failed (by rw [show w' = w₁ from hr])
  | ok e =>
      obtain ⟨newId, ha⟩ := hr
      generalize w'.db = d at ha
      cases ha with
      | eventTypeCreate _ hi => exact .created hi rfl (hpos position rfl)

theorem archive_ends {id : String} :
    Ends exec (EventTypesService.archive coach id) w (changed coach.id w.db (.eventTypeArchive id) .eventType) := by
  unfold EventTypesService.archive
  refine assertOwnership_ends.bind (fun e w₁ h => ?_) fun _ _ h => .failed (by rw [h.1])
  obtain rfl := h.1
  refine write_ends.mono fun r w' hr => ?_
  unfold changed
  cases r with
  | error e => exact .failed (by rw [show w' = w₁ from hr])
  | ok a =>
      obtain ⟨newId, ha⟩ := hr
      generalize w'.db = d at ha
      cases ha with
      | eventTypeUpdate _ _ => exact .archived rfl rfl

theorem remove_ends {id : String} :
    Ends exec (EventTypesService.remove coach id) w (changed coach.id w.db (.eventTypeRemove id) fun _ => .done) := by
  unfold EventTypesService.remove
  refine assertOwnership_ends.bind (fun e w₁ h => ?_) fun _ _ h => .failed (by rw [h.1])
  obtain rfl := h.1
  intro env t
  rw [tryCatch_eq, run_orElse]
  have h := (write_ends (s := .eventTypeDelete e.id) : Ends _ _ w₁ _) env t
  generalize Prog.run exec env (perform (Op.write (.eventTypeDelete e.id))) w₁ t = out at h
  obtain ⟨_ | a, w', t'⟩ := out
  · obtain rfl : w' = w₁ := h
    dsimp only
    split <;> exact .failed rfl
  · obtain ⟨newId, ha⟩ := h
    dsimp only at ha ⊢
    unfold changed
    generalize w'.db = d at ha
    cases ha with
    | eventTypeDelete _ => exact .removed rfl

theorem reorder_ends :
    Ends exec (EventTypesService.reorder coach ids) w (changed coach.id w.db (.eventTypeReorder ids) fun _ => .done) := by
  unfold EventTypesService.reorder
  have lookup : Ends exec (perform (Op.eventTypeFindOwned ids coach.id)) w
      (looked w (· = w.db.eventTypes.findMany fun e => ids.contains e.id && e.coachId = coach.id)) :=
    look_ends _ fun _ => rfl
  refine lookup.bind (fun owned w₁ h => ?_) fun _ _ h => .failed (by rw [h.1])
  obtain ⟨rfl, howned⟩ := h
  dsimp only
  split
  · exact .throw (.failed rfl)
  · rename_i hlen
    refine write_ends.mono fun r w' hr => ?_
    unfold changed
    cases r with
    | error e => exact .failed (by rw [show w' = w₁ from hr])
    | ok a =>
        obtain ⟨newId, ha⟩ := hr
        generalize w'.db = d at ha
        rw [howned owned rfl] at hlen
        cases ha with
        | eventTypeReorder hr => exact .reordered (not_not.mp hlen) hr

theorem Request.changed {request : Request} (h : request.onCatalogue = true) :
    Ends exec (request.body P toDateOnly coach) w fun r w' => Changed coach.id w.db request r w'.db := by
  cases request with
  | eventTypeCreate dto =>
      exact (create_ends (by simpa [onCatalogue] using h)).bind (fun _ _ hc => .pure hc) fun _ _ hc => hc
  | eventTypeArchive id => exact archive_ends.bind (fun _ _ hc => .pure hc) fun _ _ hc => hc
  | eventTypeRemove id => exact remove_ends.bind (fun _ _ hc => .pure hc) fun _ _ hc => hc
  | eventTypeReorder ids => exact reorder_ends.bind (fun _ _ hc => .pure hc) fun _ _ hc => hc
  | _ => cases h

/-! ## Distinct positions -/

theorem catalogue_insert {e : EventType} (h : d.eventTypes.insert e = some d'.eventTypes) (he : e.coachId = coachId) :
    d'.catalogue coachId = d.catalogue coachId ++ [e] := by
  simp [Db.catalogue, Table.findMany, (Table.insert_some h).2, he]

theorem catalogue_delete {k : String} (h : d'.eventTypes = d.eventTypes.delete k) :
    (d'.catalogue coachId).Sublist (d.catalogue coachId) := by
  simp only [Db.catalogue, Table.findMany, h, Table.delete]
  exact List.filter_sublist.filter _

theorem positions_update {k : String} {patch : EventTypePatch} (hp : patch.position = none)
    (h : d'.eventTypes = d.eventTypes.update k patch.apply fun _ => rfl) :
    (d'.catalogue coachId).map (·.position) = (d.catalogue coachId).map (·.position) := by
  have hrow : ∀ e : EventType, (if e.id = k then patch.apply e else e).coachId = e.coachId ∧
      (if e.id = k then patch.apply e else e).position = e.position := by
    intro e
    split <;> simp [EventTypePatch.apply, hp]
  simp only [Db.catalogue, Table.findMany, h, Table.update, List.filter_map, List.map_map]
  refine congr (congrArg _ (funext fun e => (hrow e).2)) (congrArg (List.filter · _) (funext fun e => ?_))
  simp [hrow]

/-- A reordering gives each id a position of its own, apart from those of the event types it leaves out. -/
theorem placed_inj (hd : d.Ordered coachId)
    (hc : ∀ e ∈ d.catalogue coachId, e.id ∉ ids → ¬ (0 ≤ e.position ∧ e.position < ids.length)) :
    ∀ x ∈ d.catalogue coachId, ∀ y ∈ d.catalogue coachId,
      (x.placed ids 0).position = (y.placed ids 0).position → x = y := by
  intro x hx y hy h
  by_cases hxi : x.id ∈ ids <;> by_cases hyi : y.id ∈ ids <;>
    simp only [EventType.placed, hxi, hyi, if_true, if_false, Nat.zero_add, Int.natCast_inj] at h
  · exact Table.eq_of_key (mem_catalogue.mp hx).1 (mem_catalogue.mp hy).1 ((List.idxOf_inj hxi).mp h)
  · have := List.idxOf_lt_length_of_mem hxi
    exact (hc y hy hyi ⟨by omega, by omega⟩).elim
  · have := List.idxOf_lt_length_of_mem hyi
    exact (hc x hx hxi ⟨by omega, by omega⟩).elim
  · exact List.inj_on_of_nodup_map hd hx hy h

theorem Changed.ordered {request : Request} {r : Except Failure Response} (h : Changed coachId d request r d')
    (hd : d.Ordered coachId)
    (hc : ∀ ids, request = .eventTypeReorder ids → d.Owns coachId ids →
      ∀ e ∈ d.catalogue coachId, e.id ∉ ids → ¬ (0 ≤ e.position ∧ e.position < ids.length)) :
    d'.Ordered coachId := by
  unfold Db.Ordered
  cases h with
  | failed ht => rwa [Db.catalogue, ht]
  | created hi he hpos =>
      rw [catalogue_insert hi he, List.map_append, List.map_singleton, List.nodup_append]
      refine ⟨hd, List.nodup_singleton _, fun a ha b hb hab => ?_⟩
      obtain ⟨x, hx, rfl⟩ := List.mem_map.mp ha
      rw [List.mem_singleton.mp hb] at hab
      exact absurd hab (Int.ne_of_lt (hpos x hx))
  | archived hp hu => rwa [positions_update hp hu]
  | removed hu => exact List.Nodup.sublist ((catalogue_delete hu).map _) hd
  | @reordered ids _ _ ho hr =>
      rw [reorder_catalogue (ids_nodup ho) hr, List.map_map]
      exact List.Nodup.map_on (placed_inj hd (hc ids rfl ho))
        (List.Nodup.of_map _ hd)

/-! ## The list -/

/-- The order of `findMine`. -/
def listedBefore (a b : EventType) : Bool := a.position < b.position || (a.position = b.position && a.title ≤ b.title)

theorem listedBefore_trans (a b c : EventType) (h : listedBefore a b) (h' : listedBefore b c) : listedBefore a c := by
  simp only [listedBefore, Bool.or_eq_true, Bool.and_eq_true, decide_eq_true_eq] at *
  rcases h with h | ⟨h, ht⟩ <;> rcases h' with h' | ⟨h', ht'⟩
  · exact .inl (Int.lt_trans h h')
  · exact .inl (h' ▸ h)
  · exact .inl (h ▸ h')
  · exact .inr ⟨h.trans h', String.le_trans ht ht'⟩

theorem listedBefore_total (a b : EventType) : listedBefore a b || listedBefore b a := by
  simp only [listedBefore, Bool.or_eq_true, Bool.and_eq_true, decide_eq_true_eq]
  rcases Int.lt_trichotomy a.position b.position with h | h | h
  · exact .inl (.inl h)
  · rcases String.le_total a.title b.title with ht | ht
    · exact .inl (.inr ⟨h, ht⟩)
    · exact .inr (.inr ⟨h.symm, ht⟩)
  · exact .inr (.inl h)

theorem position_le_of_listedBefore {a b : EventType} (h : listedBefore a b) : a.position ≤ b.position := by
  simp only [listedBefore, Bool.or_eq_true, Bool.and_eq_true, decide_eq_true_eq] at h
  rcases h with h | ⟨h, _⟩
  · exact Int.le_of_lt h
  · exact Int.le_of_eq h

theorem mine_eq : mine w coachId = .ok ((w.db.catalogue coachId).mergeSort listedBefore) := rfl

theorem mine_last {e : EventType} (he : e ∈ w.db.catalogue coachId)
    (hmax : ∀ x ∈ w.db.catalogue coachId, x ≠ e → x.position < e.position) :
    ∃ rows, mine w coachId = .ok rows ∧ rows.getLast? = some e := by
  refine ⟨_, mine_eq, getLast?_mergeSort listedBefore_trans listedBefore_total he fun x hx hne => ?_⟩
  have := hmax x hx hne
  rw [Bool.eq_false_iff]
  exact fun hle => absurd (position_le_of_listedBefore hle) (Int.not_le.mpr this)

theorem mine_in_order (ho : d.Owns coachId ids)
    (hw : w.db.catalogue coachId = (d.catalogue coachId).map (EventType.placed ids 0)) :
    ∃ rows, mine w coachId = .ok rows ∧ (rows.map (·.id)).filter (ids.contains ·) = ids := by
  have hperm := (List.mergeSort_perm (w.db.catalogue coachId) listedBefore).map (·.id)
  have hkeys : (w.db.catalogue coachId).map (·.id) = (d.catalogue coachId).map (·.id) := by
    rw [hw, List.map_map]
    exact List.map_congr_left fun e _ => EventType.placed_id 0 e
  refine ⟨_, mine_eq, map_filter_eq_keys (ids_nodup ho) ?_ (fun id hid => ?_) ?_⟩
  · rw [hperm.nodup_iff]
    exact w.db.eventTypes.nodup.sublist (List.filter_sublist.map _)
  · rw [hperm.mem_iff, hkeys]
    exact mem_of_owns ho hid
  · -- the positions of the ids are their places in the list
    have hplace : ∀ e ∈ w.db.catalogue coachId, e.id ∈ ids → e.position = (ids.idxOf e.id : Int) := by
      intro e he hid
      rw [hw] at he
      obtain ⟨x, _, rfl⟩ := List.mem_map.mp he
      rw [EventType.placed_id] at hid ⊢
      simp [EventType.placed, hid]
    refine (List.pairwise_mergeSort listedBefore_trans listedBefore_total _).imp_of_mem fun ha hb hle hai hbi => ?_
    have := position_le_of_listedBefore hle
    rw [hplace _ (List.mem_mergeSort.mp ha) hai, hplace _ (List.mem_mergeSort.mp hb) hbi] at this
    exact Int.ofNat_le.mp this

theorem Changed.orderly {s : Served} (h : Changed coachId s.before.db s.request s.outcome.result s.outcome.world.db) :
    s.Orderly coachId := by
  obtain ⟨before, request, result, after, t⟩ := s
  refine ⟨fun dto e hq hr => ?_, fun ids a hq hr => ?_, fun ids e hq hr => ?_⟩ <;> dsimp only at h hq hr ⊢ <;>
    subst hq hr
  · cases h with
    | created hi he hpos =>
        have hcat := catalogue_insert hi he
        refine mine_last (by simp [hcat]) fun x hx hne => ?_
        rw [hcat, List.mem_append, List.mem_singleton] at hx
        exact hpos x (hx.resolve_right hne)
  · cases h with
    | reordered ho hr => exact mine_in_order ho (reorder_catalogue (ids_nodup ho) hr)
  · cases h with
    | failed ht => exact ht

end Dashboard

end CoachingCalendar
