import CoachingCalendar.Dashboard.Lemmas.Isolation
import CoachingCalendar.Dashboard.Owners

/-! # Rows keep their owners -/

namespace CoachingCalendar
open Lib Lib.Table Lib.System

/-! ## One table -/

section Rows

variable {ρ : Type} {key owner : ρ → String} {t t' : Table key} {k id o : String} {r : ρ} {f : ρ → ρ}

theorem owner_insert (h : t.insert r = some t') (ho : (t'.find id).map owner = some o) :
    (t.find id).map owner = some o ∨ key r = id := by
  rw [find_insert h] at ho
  split at ho
  · rename_i he
    exact .inr he.symm
  · exact .inl ho

theorem find_owner_update {hf : ∀ r, key (f r) = key r} (hown : ∀ r, owner (f r) = owner r) :
    ((t.update k f hf).find id).map owner = (t.find id).map owner := by
  rw [find_update]
  split
  · rename_i he
    rw [he]
    cases t.find k <;> simp [hown]
  · rfl

theorem owner_update (ho : (t.find id).map owner = some o) {hf : ∀ r, key (f r) = key r}
    (hown : ∀ r, owner (f r) = owner r) : ((t.update k f hf).find id).map owner = some o :=
  (find_owner_update hown).trans ho

theorem owner_updated (f : ρ → ρ) (hf : ∀ r, key (f r) = key r)
    (ho : ((t.update k f hf).find id).map owner = some o) (hown : ∀ r, owner (f r) = owner r) :
    (t.find id).map owner = some o :=
  (find_owner_update hown).symm.trans ho

theorem owner_delete (ho : ((t.delete k).find id).map owner = some o) : (t.find id).map owner = some o := by
  obtain ⟨r, hr, rfl⟩ := Option.map_eq_some_iff.mp ho
  obtain ⟨hm, hk⟩ := find_some.mp hr
  exact Option.map_eq_some_iff.mpr ⟨r, find_some.mpr ⟨(mem_delete.mp hm).1, hk⟩, rfl⟩

end Rows

/-! ## The database -/

namespace Db

variable {d d' : Db} {coachId id owner : String} {kind : Kind}

theorem AgreeOn.ownerOf (h : d.AgreeOn (· = coachId) d') (ho : d.ownerOf kind id = some coachId) :
    d'.ownerOf kind id = some coachId := by
  cases kind with
  | weekly =>
      obtain ⟨r, hr, ho⟩ := Option.map_eq_some_iff.mp ho
      exact Option.map_eq_some_iff.mpr ⟨r, h.weeklyAvailabilities.find hr (by simpa using ho), ho⟩
  | override =>
      obtain ⟨r, hr, ho⟩ := Option.map_eq_some_iff.mp ho
      exact Option.map_eq_some_iff.mpr ⟨r, h.overrides.find hr (by simpa using ho), ho⟩
  | eventType =>
      obtain ⟨r, hr, ho⟩ := Option.map_eq_some_iff.mp ho
      exact Option.map_eq_some_iff.mpr ⟨r, h.eventTypes.find hr (by simpa using ho), ho⟩
  | booking =>
      obtain ⟨r, hr, ho⟩ := Option.map_eq_some_iff.mp ho
      exact Option.map_eq_some_iff.mpr ⟨r, h.bookings.find hr (by simpa using ho), ho⟩

theorem Unused.ownerOf (h : d.Unused id) (kind : Kind) : d.ownerOf kind id = none := h kind (by cases kind <;> decide)

theorem Unused.freshId (h : d.Unused id) : d.FreshId id :=
  ⟨Option.map_eq_none_iff.mp (h.ownerOf .eventType), Option.map_eq_none_iff.mp (h.ownerOf .weekly),
    Option.map_eq_none_iff.mp (h.ownerOf .override)⟩

/-- A row after a statement was there before with the same owner, or has just been created. -/
theorem apply_ownerOf {newId : String} {s : Statement} {a : s.Ans} (hs : d.apply newId s = .ok (a, d'))
    (h : d'.ownerOf kind id = some owner) :
    d.ownerOf kind id = some owner ∨ Dashboard.createdId ⟨.write s, .ok a⟩ = some id := by
  cases apply_ok hs with
  | weeklyCreate _ hi =>
      cases kind with
      | weekly => exact (owner_insert hi h).imp_right (congrArg some)
      | _ => exact .inl h
  | overrideCreate _ hi =>
      cases kind with
      | override => exact (owner_insert hi h).imp_right (congrArg some)
      | _ => exact .inl h
  | eventTypeCreate _ hi =>
      cases kind with
      | eventType => exact (owner_insert hi h).imp_right (congrArg some)
      | _ => exact .inl h
  | @weeklyUpdate _ data _ _ =>
      cases kind with
      | weekly => exact .inl (owner_updated (fun r => data.toRow r.id r.coachId) (fun _ => rfl) h fun _ => rfl)
      | _ => exact .inl h
  | @overrideUpdate _ data _ _ =>
      cases kind with
      | override => exact .inl (owner_updated (fun r => data.toRow r.id r.coachId) (fun _ => rfl) h fun _ => rfl)
      | _ => exact .inl h
  | @eventTypeUpdate _ patch _ _ _ =>
      cases kind with
      | eventType => exact .inl (owner_updated patch.apply (fun _ => rfl) h fun _ => rfl)
      | _ => exact .inl h
  | weeklyDelete =>
      cases kind with
      | weekly => exact .inl (owner_delete h)
      | _ => exact .inl h
  | overrideDelete =>
      cases kind with
      | override => exact .inl (owner_delete h)
      | _ => exact .inl h
  | eventTypeDelete _ =>
      cases kind with
      | eventType => exact .inl (owner_delete h)
      | _ => exact .inl h
  | eventTypeReorder hr =>
      refine .inl ((reorder_keeps (J := fun d' => d'.ownerOf kind id = some owner → d.ownerOf kind id = some owner) hr
        (fun h => h) fun _ _ index _ hJ h => hJ ?_) h)
      cases kind with
      | eventType => exact owner_updated (fun e => { e with position := index }) (fun _ => rfl) h fun _ => rfl
      | _ => exact h
  | settingsUpdate _ _ => exact .inl h

/-! ### Bookings and their event types -/

theorem BookingsOwned.of_eventTypes (h : d.BookingsOwned) {eventTypes : Table EventType.id}
    (hkept : ∀ b ∈ d.bookings, ∀ owner, (d.eventTypes.find b.eventTypeId).map (·.coachId) = some owner →
      (eventTypes.find b.eventTypeId).map (·.coachId) = some owner) : BookingsOwned { d with eventTypes } := by
  intro b hb
  obtain ⟨e, he, ho⟩ := h b hb
  obtain ⟨e', he', ho'⟩ := Option.map_eq_some_iff.mp (hkept b hb _ (Option.map_eq_some_iff.mpr ⟨e, he, rfl⟩))
  exact ⟨e', he', ho'.trans ho⟩

theorem BookingsOwned.apply {newId : String} {s : Statement} {a : s.Ans} (h : d.BookingsOwned)
    (hs : d.apply newId s = .ok (a, d')) : d'.BookingsOwned := by
  cases apply_ok hs with
  | eventTypeCreate _ hi =>
      refine h.of_eventTypes fun b _ owner ho => ?_
      obtain ⟨e, he, ho⟩ := Option.map_eq_some_iff.mp ho
      exact Option.map_eq_some_iff.mpr ⟨e, find_insert_of_some hi he, ho⟩
  | eventTypeUpdate _ _ => exact h.of_eventTypes fun b _ owner ho => owner_update ho fun _ => rfl
  | eventTypeDelete hnone =>
      refine h.of_eventTypes fun b hb owner ho => ?_
      obtain ⟨e, he, ho⟩ := Option.map_eq_some_iff.mp ho
      obtain ⟨hm, hk⟩ := find_some.mp he
      exact Option.map_eq_some_iff.mpr ⟨e, find_some.mpr ⟨mem_delete.mpr ⟨hm, hk ▸ hnone b hb⟩, hk⟩, ho⟩
  | eventTypeReorder hr =>
      exact reorder_keeps (J := BookingsOwned) hr h fun d _ _ _ hJ =>
        hJ.of_eventTypes fun b _ owner ho => owner_update ho fun _ => rfl
  | _ => exact h

end Db

namespace Dashboard
open Lib.Prog

variable {w w' : World} {o : Op} {ch : Choice} {r : Except Failure (Ans o)} {coachId id owner : String} {kind : Kind}
variable {mine mine' : Kind → String → Prop}

theorem Op.Keeps.mono (h : o.Keeps coachId mine) (hm : ∀ kind id, mine kind id → mine' kind id) :
    o.Keeps coachId mine' := by
  cases o with
  | write s => exact ⟨h.1, fun t ht => hm _ _ (h.2 t ht)⟩
  | booking o =>
      cases o with
      | bookingUpdate id patch => exact hm _ _ h
      | _ => exact h
  | _ => exact h

/-! ## Operations -/

theorem exec_cases (ho : o.Keeps coachId mine) (hx : exec w o ch = (r, w')) :
    w'.db = w.db ∨ (∃ s a, o = .write s ∧ r.toOption.isSome ∧ w.db.apply ch.newId s = .ok (a, w'.db) ∧
      createdId ⟨o, r⟩ = createdId ⟨.write s, .ok a⟩) ∨
    (∃ id patch, o = .booking (.bookingUpdate id patch) ∧ w'.db = { w.db with
      bookings := w.db.bookings.update id patch.apply patch.apply_id }) ∨
    ∃ settings, w'.db = { w.db with settings } := by
  cases o with
  | write s =>
      rcases mayFail_cases hx with ⟨_, _, rfl⟩ | hx
      · exact .inl rfl
      · split at hx
        · cases hx
          exact .inl rfl
        · rename_i a d hs
          cases hx
          exact .inr (.inl ⟨s, a, rfl, rfl, hs, rfl⟩)
  | booking o =>
      change CoachingCalendar.exec w o ch = (r, w') at hx
      cases o with
      | eventTypeFindUnique _ | bookingFindUnique _ | coachFindUnique _ | integrationFindUnique _ =>
          rw [CoachingCalendar.exec, unlessFault_eq] at hx
          exact .inl (by rw [mayFail_frame hx])
      | jobSend _ | calendarDelete _ _ =>
          rw [CoachingCalendar.exec, unlessFault_eq] at hx
          rcases mayFail_cases hx with ⟨_, _, rfl⟩ | hx
          · exact .inl rfl
          · cases hx
            exact .inl rfl
      | settingsUpsert c =>
          rw [CoachingCalendar.exec, unlessFault_eq] at hx
          rcases mayFail_cases hx with ⟨_, _, rfl⟩ | hx
          · exact .inl rfl
          · split at hx <;> cases hx
            · exact .inl rfl
            · exact .inr (.inr (.inr ⟨_, rfl⟩))
      | bookingUpdate id patch =>
          rw [CoachingCalendar.exec, unlessFault_eq] at hx
          rcases mayFail_cases hx with ⟨_, _, rfl⟩ | hx
          · exact .inl rfl
          · split at hx <;> cases hx
            · exact .inl rfl
            · exact .inr (.inr (.inl ⟨id, patch, rfl, rfl⟩))
      | _ => exact ho.elim
  | _ => exact .inl (by rw [mayFail_frame hx])

theorem exec_ownerOf (ho : o.Keeps coachId mine) (hx : exec w o ch = (r, w'))
    (h : w'.db.ownerOf kind id = some owner) : w.db.ownerOf kind id = some owner ∨ createdId ⟨o, r⟩ = some id := by
  rcases exec_cases ho hx with hd | ⟨s, a, rfl, -, hs, hc⟩ | ⟨id', patch, rfl, hd⟩ | ⟨settings, hd⟩
  · exact .inl (hd ▸ h)
  · rw [hc]
    exact Db.apply_ownerOf hs h
  · rw [hd] at h
    cases kind with
    | booking => exact .inl (owner_updated patch.apply patch.apply_id h fun _ => rfl)
    | _ => exact .inl h
  · rw [hd] at h
    cases kind <;> exact .inl h

theorem exec_bookingsOwned (ho : o.Keeps coachId mine) (hx : exec w o ch = (r, w')) (h : w.db.BookingsOwned) :
    w'.db.BookingsOwned := by
  rcases exec_cases ho hx with hd | ⟨s, a, rfl, -, hs, -⟩ | ⟨id, patch, rfl, hd⟩ | ⟨settings, hd⟩
  · exact hd ▸ h
  · exact h.apply hs
  · rw [hd]
    exact forall_update patch.apply_id h fun _ _ _ hb => hb
  · rw [hd]
    exact h

end Dashboard

end CoachingCalendar
