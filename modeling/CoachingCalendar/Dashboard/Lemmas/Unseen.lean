import CoachingCalendar.Dashboard.Lemmas.Settled

/-! # Operations on the rows of one coach -/

namespace CoachingCalendar
open Lib Lib.Table

variable {d d₁ d₂ : Db} {c newId id : String}

/-! ## Parts of databases -/

theorem samePart_mono {ρ : Type} {key : ρ → String} {t t' : Table key} {p q : ρ → Bool} (h : SamePart p t t')
    (hq : ∀ r, q r = true → p r = true) : SamePart q t t' := by
  have he : (fun r => p r && q r) = q := by
    funext r
    cases hr : q r with
    | true => rw [hq r hr, Bool.and_true]
    | false => rw [Bool.and_false]
  rw [SamePart, ← he, findMany_and, findMany_and, h]

theorem Db.AgreeOn.mono {owned owned' : String → Bool} (h : d₁.AgreeOn owned d₂)
    (hsub : ∀ o, owned' o = true → owned o = true) : d₁.AgreeOn owned' d₂ :=
  ⟨samePart_mono h.coaches fun _ => hsub _, samePart_mono h.eventTypes fun _ => hsub _,
    samePart_mono h.weeklyAvailabilities fun _ => hsub _, samePart_mono h.overrides fun _ => hsub _,
    samePart_mono h.bookings fun _ => hsub _, samePart_mono h.settings fun _ => hsub _,
    samePart_mono h.googleIntegrations fun _ => hsub _⟩

theorem exists_not_mem (l : List String) : ∃ s, s ∉ l := by
  obtain ⟨n, hn⟩ : ∃ n, ∀ s ∈ l, s.length < n := by
    induction l with
    | nil => exact ⟨0, fun _ hs => absurd hs List.not_mem_nil⟩
    | cons s l ih =>
        obtain ⟨n, hn⟩ := ih
        refine ⟨s.length + 1 + n, fun s' hs => ?_⟩
        rcases List.mem_cons.mp hs with rfl | hs
        · omega
        · exact Nat.lt_add_left _ (hn s' hs)
  exact ⟨String.ofList (List.replicate n 'x'), fun h => by simpa using hn _ h⟩

theorem Db.exists_freshId (d₁ d₂ : Db) : ∃ id, d₁.FreshId id ∧ d₂.FreshId id := by
  let ids (d : Db) : List String := d.eventTypes.rows.map (·.id) ++ d.weeklyAvailabilities.rows.map (·.id) ++
    d.overrides.rows.map (·.id)
  have fresh : ∀ (d : Db) id, id ∉ ids d → d.FreshId id := by
    intro d id h
    simp only [ids, List.mem_append, List.mem_map, not_or, not_exists, not_and] at h
    exact ⟨find_none.mpr h.1.1, find_none.mpr h.1.2, find_none.mpr h.2⟩
  obtain ⟨id, hid⟩ := exists_not_mem (ids d₁ ++ ids d₂)
  rw [List.mem_append, not_or] at hid
  exact ⟨id, fresh _ _ hid.1, fresh _ _ hid.2⟩

/-! ## Statements -/

namespace Statement

/-- It fails with this when there is no row that it names. -/
def missing : Statement → Failure
  | .eventTypeUpdate _ patch => if patch.invalid then invalidQuery else recordNotFound
  | _ => recordNotFound

theorem within {s : Statement} (hc : ∀ c' ∈ s.coachId?, c' = c) (ht : ∀ t ∈ s.targets, d.ownerOf t.1 t.2 = some c) :
    s.Within c d := by
  cases s with
  | weeklyCreate | overrideCreate | eventTypeCreate | settingsUpdate => exact hc _ rfl
  | weeklyUpdate | weeklyDelete | overrideUpdate | overrideDelete | eventTypeUpdate | eventTypeDelete =>
      exact Option.map_eq_some_iff.mp (ht _ List.mem_cons_self)
  | eventTypeReorder ids =>
      exact fun id hid => Option.map_eq_some_iff.mp (ht (.eventType, id) (List.mem_map_of_mem hid))

end Statement

theorem reorder_missing {ids : List (String × Nat)} (h : ∃ x ∈ ids, d.eventTypes.find x.1 = none) :
    Db.reorder ids d = .error recordNotFound := by
  induction ids generalizing d with
  | nil =>
      obtain ⟨x, hx, _⟩ := h
      exact absurd hx List.not_mem_nil
  | cons y ids ih =>
      obtain ⟨id, index⟩ := y
      cases hy : d.eventTypes.find id with
      | none => simp [Db.reorder, Db.setPosition, updated, hy, bind, Except.bind]
      | some row =>
          obtain ⟨x, hx, hn⟩ := h
          have hx : x ∈ ids := by
            rcases List.mem_cons.mp hx with rfl | hx
            · cases hy.symm.trans hn
            · exact hx
          simp only [Db.reorder, Db.setPosition, updated, hy, bind, Except.bind, pure, Except.pure]
          refine ih ⟨x, hx, ?_⟩
          rw [find_update]
          split
          · rename_i he
            cases hy.symm.trans (he ▸ hn)
          · exact hn

theorem apply_missing {s : Statement} (hb : d.BookingsOwned) {t : Kind × String} (ht : t ∈ s.targets)
    (hn : d.ownerOf t.1 t.2 = none) : d.apply newId s = .error s.missing := by
  cases s with
  | weeklyCreate | overrideCreate | eventTypeCreate | settingsUpdate => cases ht
  | weeklyUpdate | weeklyDelete | overrideUpdate | overrideDelete =>
      obtain rfl := List.mem_singleton.mp ht
      have hn := Option.map_eq_none_iff.mp hn
      simp [Db.apply, updated, deleted, hn, bind, Except.bind, Statement.missing]
  | eventTypeUpdate id patch =>
      obtain rfl := List.mem_singleton.mp ht
      have hn := Option.map_eq_none_iff.mp hn
      simp only [Db.apply, updated, hn, Statement.missing]
      split <;> rfl
  | eventTypeDelete id =>
      obtain rfl := List.mem_singleton.mp ht
      have hn := Option.map_eq_none_iff.mp hn
      have hbooked : (d.bookings.findFirst fun b => b.eventTypeId = id) = none := by
        refine findFirst_none.mpr fun b hm => ?_
        obtain ⟨e, he, _⟩ := hb b hm
        simp only [decide_eq_false_iff_not]
        rintro rfl
        cases he.symm.trans hn
      simp [Db.apply, deleted, hbooked, hn, bind, Except.bind, Statement.missing]
  | eventTypeReorder ids =>
      obtain ⟨id, hid, rfl⟩ := List.mem_map.mp ht
      have hn := Option.map_eq_none_iff.mp hn
      obtain ⟨i, hi⟩ := List.mem_iff_getElem?.mp hid
      have : Db.reorder ids.zipIdx d = .error recordNotFound :=
        reorder_missing ⟨(id, i), by simp [List.mem_zipIdx_iff_getElem?, hi], hn⟩
      simp [Db.apply, this, bind, Except.bind, Statement.missing]

/-- A statement about a coach, where no row that it names is of another coach. -/
abbrev Statement.About (s : Statement) (c : String) (d : Db) : Prop := (Dashboard.Op.write s).Keeps c (d.OnlyOf c)

/-- A statement that creates a row depends on the id that is drawn. -/
def Statement.creates : Statement → Bool
  | .weeklyCreate _ _ | .overrideCreate _ _ | .eventTypeCreate _ _ => true
  | _ => false

theorem apply_newId {s : Statement} (hs : s.creates = false) (newId' : String) : d.apply newId s = d.apply newId' s := by
  cases s with
  | weeklyCreate | overrideCreate | eventTypeCreate => cases hs
  | _ => rfl

/-- A new row whose id is not taken is refused for want of the coach alone. -/
theorem apply_creates {s : Statement} (hs : s.creates = true) (h : d₁.AgreeOn (· = c) d₂)
    (hc : ∀ c' ∈ s.coachId?, c' = c) :
    (∃ a d', d₁.apply newId s = .ok (a, d') ∧ Dashboard.createdId ⟨.write s, .ok a⟩ = some newId) ∨
      d₁.apply newId s = .error uniqueConstraint ∨ ∃ e, d₁.apply newId s = .error e ∧ d₂.apply newId s = .error e := by
  cases s with
  | weeklyCreate coachId data =>
      obtain rfl := hc _ rfl
      simp only [Db.apply, ← requireCoach_eq h]
      cases d₁.requireCoach coachId with
      | error e => exact .inr (.inr ⟨e, rfl, rfl⟩)
      | ok _ =>
          unfold created
          cases d₁.weeklyAvailabilities.insert (data.toRow newId coachId) with
          | none => exact .inr (.inl rfl)
          | some t => exact .inl ⟨_, _, rfl, rfl⟩
  | overrideCreate coachId data =>
      obtain rfl := hc _ rfl
      simp only [Db.apply, ← requireCoach_eq h]
      cases d₁.requireCoach coachId with
      | error e => exact .inr (.inr ⟨e, rfl, rfl⟩)
      | ok _ =>
          unfold created
          cases d₁.overrides.insert (data.toRow newId coachId) with
          | none => exact .inr (.inl rfl)
          | some t => exact .inl ⟨_, _, rfl, rfl⟩
  | eventTypeCreate coachId data =>
      obtain rfl := hc _ rfl
      simp only [Db.apply, ← requireCoach_eq h]
      cases d₁.requireCoach coachId with
      | error e => exact .inr (.inr ⟨e, rfl, rfl⟩)
      | ok _ =>
          unfold created
          cases d₁.eventTypes.insert (data.toRow newId coachId) with
          | none => exact .inr (.inl rfl)
          | some t => exact .inl ⟨_, _, rfl, rfl⟩
  | _ => cases hs

/-- It does the same to two databases with the same rows of the coach, and nothing to the rows of the others. -/
theorem apply_apart {s : Statement} (h : d₁.AgreeOn (· = c) d₂) (hb₁ : d₁.BookingsOwned) (hb₂ : d₂.BookingsOwned)
    (hs₁ : s.About c d₁) (hs₂ : s.About c d₂) (hne : d₁.apply newId s ≠ .error uniqueConstraint)
    (hnew : ∀ a d', d₁.apply newId s = .ok (a, d') → Dashboard.createdId ⟨.write s, .ok a⟩ = some newId →
      d₁.FreshId newId ∧ d₂.FreshId newId) :
    Alike (fun x y => x.1 = y.1 ∧ Apart c d₁ d₂ x.2 y.2) (d₁.apply newId s) (d₂.apply newId s) := by
  by_cases hW : s.Within c d₁
  · cases hcr : s.creates with
    | true =>
        rcases apply_creates hcr h hs₁.1 with ⟨a, d', hok, hc⟩ | he | ⟨e, he₁, he₂⟩
        · exact apply_alike h hW hb₁ hb₂ (hnew a d' hok hc).1 (hnew a d' hok hc).2
        · exact absurd he hne
        · rw [he₁, he₂]
          exact .error
    | false =>
        obtain ⟨id, hf₁, hf₂⟩ := d₁.exists_freshId d₂
        rw [apply_newId (d := d₁) hcr id, apply_newId (d := d₂) hcr id]
        exact apply_alike h hW hb₁ hb₂ hf₁ hf₂
  · -- a row that it names is missing, and then it is in both
    obtain ⟨t, ht, hn⟩ : ∃ t ∈ s.targets, d₁.ownerOf t.1 t.2 ≠ some c := by
      by_contra hall
      push Not at hall
      exact hW (Statement.within hs₁.1 hall)
    have hn₁ : d₁.ownerOf t.1 t.2 = none := by
      cases ho : d₁.ownerOf t.1 t.2 with
      | none => rfl
      | some owner => exact absurd (ho.trans (congrArg some (hs₁.2 t ht _ ho))) hn
    have hn₂ : d₂.ownerOf t.1 t.2 = none := by
      cases ho : d₂.ownerOf t.1 t.2 with
      | none => rfl
      | some owner =>
          obtain rfl := hs₂.2 t ht _ ho
          exact absurd (h.symm.ownerOf ho) hn
    rw [apply_missing hb₁ ht hn₁, apply_missing hb₂ ht hn₂]
    exact .error

/-! ## Operations -/

namespace Dashboard
open Lib.Prog

variable {w w₁ w₂ v : World} {o : Op} {ch : Choice} {r r' : Except Failure (Ans o)}

theorem Sees.refl : Sees c o r r := by
  unfold Sees
  split <;> rfl

/-- The two outcomes of an operation look the same to the coach. -/
structure Alongside (c : String) (o : Op) (w₁ w₂ : World) (x₁ x₂ : Except Failure (Ans o) × World) : Prop where
  sees : Sees c o x₁.1 x₂.1
  apart : Apart c w₁.db w₂.db x₁.2.db x₂.2.db

theorem look_alongside {a₁ a₂ : Ans o} (h : w₁.db.AgreeOn (· = c) w₂.db) (hs : Sees c o (.ok a₁) (.ok a₂))
    (fault : Option Failure) :
    Alongside c o w₁ w₂ (mayFail fault w₁ (.ok a₁, w₁)) (mayFail fault w₂ (.ok a₂, w₂)) := by
  cases fault with
  | none => exact ⟨hs, .refl h⟩
  | some e => exact ⟨.refl, .refl h⟩

theorem filter_eq {ρ : Type} {key owner : ρ → String} {t₁ t₂ : Table key}
    (h : SamePart (fun r => decide (owner r = c)) t₁ t₂) :
    Except.map (ε := Failure) (fun row => Option.filter (fun r => decide (owner r = c)) row) (.ok (t₁.find id)) =
      Except.map (fun row => Option.filter (fun r => decide (owner r = c)) row) (.ok (t₂.find id)) :=
  congrArg Except.ok h.find_filter

theorem exists_before (h : d₁.AgreeOn (· = c) d₂) (hb₁ : d₁.BookingsOwned) (hb₂ : d₂.BookingsOwned) :
    ∃ choices, Before c choices d₁ d₂ d₁ d₂ := by
  obtain ⟨id, hf₁, hf₂⟩ := d₁.exists_freshId d₂
  exact ⟨fun _ => { newId := id }, .refl h, hb₁, hb₂, fun _ => hf₁, fun _ => hf₂⟩

theorem booking_filter_eq (h : d₁.AgreeOn (· = c) d₂) (hb₁ : d₁.BookingsOwned) (hb₂ : d₂.BookingsOwned) :
    ((d₁.bookings.find id).map d₁.withRelations).filter (fun b => decide (b.coachId = c)) =
      ((d₂.bookings.find id).map d₂.withRelations).filter (fun b => decide (b.coachId = c)) := by
  have owned : ∀ (d : Db), ((d.bookings.find id).map d.withRelations).filter (fun b => decide (b.coachId = c)) =
      ((d.bookings.find id).filter fun b => decide (b.coachId = c)).map d.withRelations := by
    intro d
    cases d.bookings.find id with
    | none => rfl
    | some b => by_cases ho : b.coachId = c <;> simp [Option.filter_some, ho]
  rw [owned, owned, ← h.bookings.find_filter]
  cases hf : (d₁.bookings.find id).filter fun b => decide (b.coachId = c) with
  | none => rfl
  | some b =>
      obtain ⟨choices, hB⟩ := exists_before h hb₁ hb₂
      obtain ⟨hf, ho⟩ := Option.filter_eq_some_iff.mp hf
      exact congrArg some (hB.withRelations_eq (find_mem hf) (by simpa using ho) rfl rfl)

theorem bookings_eq (h : d₁.AgreeOn (· = c) d₂) (hb₁ : d₁.BookingsOwned) (hb₂ : d₂.BookingsOwned) :
    ((d₁.bookings.findMany fun b => b.coachId = c).mergeSort fun a b => a.startAt ≤ b.startAt).map d₁.withRelations =
      ((d₂.bookings.findMany fun b => b.coachId = c).mergeSort fun a b => a.startAt ≤ b.startAt).map
        d₂.withRelations := by
  obtain ⟨choices, hB⟩ := exists_before h hb₁ hb₂
  rw [← h.bookings]
  refine List.map_congr_left fun b hb => ?_
  rw [List.mem_mergeSort, mem_findMany] at hb
  exact hB.withRelations_eq hb.1 (by simpa using hb.2) rfl rfl

section Alongside

variable (h : w₁.db.AgreeOn (· = c) w₂.db)
include h

theorem settingsUpsert_alongside : Alongside c (.booking (.settingsUpsert c)) w₁ w₂
    (exec w₁ (.booking (.settingsUpsert c)) ch) (exec w₂ (.booking (.settingsUpsert c)) ch) := by
  have hfind : w₁.db.settings.find c = w₂.db.settings.find c := h.settings.find_eq
    (fun r hr => by simpa using find_key hr) fun r hr => by simpa using find_key hr
  simp only [exec, CoachingCalendar.exec, unlessFault]
  cases ch.fault with
  | some e => exact ⟨.refl, .refl h⟩
  | none =>
      dsimp only
      rw [← hfind]
      cases hs : w₁.db.settings.find c with
      | some s => exact ⟨.refl, .refl h⟩
      | none =>
          obtain ⟨t₁, ht₁⟩ := insert_of_fresh (r := ({ coachId := c } : Settings)) hs
          obtain ⟨t₂, ht₂⟩ := insert_of_fresh (r := ({ coachId := c } : Settings)) (hfind ▸ hs)
          simp only [ht₁, ht₂, World.write, Option.getD_some]
          exact ⟨.refl, (Apart.refl h).setting (.insert h.settings (decide_eq_true rfl) ht₁ ht₂)⟩

variable (hb₁ : w₁.db.BookingsOwned) (hb₂ : w₂.db.BookingsOwned)
include hb₁ hb₂

theorem bookingUpdate_alongside {patch : BookingPatch} (h₁ : w₁.db.OnlyOf c .booking id)
    (h₂ : w₂.db.OnlyOf c .booking id) : Alongside c (.booking (.bookingUpdate id patch)) w₁ w₂
      (exec w₁ (.booking (.bookingUpdate id patch)) ch) (exec w₂ (.booking (.bookingUpdate id patch)) ch) := by
  have own : ∀ (d : Db), d.OnlyOf c .booking id → ∀ b, d.bookings.find id = some b → decide (b.coachId = c) = true :=
    fun d hd b hb => decide_eq_true (hd _ (congrArg (Option.map _) hb))
  have hfind := h.bookings.find_eq (own _ h₁) (own _ h₂)
  simp only [exec, CoachingCalendar.exec, unlessFault]
  cases ch.fault with
  | some e => exact ⟨.refl, .refl h⟩
  | none =>
      dsimp only
      rw [← hfind]
      cases hb : w₁.db.bookings.find id with
      | none => exact ⟨.refl, .refl h⟩
      | some b =>
          have ho := of_decide_eq_true (own _ h₁ b hb)
          obtain ⟨choices, hB⟩ := exists_before h hb₁ hb₂
          refine ⟨congrArg Except.ok (hB.withRelations_eq (find_mem hb) ho rfl rfl), ?_⟩
          exact (Apart.refl h).booking (.update patch.apply_id h.bookings (fun _ => rfl) hb (decide_eq_true ho))

theorem write_alongside {s : Statement} (hs₁ : s.About c w₁.db) (hs₂ : s.About c w₂.db)
    (hne : (exec w₁ (.write s) ch).1 ≠ .error uniqueConstraint)
    (hnew : ∀ id ∈ createdId ⟨.write s, (exec w₁ (.write s) ch).1⟩, w₁.db.Unused id ∧ w₂.db.Unused id) :
    Alongside c (.write s) w₁ w₂ (exec w₁ (.write s) ch) (exec w₂ (.write s) ch) := by
  simp only [exec, mayFail] at hne hnew ⊢
  cases hf : ch.fault with
  | some e => exact ⟨.refl, .refl h⟩
  | none =>
      rw [hf] at hne hnew
      dsimp only at hne hnew ⊢
      have ha : Alike (fun x y => x.1 = y.1 ∧ Apart c w₁.db w₂.db x.2 y.2) (w₁.db.apply ch.newId s)
          (w₂.db.apply ch.newId s) := by
        refine apply_apart h hb₁ hb₂ hs₁ hs₂ (fun he => hne (by rw [he])) fun a d' hok hc => ?_
        have hu := hnew ch.newId (by rw [hok]; exact hc)
        exact ⟨hu.1.freshId, hu.2.freshId⟩
      generalize w₁.db.apply ch.newId s = x₁ at ha ⊢
      generalize w₂.db.apply ch.newId s = x₂ at ha ⊢
      cases ha with
      | error => exact ⟨.refl, .refl h⟩
      | @ok x y hr =>
          obtain ⟨a, e₁⟩ := x
          obtain ⟨b, e₂⟩ := y
          exact ⟨congrArg Except.ok hr.1, hr.2⟩

/-- An operation about a coach looks the same to her in two databases with the same rows of hers. It keeps these the
same, and leaves the rows of the others. -/
theorem exec_alongside (ho₁ : o.Keeps c (w₁.db.OnlyOf c)) (ho₂ : o.Keeps c (w₂.db.OnlyOf c))
    (hne : (exec w₁ o ch).1 ≠ .error uniqueConstraint)
    (hnew : ∀ id ∈ createdId ⟨o, (exec w₁ o ch).1⟩, w₁.db.Unused id ∧ w₂.db.Unused id) :
    Alongside c o w₁ w₂ (exec w₁ o ch) (exec w₂ o ch) := by
  cases o with
  | write s => exact write_alongside h hb₁ hb₂ ho₁ ho₂ hne hnew
  | weeklyFindMany _ =>
      cases ho₁
      refine look_alongside h ?_ _
      exact congrArg Except.ok (by rw [h.weeklyAvailabilities])
  | overrideFindMany _ =>
      cases ho₁
      refine look_alongside h ?_ _
      exact congrArg Except.ok (by rw [h.overrides])
  | eventTypeFindMany _ =>
      cases ho₁
      refine look_alongside h ?_ _
      exact congrArg Except.ok (by rw [h.eventTypes])
  | eventTypeMaxPosition _ =>
      cases ho₁
      refine look_alongside h ?_ _
      exact congrArg Except.ok (by rw [h.eventTypes])
  | eventTypeFindOwned ids _ =>
      cases ho₁
      refine look_alongside h ?_ _
      refine congrArg Except.ok ?_
      simp only [Bool.and_comm (List.contains _ _), findMany_and]
      rw [h.eventTypes]
  | weeklyFindUnique id =>
      refine look_alongside h ?_ _
      exact filter_eq h.weeklyAvailabilities
  | overrideFindUnique id =>
      refine look_alongside h ?_ _
      exact filter_eq h.overrides
  | bookingFindMany _ =>
      cases ho₁
      refine look_alongside h ?_ _
      exact congrArg Except.ok (bookings_eq h hb₁ hb₂)
  | booking o =>
      cases o with
      | settingsUpsert _ =>
          cases ho₁
          exact settingsUpsert_alongside h
      | bookingUpdate id patch => exact bookingUpdate_alongside h hb₁ hb₂ ho₁ ho₂
      | eventTypeFindUnique id =>
          simp only [exec, CoachingCalendar.exec, unlessFault_eq]
          refine look_alongside h ?_ _
          exact filter_eq h.eventTypes
      | bookingFindUnique id =>
          simp only [exec, CoachingCalendar.exec, unlessFault_eq]
          refine look_alongside h ?_ _
          exact congrArg Except.ok (booking_filter_eq h hb₁ hb₂)
      | coachFindUnique _ =>
          cases ho₁
          simp only [exec, CoachingCalendar.exec, unlessFault_eq]
          refine look_alongside h ?_ _
          exact congrArg Except.ok (coach_eq h)
      | integrationFindUnique _ =>
          cases ho₁
          simp only [exec, CoachingCalendar.exec, unlessFault_eq]
          refine look_alongside h ?_ _
          refine congrArg Except.ok ?_
          exact h.googleIntegrations.find_eq (fun r hr => by simpa using find_key hr)
            fun r hr => by simpa using find_key hr
      | jobSend _ | calendarDelete _ _ =>
          simp only [exec, CoachingCalendar.exec, unlessFault]
          cases ch.fault <;> exact ⟨.refl, .refl h⟩
      | _ => exact ho₁.elim

end Alongside

end Dashboard

end CoachingCalendar
