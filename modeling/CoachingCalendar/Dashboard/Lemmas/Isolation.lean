import CoachingCalendar.Dashboard.Lemmas.Statements
import CoachingCalendar.Dashboard.System
import CoachingCalendar.Lib.Sorting
import CoachingCalendar.Lib.Twin

/-! # What a coach sees and changes -/

namespace CoachingCalendar
open Lib Lib.Table

variable {c newId : String} {d₁ d₂ d₁' d₂' e₁ e₂ : Db}

/-! ## One table -/

section Rows

variable {ρ : Type} {key : ρ → String} {p : ρ → Bool} {t₁ t₂ : Table key} {k : String} {r : ρ} {f : ρ → ρ}

theorem created_alike (h : SamePart p t₁ t₂) (hp : p r = true) (h₁ : t₁.find (key r) = none)
    (h₂ : t₂.find (key r) = none) : Alike (Split p t₁ t₂) (created t₁ r) (created t₂ r) := by
  obtain ⟨t₁', hi₁⟩ := insert_of_fresh h₁
  obtain ⟨t₂', hi₂⟩ := insert_of_fresh h₂
  rw [created_ok.mpr hi₁, created_ok.mpr hi₂]
  exact .ok (.insert h hp hi₁ hi₂)

theorem updated_alike (hf : ∀ r, key (f r) = key r) (h : SamePart p t₁ t₂) (hpf : ∀ r, p (f r) = p r)
    (h₁ : ∀ r, t₁.find k = some r → p r = true) (h₂ : ∀ r, t₂.find k = some r → p r = true) :
    Alike (fun x y => x.1 = y.1 ∧ Split p t₁ t₂ x.2 y.2) (updated t₁ k f hf) (updated t₂ k f hf) := by
  have hfind := h.find_eq h₁ h₂
  unfold updated
  rw [← hfind]
  cases hr : t₁.find k with
  | none => exact .error
  | some r => exact .ok ⟨rfl, .update hf h hpf hr (h₁ r hr)⟩

theorem deleted_alike (h : SamePart p t₁ t₂) (h₁ : ∀ r, t₁.find k = some r → p r = true)
    (h₂ : ∀ r, t₂.find k = some r → p r = true) : Alike (Split p t₁ t₂) (deleted t₁ k) (deleted t₂ k) := by
  have hfind := h.find_eq h₁ h₂
  unfold deleted
  rw [← hfind]
  cases hr : t₁.find k with
  | none => exact .error
  | some r => exact .ok (.delete h hr (h₁ r hr))

end Rows

/-! ## The database -/

/-- From `d₁` and `d₂` to `d₁'` and `d₂'`, the rows of a coach are kept the same, and the rows of the others as
they were. -/
structure Apart (c : String) (d₁ d₂ d₁' d₂' : Db) : Prop where
  own : d₁'.AgreeOn (· = c) d₂'
  left : d₁.AgreeOn (fun owner => !(owner = c)) d₁'
  right : d₂.AgreeOn (fun owner => !(owner = c)) d₂'

theorem Db.AgreeOn.refl (owned : String → Bool) (d : Db) : d.AgreeOn owned d := ⟨rfl, rfl, rfl, rfl, rfl, rfl, rfl⟩

theorem Db.AgreeOn.symm {owned : String → Bool} (h : d₁.AgreeOn owned d₂) : d₂.AgreeOn owned d₁ :=
  ⟨h.coaches.symm, h.eventTypes.symm, h.weeklyAvailabilities.symm, h.overrides.symm, h.bookings.symm, h.settings.symm,
    h.googleIntegrations.symm⟩

theorem Db.AgreeOn.trans {owned : String → Bool} {d₃ : Db} (h : d₁.AgreeOn owned d₂) (h' : d₂.AgreeOn owned d₃) :
    d₁.AgreeOn owned d₃ :=
  ⟨h.coaches.trans h'.coaches, h.eventTypes.trans h'.eventTypes, h.weeklyAvailabilities.trans h'.weeklyAvailabilities,
    h.overrides.trans h'.overrides, h.bookings.trans h'.bookings, h.settings.trans h'.settings,
    h.googleIntegrations.trans h'.googleIntegrations⟩

theorem Apart.refl (h : d₁.AgreeOn (· = c) d₂) : Apart c d₁ d₂ d₁ d₂ := ⟨h, .refl _ _, .refl _ _⟩

namespace Apart

theorem weekly {t₁ t₂} (h : Apart c d₁ d₂ e₁ e₂)
    (hs : Split (fun r => decide (r.coachId = c)) e₁.weeklyAvailabilities e₂.weeklyAvailabilities t₁ t₂) :
    Apart c d₁ d₂ { e₁ with weeklyAvailabilities := t₁ } { e₂ with weeklyAvailabilities := t₂ } :=
  ⟨{ h.own with weeklyAvailabilities := hs.part },
    { h.left with weeklyAvailabilities := h.left.weeklyAvailabilities.trans hs.left },
    { h.right with weeklyAvailabilities := h.right.weeklyAvailabilities.trans hs.right }⟩

theorem override {t₁ t₂} (h : Apart c d₁ d₂ e₁ e₂)
    (hs : Split (fun r => decide (r.coachId = c)) e₁.overrides e₂.overrides t₁ t₂) :
    Apart c d₁ d₂ { e₁ with overrides := t₁ } { e₂ with overrides := t₂ } :=
  ⟨{ h.own with overrides := hs.part }, { h.left with overrides := h.left.overrides.trans hs.left },
    { h.right with overrides := h.right.overrides.trans hs.right }⟩

theorem eventType {t₁ t₂} (h : Apart c d₁ d₂ e₁ e₂)
    (hs : Split (fun r => decide (r.coachId = c)) e₁.eventTypes e₂.eventTypes t₁ t₂) :
    Apart c d₁ d₂ { e₁ with eventTypes := t₁ } { e₂ with eventTypes := t₂ } :=
  ⟨{ h.own with eventTypes := hs.part }, { h.left with eventTypes := h.left.eventTypes.trans hs.left },
    { h.right with eventTypes := h.right.eventTypes.trans hs.right }⟩

theorem booking {t₁ t₂} (h : Apart c d₁ d₂ e₁ e₂)
    (hs : Split (fun r => decide (r.coachId = c)) e₁.bookings e₂.bookings t₁ t₂) :
    Apart c d₁ d₂ { e₁ with bookings := t₁ } { e₂ with bookings := t₂ } :=
  ⟨{ h.own with bookings := hs.part }, { h.left with bookings := h.left.bookings.trans hs.left },
    { h.right with bookings := h.right.bookings.trans hs.right }⟩

theorem setting {t₁ t₂} (h : Apart c d₁ d₂ e₁ e₂)
    (hs : Split (fun r => decide (r.coachId = c)) e₁.settings e₂.settings t₁ t₂) :
    Apart c d₁ d₂ { e₁ with settings := t₁ } { e₂ with settings := t₂ } :=
  ⟨{ h.own with settings := hs.part }, { h.left with settings := h.left.settings.trans hs.left },
    { h.right with settings := h.right.settings.trans hs.right }⟩

end Apart

/-! ## Statements -/

/-- It is about rows of the coach. -/
def Statement.Within (c : String) (d : Db) : Statement → Prop
  | .weeklyCreate coachId _ | .overrideCreate coachId _ | .eventTypeCreate coachId _ | .settingsUpdate coachId _ =>
      coachId = c
  | .weeklyUpdate id _ | .weeklyDelete id => ∃ r, d.weeklyAvailabilities.find id = some r ∧ r.coachId = c
  | .overrideUpdate id _ | .overrideDelete id => ∃ o, d.overrides.find id = some o ∧ o.coachId = c
  | .eventTypeUpdate id _ | .eventTypeDelete id => ∃ e, d.eventTypes.find id = some e ∧ e.coachId = c
  | .eventTypeReorder ids => ∀ id ∈ ids, ∃ e, d.eventTypes.find id = some e ∧ e.coachId = c

theorem found_in_part {ρ : Type} {key : ρ → String} {t₁ t₂ : Table key} {owner : ρ → String} {k : String}
    (h : SamePart (fun r => decide (owner r = c)) t₁ t₂) (hr : ∃ r, t₁.find k = some r ∧ owner r = c) :
    (∀ r, t₁.find k = some r → decide (owner r = c) = true) ∧ ∀ r, t₂.find k = some r → decide (owner r = c) = true := by
  obtain ⟨r, hr, ho⟩ := hr
  have h₂ := h.find hr (by simpa using ho)
  refine ⟨fun s hs => ?_, fun s hs => ?_⟩
  · cases hr.symm.trans hs; simpa using ho
  · cases h₂.symm.trans hs; simpa using ho

theorem requireCoach_eq (h : d₁.AgreeOn (· = c) d₂) : d₁.requireCoach c = d₂.requireCoach c := by
  have hfind : d₁.coaches.find c = d₂.coaches.find c := h.coaches.find_eq
    (fun r hr => by simpa using Table.find_key hr) fun r hr => by simpa using Table.find_key hr
  simp [Db.requireCoach, hfind]

theorem setPosition_alike {id : String} {index : Nat} (h : Apart c d₁ d₂ e₁ e₂)
    (hid : ∃ e, e₁.eventTypes.find id = some e ∧ e.coachId = c) :
    Alike (Apart c d₁ d₂) (e₁.setPosition id index) (e₂.setPosition id index) := by
  obtain ⟨h₁, h₂⟩ := found_in_part h.own.eventTypes hid
  exact (updated_alike (f := fun e => { e with position := index }) (fun _ => rfl) h.own.eventTypes (fun _ => rfl)
    h₁ h₂).bind fun _ _ hs => .ok (h.eventType hs.2)

theorem setPosition_owned {d d' : Db} {id k : String} {index : Nat} (h : d.setPosition id index = .ok d')
    (hk : ∃ e, d.eventTypes.find k = some e ∧ e.coachId = c) : ∃ e, d'.eventTypes.find k = some e ∧ e.coachId = c := by
  obtain ⟨_, rfl⟩ := setPosition_ok.mp h
  obtain ⟨e, he, ho⟩ := hk
  refine ⟨_, find_update_of_some (f := fun e => { e with position := index }) id (fun _ => rfl) he, ?_⟩
  split <;> exact ho

theorem reorder_alike {ids : List (String × Nat)} (h : Apart c d₁ d₂ e₁ e₂)
    (hids : ∀ x ∈ ids, ∃ e, e₁.eventTypes.find x.1 = some e ∧ e.coachId = c) :
    Alike (Apart c d₁ d₂) (Db.reorder ids e₁) (Db.reorder ids e₂) := by
  induction ids generalizing e₁ e₂ with
  | nil => exact .ok h
  | cons x ids ih =>
      refine (setPosition_alike h (hids _ List.mem_cons_self)).results.bind fun f₁ f₂ hf => ?_
      exact ih hf.1 fun y hy => setPosition_owned hf.2.1 (hids y (List.mem_cons_of_mem _ hy))

theorem booked {id : String} (h : d₁.AgreeOn (· = c) d₂) (hb : d₁.BookingsOwned)
    (hid : ∃ e, d₁.eventTypes.find id = some e ∧ e.coachId = c)
    (hx : (d₁.bookings.findFirst fun b => b.eventTypeId = id).isSome) :
    (d₂.bookings.findFirst fun b => b.eventTypeId = id).isSome := by
  obtain ⟨e, he, ho⟩ := hid
  obtain ⟨b, hf⟩ := Option.isSome_iff_exists.mp hx
  obtain ⟨hm, hid⟩ := findFirst_some hf
  rw [decide_eq_true_eq] at hid
  obtain ⟨e', he', ho'⟩ := hb b hm
  cases he.symm.trans (hid ▸ he')
  have hm₂ := (h.bookings.mem (by simpa using ho'.symm.trans ho)).mp hm
  rw [Option.isSome_iff_ne_none]
  intro hn
  simpa [hid] using findFirst_none.mp hn b hm₂

theorem booked_eq {id : String} (h : d₁.AgreeOn (· = c) d₂) (hb₁ : d₁.BookingsOwned) (hb₂ : d₂.BookingsOwned)
    (hid : ∃ e, d₁.eventTypes.find id = some e ∧ e.coachId = c) :
    (d₁.bookings.findFirst fun b => b.eventTypeId = id).isSome =
      (d₂.bookings.findFirst fun b => b.eventTypeId = id).isSome := by
  have hid₂ : ∃ e, d₂.eventTypes.find id = some e ∧ e.coachId = c :=
    hid.imp fun e he => ⟨h.eventTypes.find he.1 (by simpa using he.2), he.2⟩
  exact Bool.eq_iff_iff.mpr ⟨booked h hb₁ hid, booked h.symm hb₂ hid₂⟩

/-- A statement about rows of the coach does the same to two databases with the same rows of the coach, and nothing
to the rows of the others. -/
theorem apply_alike {s : Statement} (h : d₁.AgreeOn (· = c) d₂) (hs : s.Within c d₁) (hb₁ : d₁.BookingsOwned)
    (hb₂ : d₂.BookingsOwned) (hf₁ : d₁.FreshId newId) (hf₂ : d₂.FreshId newId) :
    Alike (fun x y => x.1 = y.1 ∧ Apart c d₁ d₂ x.2 y.2) (d₁.apply newId s) (d₂.apply newId s) := by
  have h' := Apart.refl h
  cases s with
  | weeklyCreate coachId data =>
      subst hs
      simp only [Db.apply, requireCoach_eq h]
      refine (Alike.refl _).bind fun _ _ _ => ?_
      exact (created_alike h.weeklyAvailabilities (decide_eq_true rfl) hf₁.weeklyAvailabilities
        hf₂.weeklyAvailabilities).bind fun _ _ hs => .ok ⟨rfl, h'.weekly hs⟩
  | overrideCreate coachId data =>
      subst hs
      simp only [Db.apply, requireCoach_eq h]
      refine (Alike.refl _).bind fun _ _ _ => ?_
      exact (created_alike h.overrides (decide_eq_true rfl) hf₁.overrides hf₂.overrides).bind
        fun _ _ hs => .ok ⟨rfl, h'.override hs⟩
  | eventTypeCreate coachId data =>
      subst hs
      simp only [Db.apply, requireCoach_eq h]
      refine (Alike.refl _).bind fun _ _ _ => ?_
      exact (created_alike h.eventTypes (decide_eq_true rfl) hf₁.eventTypes hf₂.eventTypes).bind
        fun _ _ hs => .ok ⟨rfl, h'.eventType hs⟩
  | weeklyUpdate id data =>
      obtain ⟨h₁, h₂⟩ := found_in_part h.weeklyAvailabilities hs
      exact (updated_alike (f := fun r => data.toRow r.id r.coachId) (fun _ => rfl) h.weeklyAvailabilities
        (fun _ => rfl) h₁ h₂).bind fun _ _ hs => .ok ⟨hs.1, h'.weekly hs.2⟩
  | overrideUpdate id data =>
      obtain ⟨h₁, h₂⟩ := found_in_part h.overrides hs
      exact (updated_alike (f := fun o => data.toRow o.id o.coachId) (fun _ => rfl) h.overrides (fun _ => rfl)
        h₁ h₂).bind fun _ _ hs => .ok ⟨hs.1, h'.override hs.2⟩
  | weeklyDelete id =>
      obtain ⟨h₁, h₂⟩ := found_in_part h.weeklyAvailabilities hs
      exact (deleted_alike h.weeklyAvailabilities h₁ h₂).bind fun _ _ hs => .ok ⟨rfl, h'.weekly hs⟩
  | overrideDelete id =>
      obtain ⟨h₁, h₂⟩ := found_in_part h.overrides hs
      exact (deleted_alike h.overrides h₁ h₂).bind fun _ _ hs => .ok ⟨rfl, h'.override hs⟩
  | eventTypeUpdate id patch =>
      obtain ⟨h₁, h₂⟩ := found_in_part h.eventTypes hs
      simp only [Db.apply]
      split
      · exact .error
      · exact (updated_alike (f := patch.apply) (fun _ => rfl) h.eventTypes (fun _ => rfl) h₁ h₂).bind
          fun _ _ hs => .ok ⟨hs.1, h'.eventType hs.2⟩
  | eventTypeDelete id =>
      obtain ⟨h₁, h₂⟩ := found_in_part h.eventTypes hs
      rw [Db.apply, Db.apply, booked_eq h hb₁ hb₂ hs]
      split
      · exact .error
      · exact (deleted_alike h.eventTypes h₁ h₂).bind fun _ _ hs => .ok ⟨rfl, h'.eventType hs⟩
  | eventTypeReorder ids =>
      have hids : ∀ x ∈ ids.zipIdx, ∃ e, d₁.eventTypes.find x.1 = some e ∧ e.coachId = c := by
        intro x hx
        exact hs x.1 (by simpa using List.mem_map_of_mem (f := (·.1)) hx)
      exact (reorder_alike h' hids).bind fun _ _ hs => .ok ⟨rfl, hs⟩
  | settingsUpdate coachId patch =>
      subst hs
      simp only [Db.apply]
      split
      · exact .error
      · exact (updated_alike (f := patch.apply) (fun _ => rfl) h.settings (fun _ => rfl)
          (fun s hs => by simpa using find_key hs) fun s hs => by simpa using find_key hs).bind
          fun _ _ hs => .ok ⟨hs.1, h'.setting hs.2⟩

/-! ## Operations -/

theorem Apart.trans (h : Apart c d₁ d₂ e₁ e₂) (h' : Apart c e₁ e₂ d₁' d₂') : Apart c d₁ d₂ d₁' d₂' :=
  ⟨h'.own, h.left.trans h'.left, h.right.trans h'.right⟩

namespace Dashboard
open Lib.Prog

/-- Two databases on the way, before a request changes a row. -/
structure Before (c : String) (choices : Nat → Choice) (d₁ d₂ e₁ e₂ : Db) : Prop where
  apart : Apart c d₁ d₂ e₁ e₂
  booked₁ : e₁.BookingsOwned
  booked₂ : e₂.BookingsOwned
  fresh₁ : ∀ n, e₁.FreshId (choices n).newId
  fresh₂ : ∀ n, e₂.FreshId (choices n).newId

/-- A relation between databases, between worlds. -/
def On (K : Db → Db → Prop) (w₁ w₂ : World) : Prop := K w₁.db w₂.db

variable {choices : Nat → Choice} {coach : Coach} {K : Db → Db → Prop} {α : Type}

/-- The two runs of a program from databases related by `K` end in databases related by `Q`. -/
abbrev Apartly (choices : Nat → Choice) (K : Db → Db → Prop) (p : DashboardProg α)
    (Q : Except Failure α → Db → Db → Prop) : Prop := Twin exec choices (On K) p fun r => On (Q r)

theorem read_twin {o : Op} (hdb : ∀ w ch, (exec w o ch).2.db = w.db)
    (hans : ∀ w₁ w₂ n, K w₁.db w₂.db → (exec w₁ o (choices n)).1 = (exec w₂ o (choices n)).1) :
    Apartly choices K (perform o) fun _ => K := by
  refine .perform fun n w₁ w₂ h => ⟨hans w₁ w₂ n h, ?_⟩
  rw [On, hdb, hdb]
  exact h

theorem write_twin {s : Statement} (hK : ∀ e₁ e₂, K e₁ e₂ → Before c choices d₁ d₂ e₁ e₂ ∧ s.Within c e₁) :
    Apartly choices K (perform (Op.write s)) fun _ => Apart c d₁ d₂ := by
  refine .perform fun n w₁ w₂ h => ?_
  obtain ⟨hb, hs⟩ := hK _ _ h
  have ha := apply_alike hb.apart.own hs hb.booked₁ hb.booked₂ (hb.fresh₁ n) (hb.fresh₂ n)
  simp only [exec, mayFail]
  cases (choices n).fault with
  | some e => exact ⟨rfl, hb.apart⟩
  | none =>
      generalize w₁.db.apply _ s = x₁ at ha ⊢
      generalize w₂.db.apply _ s = x₂ at ha ⊢
      cases ha with
      | error => exact ⟨rfl, hb.apart⟩
      | @ok x y hr =>
          obtain ⟨a, f₁⟩ := x
          obtain ⟨b, f₂⟩ := y
          exact ⟨congrArg Except.ok hr.1, hb.apart.trans hr.2⟩

/-! ## Lookups -/

/-- The row of a lookup, when the coach owns it. -/
def ownedRow {ρ : Type} (owner : ρ → String) (coachId : String) (message : Message) (row : Option ρ) :
    Except Failure ρ :=
  match row.filter fun r => owner r = coachId with
  | none => .error (.notFound message)
  | some r => .ok r

theorem ownedRow_ok {ρ : Type} {owner : ρ → String} {coachId : String} {message : Message} {row : Option ρ} {r : ρ} :
    ownedRow owner coachId message row = .ok r ↔ row = some r ∧ owner r = coachId := by
  unfold ownedRow
  cases row with
  | none => simp
  | some s =>
      by_cases hs : owner s = coachId
      · simp only [Option.filter_some, hs, decide_true, if_true, Except.ok.injEq, Option.some.injEq]
        exact ⟨fun h => ⟨h, h ▸ hs⟩, fun h => h.1⟩
      · simp only [Option.filter_some, hs, decide_false, Bool.false_eq_true, if_false, reduceCtorEq, false_iff]
        rintro ⟨h, ho⟩
        cases h; exact hs ho

theorem assertCoachOwnsOrIsAdmin_eq {Op ρ : Type} {Ans : Op → Type} {owner : ρ → String} {message : Message}
    (hc : coach.role = .coach) (row : Option ρ) :
    (assertCoachOwnsOrIsAdmin owner coach row message : Prog Ans Failure ρ) =
      ofResult (ownedRow owner coach.id message row) := by
  cases row with
  | none => rfl
  | some r =>
      by_cases ho : owner r = coach.id <;>
        simp [assertCoachOwnsOrIsAdmin, ownedRow, Option.filter_some, hc, ho, ofResult]

theorem owned_twin {ρ : Type} {key owner : ρ → String} {table : Db → Table key} {id : String} {message : Message} {o : Op}
    {row : Ans o → Option ρ} (hc : coach.role = .coach)
    (hK : ∀ e₁ e₂, K e₁ e₂ → SamePart (fun r => decide (owner r = coach.id)) (table e₁) (table e₂))
    (hexec : ∀ w ch, ∃ a, row a = (table w.db).find id ∧ exec w o ch = mayFail ch.fault w (.ok a, w)) :
    Apartly choices K ((perform o).bind fun a => assertCoachOwnsOrIsAdmin owner coach (row a) message) fun r e₁ e₂ =>
      K e₁ e₂ ∧ ∀ a, r = .ok a → (table e₁).find id = some a ∧ owner a = coach.id := by
  have hcheck : (fun a => (assertCoachOwnsOrIsAdmin owner coach (row a) message : DashboardProg ρ)) =
      fun a => ofResult (ownedRow owner coach.id message (row a)) :=
    funext fun a => assertCoachOwnsOrIsAdmin_eq hc _
  rw [hcheck]
  refine .checked fun n w₁ w₂ h => ?_
  obtain ⟨a₁, ha₁, hx₁⟩ := hexec w₁ (choices n)
  obtain ⟨a₂, ha₂, hx₂⟩ := hexec w₂ (choices n)
  simp only [hx₁, hx₂, mayFail]
  cases (choices n).fault with
  | some e => exact ⟨rfl, h, by simp [Except.bind]⟩
  | none =>
      refine ⟨?_, h, fun a ha => ?_⟩
      · simp only [Except.bind, ha₁, ha₂, ownedRow, (hK _ _ h).find_filter]
      · simpa only [Except.bind, ha₁, ownedRow_ok] using ha

theorem weekly_assertOwnership_twin {id : String} (hc : coach.role = .coach) :
    Apartly choices (Before coach.id choices d₁ d₂) (WeeklyAvailabilityService.assertOwnership coach id) fun r e₁ e₂ =>
      Before coach.id choices d₁ d₂ e₁ e₂ ∧
        ∀ a, r = .ok a → e₁.weeklyAvailabilities.find id = some a ∧ a.coachId = coach.id :=
  owned_twin hc (fun _ _ h => h.apart.own.weeklyAvailabilities) fun _ _ => ⟨_, rfl, rfl⟩

theorem override_assertOwnership_twin {id : String} (hc : coach.role = .coach) :
    Apartly choices (Before coach.id choices d₁ d₂) (AvailabilityOverrideService.assertOwnership coach id) fun r e₁ e₂ =>
      Before coach.id choices d₁ d₂ e₁ e₂ ∧ ∀ a, r = .ok a → e₁.overrides.find id = some a ∧ a.coachId = coach.id :=
  owned_twin hc (fun _ _ h => h.apart.own.overrides) fun _ _ => ⟨_, rfl, rfl⟩

theorem eventType_assertOwnership_twin {id : String} (hc : coach.role = .coach) :
    Apartly choices (Before coach.id choices d₁ d₂) (EventTypesService.assertOwnership coach id) fun r e₁ e₂ =>
      Before coach.id choices d₁ d₂ e₁ e₂ ∧ ∀ a, r = .ok a → e₁.eventTypes.find id = some a ∧ a.coachId = coach.id :=
  owned_twin hc (fun _ _ h => h.apart.own.eventTypes) fun _ _ => ⟨_, rfl, unlessFault_eq _⟩

/-! ## Requests -/

theorem Apartly.map {β : Type} {p : DashboardProg α} {f : α → β} {Q : Db → Db → Prop}
    (h : Apartly choices K p fun _ => Q) : Apartly choices K (p.bind fun a => .pure (f a)) fun _ => Q :=
  .bind h (fun _ => .pure fun _ _ h => h) fun _ _ _ h => h

theorem resolveCoachScope_twin {β : Type} (hc : coach.role = .coach) (coachId : Option String)
    {f : String → DashboardProg β} {Q : Except Failure β → Db → Db → Prop} (hf : Apartly choices K (f coach.id) Q)
    (he : ∀ e e₁ e₂, K e₁ e₂ → Q (.error e) e₁ e₂) :
    Apartly choices K ((resolveCoachScope coach coachId).bind f) Q := by
  unfold resolveCoachScope
  rw [if_neg (by simp [hc])]
  split
  · exact .throw fun _ _ h => he _ _ _ h
  · exact hf

theorem find_twin {o : Op} (look : Db → Ans o) (hexec : ∀ w ch, exec w o ch = mayFail ch.fault w (.ok (look w.db), w))
    (hK : ∀ e₁ e₂, K e₁ e₂ → look e₁ = look e₂) : Apartly choices K (perform o) fun _ => K := by
  refine read_twin (fun w ch => ?_) fun w₁ w₂ n h => ?_
  · rw [hexec]; unfold mayFail; cases ch.fault <;> rfl
  · rw [hexec, hexec, hK _ _ h]; unfold mayFail; cases (choices n).fault <;> rfl

section Requests

variable {id : String} {toDateOnly : String → Option Int}

abbrev Start (choices : Nat → Choice) (coach : Coach) (d₁ d₂ : Db) : Db → Db → Prop :=
  Before coach.id choices d₁ d₂

abbrev End (coach : Coach) (d₁ d₂ : Db) {α : Type} : Except Failure α → Db → Db → Prop :=
  fun _ => Apart coach.id d₁ d₂

theorem dateOf_twin {date : Option Int} {f : Int → DashboardProg α} {Q : Except Failure α → Db → Db → Prop}
    (hf : ∀ date, Apartly choices K (f date) Q) (he : ∀ e e₁ e₂, K e₁ e₂ → Q (.error e) e₁ e₂) :
    Apartly choices K ((AvailabilityOverrideService.dateOf date).bind f) Q := by
  unfold AvailabilityOverrideService.dateOf
  split
  · exact .throw fun _ _ h => he _ _ _ h
  · exact hf _

theorem assertValidMinutes_twin {startMinute endMinute : Option Int} {f : Unit → DashboardProg α}
    {Q : Except Failure α → Db → Db → Prop} (hf : Apartly choices K (f ()) Q)
    (he : ∀ e e₁ e₂, K e₁ e₂ → Q (.error e) e₁ e₂) :
    Apartly choices K ((AvailabilityOverrideService.assertValidMinutes startMinute endMinute).bind f) Q := by
  unfold AvailabilityOverrideService.assertValidMinutes
  split
  · split
    · exact .throw fun _ _ h => he _ _ _ h
    · exact hf
  · exact .throw fun _ _ h => he _ _ _ h

theorem weeklyCreate_twin (dto : CreateWeeklyAvailabilityDto) : Apartly choices (Start choices coach d₁ d₂)
    (WeeklyAvailabilityService.create coach dto) (End coach d₁ d₂) := by
  unfold WeeklyAvailabilityService.create WeeklyAvailabilityService.assertValidRange
  split
  · exact .throw fun _ _ h => h.apart
  · exact write_twin fun _ _ h => ⟨h, rfl⟩

theorem overrideCreate_twin (dto : CreateAvailabilityOverrideDto) : Apartly choices (Start choices coach d₁ d₂)
    (AvailabilityOverrideService.create toDateOnly coach dto) (End coach d₁ d₂) := by
  unfold AvailabilityOverrideService.create
  dsimp only
  split
  · exact assertValidMinutes_twin (dateOf_twin (fun _ => write_twin fun _ _ h => ⟨h, rfl⟩) fun _ _ _ h => h.apart)
      fun _ _ _ h => h.apart
  · exact dateOf_twin (fun _ => write_twin fun _ _ h => ⟨h, rfl⟩) fun _ _ _ h => h.apart

theorem nextPosition_twin : Apartly choices (Start choices coach d₁ d₂) (EventTypesService.nextPosition coach.id)
    fun _ => Start choices coach d₁ d₂ := by
  refine .map (find_twin (fun d => ((d.eventTypes.findMany fun e => e.coachId = coach.id).map
    (·.position)).max?) (fun _ _ => rfl) fun _ _ h => ?_)
  rw [h.apart.own.eventTypes]

theorem eventTypeCreate_twin (dto : CreateEventTypeDto) : Apartly choices (Start choices coach d₁ d₂)
    (EventTypesService.create coach dto) (End coach d₁ d₂) := by
  have write : ∀ data, Apartly choices (Start choices coach d₁ d₂) (perform (Op.write (.eventTypeCreate coach.id data)))
      (End coach d₁ d₂) := fun _ => write_twin fun _ _ h => ⟨h, rfl⟩
  unfold EventTypesService.create
  dsimp only
  split
  · exact write _
  · exact .bind nextPosition_twin (fun _ => write _) fun _ _ _ h => h.apart

section Owned

variable (hc : coach.role = .coach)
include hc

theorem weeklyUpdate_twin (dto : UpdateWeeklyAvailabilityDto) : Apartly choices (Start choices coach d₁ d₂)
    (WeeklyAvailabilityService.update coach id dto) (End coach d₁ d₂) := by
  refine .bind (weekly_assertOwnership_twin hc) (fun existing => ?_) fun _ _ _ h => h.1.apart
  dsimp only
  unfold WeeklyAvailabilityService.assertValidRange
  split
  · exact .throw fun _ _ h => h.1.apart
  · exact write_twin fun _ _ h => ⟨h.1, _, h.2 _ rfl⟩

theorem weeklyRemove_twin : Apartly choices (Start choices coach d₁ d₂)
    (WeeklyAvailabilityService.remove coach id) (End coach d₁ d₂) :=
  .bind (weekly_assertOwnership_twin hc) (fun _ => write_twin fun _ _ h => ⟨h.1, _, h.2 _ rfl⟩) fun _ _ _ h => h.1.apart

theorem overrideUpdate_twin (dto : UpdateAvailabilityOverrideDto) : Apartly choices (Start choices coach d₁ d₂)
    (AvailabilityOverrideService.update toDateOnly coach id dto) (End coach d₁ d₂) := by
  refine .bind (override_assertOwnership_twin hc) (fun existing => ?_) fun _ _ _ h => h.1.apart
  dsimp only
  split
  · exact assertValidMinutes_twin (dateOf_twin (fun _ => write_twin fun _ _ h => ⟨h.1, _, h.2 _ rfl⟩)
      fun _ _ _ h => h.1.apart) fun _ _ _ h => h.1.apart
  · exact dateOf_twin (fun _ => write_twin fun _ _ h => ⟨h.1, _, h.2 _ rfl⟩) fun _ _ _ h => h.1.apart

theorem overrideRemove_twin : Apartly choices (Start choices coach d₁ d₂)
    (AvailabilityOverrideService.remove coach id) (End coach d₁ d₂) :=
  .bind (override_assertOwnership_twin hc) (fun _ => write_twin fun _ _ h => ⟨h.1, _, h.2 _ rfl⟩)
    fun _ _ _ h => h.1.apart

theorem eventTypeUpdate_twin (patch : EventTypePatch) : Apartly choices (Start choices coach d₁ d₂)
    (EventTypesService.update coach id patch) (End coach d₁ d₂) :=
  .bind (eventType_assertOwnership_twin hc) (fun _ => write_twin fun _ _ h =>
    ⟨h.1, _, find_self (h.2 _ rfl).1, (h.2 _ rfl).2⟩) fun _ _ _ h => h.1.apart

theorem eventTypeArchive_twin : Apartly choices (Start choices coach d₁ d₂)
    (EventTypesService.archive coach id) (End coach d₁ d₂) :=
  .bind (eventType_assertOwnership_twin hc) (fun _ => write_twin fun _ _ h =>
    ⟨h.1, _, find_self (h.2 _ rfl).1, (h.2 _ rfl).2⟩) fun _ _ _ h => h.1.apart

theorem eventTypeRemove_twin : Apartly choices (Start choices coach d₁ d₂)
    (EventTypesService.remove coach id) (End coach d₁ d₂) := by
  refine .bind (eventType_assertOwnership_twin hc) (fun e => ?_) fun _ _ _ h => h.1.apart
  refine .orElse (write_twin fun _ _ h => ⟨h.1, _, find_self (h.2 _ rfl).1, (h.2 _ rfl).2⟩) (fun error => ?_)
    fun _ _ _ h => h
  split
  · exact .throw fun _ _ h => h
  · exact .throw fun _ _ h => h

end Owned

theorem ids_of_length {ρ : Type} {key : ρ → String} {t : Table key} {p : ρ → Bool} {ids : List String}
    (h : (t.findMany fun r => ids.contains (key r) && p r).length = ids.length) :
    ∀ id ∈ ids, ∃ r, t.find id = some r ∧ p r = true := by
  intro id hid
  obtain ⟨r, hr, rfl⟩ := List.mem_map.mp ((keys_perm h).mem_iff.mpr hid)
  obtain ⟨hm, hp⟩ := mem_findMany.mp hr
  rw [Bool.and_eq_true] at hp
  exact ⟨r, find_some.mpr ⟨hm, rfl⟩, hp.2⟩

theorem eventTypeReorder_twin (ids : List String) : Apartly choices (Start choices coach d₁ d₂)
    (EventTypesService.reorder coach ids) (End coach d₁ d₂) := by
  -- the rows that are found
  have hfind : Apartly choices (Start choices coach d₁ d₂) (perform (Op.eventTypeFindOwned ids coach.id)) fun r e₁ e₂ =>
      Start choices coach d₁ d₂ e₁ e₂ ∧ ∀ owned, r = .ok owned →
        owned = e₁.eventTypes.findMany fun e => ids.contains e.id && e.coachId = coach.id := by
    refine .perform fun n w₁ w₂ h => ?_
    have hrows : (w₁.db.eventTypes.findMany fun e => ids.contains e.id && decide (e.coachId = coach.id)) =
        w₂.db.eventTypes.findMany fun e => ids.contains e.id && decide (e.coachId = coach.id) := by
      simp only [Bool.and_comm (List.contains _ _), findMany_and]
      rw [h.apart.own.eventTypes]
    simp only [exec, mayFail]
    cases (choices n).fault with
    | some e => exact ⟨rfl, h, by simp⟩
    | none => exact ⟨congrArg Except.ok hrows, h, fun owned ho => (Except.ok.inj ho).symm⟩
  refine .bind hfind (fun owned => ?_) fun _ _ _ h => h.1.apart
  dsimp only
  split
  · exact .throw fun _ _ h => h.1.apart
  · rename_i hlen
    refine write_twin fun e₁ _ h => ⟨h.1, fun id hid => ?_⟩
    obtain ⟨e, he, ho⟩ := ids_of_length (by rw [← h.2 _ rfl]; simpa using hlen) id hid
    exact ⟨e, he, by simpa using ho⟩

/-! ## Settings and bookings -/

/-- A program of the booking side does the same among the operations of the dashboard. -/
theorem run_ofBooking (choices : Nat → Choice) (p : BookingProg α) (w : World) (t : List (Entry World Ans Failure)) (t' : Trace)
    (ht : t.length = t'.length) :
    let out := (ofBooking p).run exec (decided choices) w t
    let out' := p.run CoachingCalendar.exec (decided choices) w t'
    out.result = out'.result ∧ out.world = out'.world ∧ out.trace.length = out'.trace.length := by
  induction p generalizing w t t' with
  | pure _ | throw _ => exact ⟨rfl, rfl, ht⟩
  | op o k ih =>
      simp only [ofBooking, run, decided, ht]
      exact ih _ _ _ _ (by simp [ht])

theorem ofBooking_twin {p : BookingProg α} {pre : World → World → Prop} {post : Except Failure α → World → World → Prop}
    (h : Twin CoachingCalendar.exec choices pre p post) : Twin exec choices pre (ofBooking p) post := by
  intro w₁ w₂ t₁ t₂ ht hp
  have tr : ∀ t : List (Entry World Ans Failure), ∃ t' : Trace, t.length = t'.length :=
    fun t => ⟨List.replicate t.length ⟨w₁, ⟨.now, .ok 0⟩⟩, by simp⟩
  obtain ⟨t₁', ht₁⟩ := tr t₁
  obtain ⟨t₂', ht₂⟩ := tr t₂
  obtain ⟨hr₁, hw₁, hl₁⟩ := run_ofBooking choices p w₁ t₁ t₁' ht₁
  obtain ⟨hr₂, hw₂, hl₂⟩ := run_ofBooking choices p w₂ t₂ t₂' ht₂
  rw [hr₁, hr₂, hw₁, hw₂, hl₁, hl₂]
  exact h w₁ w₂ t₁' t₂' (by omega) hp

/-- The same of a program of the booking side. -/
abbrev BookedApart (choices : Nat → Choice) (K : Db → Db → Prop) (p : BookingProg α)
    (Q : Except Failure α → Db → Db → Prop) : Prop := Twin CoachingCalendar.exec choices (On K) p fun r => On (Q r)

theorem look_twin {o : CoachingCalendar.Op} (look : Db → CoachingCalendar.Ans o)
    (hexec : ∀ w ch, CoachingCalendar.exec w o ch = unlessFault ch w (.ok (look w.db), w))
    (hK : ∀ e₁ e₂, K e₁ e₂ → look e₁ = look e₂) : BookedApart choices K (perform o) fun _ => K := by
  refine .perform fun n w₁ w₂ h => ?_
  rw [hexec, hexec, hK _ _ h]
  unfold unlessFault
  cases (choices n).fault <;> exact ⟨rfl, h⟩

theorem coach_eq (h : d₁.AgreeOn (· = c) d₂) : d₁.coaches.find c = d₂.coaches.find c :=
  h.coaches.find_eq (fun r hr => by simpa using find_key hr) fun r hr => by simpa using find_key hr

theorem settingsUpsert_twin : BookedApart choices (Start choices coach d₁ d₂)
    (perform (CoachingCalendar.Op.settingsUpsert coach.id)) fun _ => Start choices coach d₁ d₂ := by
  refine .perform fun n w₁ w₂ h => ?_
  have hfind : w₁.db.settings.find coach.id = w₂.db.settings.find coach.id := h.apart.own.settings.find_eq
    (fun r hr => by simpa using find_key hr) fun r hr => by simpa using find_key hr
  simp only [CoachingCalendar.exec, unlessFault]
  cases (choices n).fault with
  | some e => exact ⟨rfl, h⟩
  | none =>
      dsimp only
      rw [← hfind]
      cases hs : w₁.db.settings.find coach.id with
      | some s => exact ⟨rfl, h⟩
      | none =>
          obtain ⟨t₁, ht₁⟩ := insert_of_fresh (r := ({ coachId := coach.id } : Settings)) hs
          obtain ⟨t₂, ht₂⟩ := insert_of_fresh (r := ({ coachId := coach.id } : Settings)) (hfind ▸ hs)
          refine ⟨rfl, ?_⟩
          simp only [ht₁, ht₂, On, World.write, Option.getD_some]
          exact ⟨h.apart.setting (.insert h.apart.own.settings (decide_eq_true rfl) ht₁ ht₂), h.booked₁, h.booked₂,
            fun n => ⟨(h.fresh₁ n).1, (h.fresh₁ n).2, (h.fresh₁ n).3⟩,
            fun n => ⟨(h.fresh₂ n).1, (h.fresh₂ n).2, (h.fresh₂ n).3⟩⟩

theorem settingsGet_twin : BookedApart choices (Start choices coach d₁ d₂)
    (CoachingCalendar.SettingsService.get coach.id) fun _ => Start choices coach d₁ d₂ := by
  refine .bind (look_twin (fun d => d.coaches.find coach.id) (fun _ _ => rfl) fun _ _ (h : Before _ _ _ _ _ _) =>
    coach_eq h.apart.own) (fun found => ?_) fun _ _ _ h => h
  dsimp only
  split
  · exact .throw fun _ _ h => h
  · exact settingsUpsert_twin

theorem settingsUpdate_twin (dto : UpdateSettingsDto) : Apartly choices (Start choices coach d₁ d₂)
    (SettingsService.update coach.id dto) (End coach d₁ d₂) := by
  refine .bind (ofBooking_twin settingsGet_twin) (fun _ => ?_) fun _ _ _ (h : Before _ _ _ _ _ _) => h.apart
  dsimp only
  split
  · exact .throw fun _ _ (h : Before _ _ _ _ _ _) => h.apart
  · exact write_twin fun _ _ h => ⟨h, rfl⟩

theorem Before.withRelations_eq {b b' : Booking} (h : Before c choices d₁ d₂ e₁ e₂) (hb : b ∈ e₁.bookings)
    (ho : b.coachId = c) (he : b'.eventTypeId = b.eventTypeId) (hco : b'.coachId = b.coachId) :
    e₁.withRelations b' = e₂.withRelations b' := by
  obtain ⟨e, hf, heo⟩ := h.booked₁ b hb
  have hf₂ := h.apart.own.eventTypes.find hf (by simpa using heo.trans ho)
  simp only [Db.withRelations, he, hco, ho, hf, hf₂, coach_eq h.apart.own]

theorem bookingFindAll_twin (hc : coach.role = .coach) (hid : coach.id ≠ "") (coachId : Option String) :
    Apartly choices (Start choices coach d₁ d₂) (BookingsService.findAll coach coachId) (End coach d₁ d₂) := by
  unfold BookingsService.findAll
  dsimp only
  rw [if_neg (by simp [hc]), bind_eq, map_eq, bind_assoc]
  refine resolveCoachScope_twin hc coachId ?_ fun _ _ _ h => h.apart
  have hscope : (some coach.id).filter (fun x => decide (x ≠ "")) = some coach.id := by simp [Option.filter_some, hid]
  show Apartly choices _ (perform (Op.bookingFindMany ((some coach.id).filter fun x => decide (x ≠ "")))) _
  rw [hscope]
  refine .conseq (find_twin (fun d => ((d.bookings.findMany fun b => b.coachId = coach.id).mergeSort fun a b =>
    a.startAt ≤ b.startAt).map d.withRelations) (fun _ _ => rfl) fun e₁ e₂ h => ?_) (fun _ _ h => h)
    fun _ _ _ h => Before.apart h
  have h : Before coach.id choices d₁ d₂ e₁ e₂ := h
  rw [← h.apart.own.bookings]
  refine List.map_congr_left fun b hb => ?_
  rw [List.mem_mergeSort, mem_findMany] at hb
  exact h.withRelations_eq hb.1 (by simpa using hb.2) rfl rfl

/-! ### A cancellation -/

/-- The booking that the coach cancels has been found. -/
def HasBooking (choices : Nat → Choice) (coach : Coach) (d₁ d₂ : Db) (b : BookingWithRelations) (e₁ e₂ : Db) : Prop :=
  Start choices coach d₁ d₂ e₁ e₂ ∧ e₁.bookings.find b.id = some b.toBooking ∧ b.coachId = coach.id

variable {P : Platform} {b : BookingWithRelations}

theorem getAuthenticatedClient_twin : BookedApart choices (HasBooking choices coach d₁ d₂ b)
    (getAuthenticatedClient P b.coachId) fun _ => HasBooking choices coach d₁ d₂ b := by
  refine .bind (look_twin (fun d => d.googleIntegrations.find b.coachId) (fun _ _ => rfl) fun e₁ e₂ h => ?_)
    (fun found => ?_) fun _ _ _ h => h
  · rw [h.2.2]
    exact h.1.apart.own.googleIntegrations.find_eq (fun r hr => by simpa using find_key hr)
      fun r hr => by simpa using find_key hr
  · dsimp only
    split
    · exact .throw fun _ _ h => h
    · split
      · exact .throw fun _ _ h => h
      · exact .pure fun _ _ h => h

theorem deleteEvent_twin (eventId : Nat) :
    BookedApart choices (HasBooking choices coach d₁ d₂ b) (deleteEvent P b.coachId eventId)
      fun _ => HasBooking choices coach d₁ d₂ b := by
  have hdelete : BookedApart choices (HasBooking choices coach d₁ d₂ b)
      (perform (CoachingCalendar.Op.calendarDelete b.coachId eventId)) fun _ => HasBooking choices coach d₁ d₂ b := by
    refine .perform fun n w₁ w₂ h => ?_
    simp only [CoachingCalendar.exec, unlessFault]
    cases (choices n).fault <;> exact ⟨rfl, h⟩
  exact .bind getAuthenticatedClient_twin (fun _ => .orElse hdelete (fun _ => .pure fun _ _ h => h) fun _ _ _ h => h)
    fun _ _ _ h => h

theorem bookingUpdate_twin (patch : BookingPatch) : BookedApart choices (HasBooking choices coach d₁ d₂ b)
    (perform (CoachingCalendar.Op.bookingUpdate b.id patch)) (End coach d₁ d₂) := by
  refine .perform fun n w₁ w₂ h => ?_
  obtain ⟨h, hf, ho⟩ := h
  have hf₂ := h.apart.own.bookings.find hf (by simpa using ho)
  simp only [CoachingCalendar.exec, unlessFault]
  cases (choices n).fault with
  | some e => exact ⟨rfl, h.apart⟩
  | none =>
      dsimp only
      rw [hf, hf₂]
      refine ⟨congrArg Except.ok (h.withRelations_eq (find_mem hf) ho rfl rfl), ?_⟩
      exact h.apart.booking (.update patch.apply_id h.apart.own.bookings (fun _ => rfl) hf (by simpa using ho))

theorem enqueue_twin (updated : BookingWithRelations) (kind : NotificationKind) :
    BookedApart choices (Apart coach.id d₁ d₂) (CoachingCalendar.BookingsService.enqueue updated kind)
      (End coach d₁ d₂) := by
  refine .perform fun n w₁ w₂ h => ?_
  simp only [CoachingCalendar.exec, unlessFault]
  cases (choices n).fault <;> exact ⟨rfl, h⟩

theorem applyCancellation_twin (cancelledBy : CancelledBy) (reason : Option String) :
    BookedApart choices (HasBooking choices coach d₁ d₂ b)
      (CoachingCalendar.BookingsService.applyCancellation P b cancelledBy reason) (End coach d₁ d₂) := by
  unfold CoachingCalendar.BookingsService.applyCancellation
  dsimp only
  split
  · exact .bind (deleteEvent_twin _) (fun _ => bookingUpdate_twin _) fun _ _ _ h => h.1.apart
  · exact bookingUpdate_twin _

theorem ownedRow_withRelations {message : Message} (d : Db) (coachId : String) (row : Option Booking) :
    ownedRow (·.coachId) coachId message (row.map d.withRelations) =
      match row.filter fun b => b.coachId = coachId with
      | none => .error (.notFound message)
      | some b => .ok (d.withRelations b) := by
  cases row with
  | none => rfl
  | some b => by_cases ho : b.coachId = coachId <;> simp [ownedRow, Option.filter_some, ho]

theorem ownedBooking_eq {message : Message} {id : String} (h : Start choices coach d₁ d₂ e₁ e₂) :
    ownedRow (·.coachId) coach.id message ((e₁.bookings.find id).map e₁.withRelations) =
      ownedRow (·.coachId) coach.id message ((e₂.bookings.find id).map e₂.withRelations) := by
  rw [ownedRow_withRelations, ownedRow_withRelations, ← h.apart.own.bookings.find_filter]
  cases hb : (e₁.bookings.find id).filter fun b => decide (b.coachId = coach.id) with
  | none => rfl
  | some b =>
      obtain ⟨hf, ho⟩ := Option.filter_eq_some_iff.mp hb
      exact congrArg Except.ok (h.withRelations_eq (find_mem hf) (by simpa using ho) rfl rfl)

theorem cancelByCoach_twin (hc : coach.role = .coach) (id reason : String) :
    BookedApart choices (Start choices coach d₁ d₂) (CoachingCalendar.BookingsService.cancelByCoach P coach id reason)
      (End coach d₁ d₂) := by
  -- the lookup and the check of the owner
  have hcheck : (fun found => (assertCoachOwnsOrIsAdmin (·.coachId) coach found
      (.translated "errors.bookingNotFound" coach.preferredLocale) : BookingProg BookingWithRelations)) =
      fun found => ofResult (ownedRow (·.coachId) coach.id (.translated "errors.bookingNotFound" coach.preferredLocale) found) :=
    funext fun _ => assertCoachOwnsOrIsAdmin_eq hc _
  have hlook : BookedApart choices (Start choices coach d₁ d₂) ((perform (CoachingCalendar.Op.bookingFindUnique id)).bind
      fun found => assertCoachOwnsOrIsAdmin (·.coachId) coach found
        (.translated "errors.bookingNotFound" coach.preferredLocale)) fun r e₁ e₂ =>
      Start choices coach d₁ d₂ e₁ e₂ ∧ ∀ b, r = .ok b → HasBooking choices coach d₁ d₂ b e₁ e₂ := by
    rw [hcheck]
    refine .checked fun n w₁ w₂ h => ?_
    simp only [CoachingCalendar.exec, unlessFault]
    cases (choices n).fault with
    | some e => exact ⟨rfl, h, by simp [Except.bind]⟩
    | none =>
        refine ⟨ownedBooking_eq h, h, fun b hb => ?_⟩
        obtain ⟨hf, ho⟩ := ownedRow_ok.mp hb
        obtain ⟨row, hrow, rfl⟩ := Option.map_eq_some_iff.mp hf
        exact ⟨h, find_self hrow, ho⟩
  unfold CoachingCalendar.BookingsService.cancelByCoach
  simp only [bind_eq]
  rw [← bind_assoc]
  refine .bind hlook (fun booking => ?_) fun _ _ _ h => h.1.apart
  unfold assertConfirmed
  split
  · exact .throw fun _ _ h => h.1.apart
  · have hcancel : BookedApart choices (fun e₁ e₂ => Start choices coach d₁ d₂ e₁ e₂ ∧
        ∀ b, .ok booking = (.ok b : Except Failure _) → HasBooking choices coach d₁ d₂ b e₁ e₂)
        (CoachingCalendar.BookingsService.applyCancellation P booking .coach (some reason)) (End coach d₁ d₂) :=
      .conseq (applyCancellation_twin _ _) (fun _ _ h => h.2 _ rfl) fun _ _ _ h => h
    show Twin _ _ _ (Prog.bind (CoachingCalendar.BookingsService.applyCancellation P booking .coach (some reason)) _) _
    refine .bind hcancel (fun updated => ?_) fun _ _ _ h => h
    exact .bind (enqueue_twin updated .cancelled) (fun _ => .pure fun _ _ h => h) fun _ _ _ h => h

theorem findEnd_twin {o : Op} (look : Db → Ans o) (hexec : ∀ w ch, exec w o ch = mayFail ch.fault w (.ok (look w.db), w))
    (hlook : ∀ e₁ e₂ : Db, e₁.AgreeOn (· = coach.id) e₂ → look e₁ = look e₂) :
    Apartly choices (Start choices coach d₁ d₂) (perform o) (End coach d₁ d₂) :=
  .conseq (find_twin look hexec fun _ _ (h : Before coach.id choices d₁ d₂ _ _) => hlook _ _ h.apart.own) (fun _ _ h => h)
    fun _ _ _ h => Before.apart h

/-- Every request of a coach who is no admin. -/
theorem Request.body_twin (hc : coach.role = .coach) (hid : coach.id ≠ "") (request : Request) :
    Apartly choices (Start choices coach d₁ d₂) (request.body P toDateOnly coach) (End coach d₁ d₂) := by
  cases request with
  | weeklyFind coachId =>
      refine resolveCoachScope_twin hc coachId (.map (findEnd_twin (fun d =>
        (d.weeklyAvailabilities.findMany fun r => r.coachId = coach.id).mergeSort fun a b =>
          a.weekday < b.weekday || (a.weekday = b.weekday && a.startMinute ≤ b.startMinute)) (fun _ _ => rfl)
        fun _ _ h => ?_)) fun _ _ _ h => h.apart
      rw [h.weeklyAvailabilities]
  | overrideFind coachId =>
      refine resolveCoachScope_twin hc coachId (.map (findEnd_twin (fun d =>
        (d.overrides.findMany fun o => o.coachId = coach.id).mergeSort fun a b => a.date ≤ b.date) (fun _ _ => rfl)
        fun _ _ h => ?_)) fun _ _ _ h => h.apart
      rw [h.overrides]
  | eventTypeFindMine coachId =>
      refine resolveCoachScope_twin hc coachId (.map (findEnd_twin (fun d =>
        (d.eventTypes.findMany fun e => e.coachId = coach.id).mergeSort fun a b =>
          a.position < b.position || (a.position = b.position && a.title ≤ b.title)) (fun _ _ => rfl)
        fun _ _ h => ?_)) fun _ _ _ h => h.apart
      rw [h.eventTypes]
  | weeklyCreate dto => exact .map (weeklyCreate_twin dto)
  | weeklyUpdate id dto => exact .map (weeklyUpdate_twin hc dto)
  | weeklyRemove id => exact .map (weeklyRemove_twin hc)
  | overrideCreate dto => exact .map (overrideCreate_twin dto)
  | overrideUpdate id dto => exact .map (overrideUpdate_twin hc dto)
  | overrideRemove id => exact .map (overrideRemove_twin hc)
  | eventTypeCreate dto => exact .map (eventTypeCreate_twin dto)
  | eventTypeUpdate id dto => exact .map (eventTypeUpdate_twin hc dto)
  | eventTypeArchive id => exact .map (eventTypeArchive_twin hc)
  | eventTypeRemove id => exact .map (eventTypeRemove_twin hc)
  | eventTypeReorder ids => exact .map (eventTypeReorder_twin ids)
  | bookingFindAll coachId => exact .map (bookingFindAll_twin hc hid coachId)
  | bookingCancel id reason => exact .map (ofBooking_twin (cancelByCoach_twin hc id reason))
  | settingsUpdate dto => exact .map (settingsUpdate_twin dto)

end Requests

end Dashboard

end CoachingCalendar
