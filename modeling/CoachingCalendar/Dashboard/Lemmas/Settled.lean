import CoachingCalendar.Dashboard.Lemmas.Keeps

/-! # Owners along a run -/

namespace CoachingCalendar.Dashboard
open Lib Lib.Prog Lib.Table Lib.System

variable {P : Platform} {toDateOnly : String → Option Int}

theorem requests_licensed : (requestSystem P toDateOnly).Licensed ownRows fun _ _ _ => True where
  body call := by
    by_cases hc : call.Plain
    · exact Request.body_keeps hc call.request
    · exact .of_allowed (fun _ _ h => absurd h hc) _
  answers := exec_answered

/-! ## What a lookup has found -/

/-- A row has had the id. -/
def Given (d : Db) (log : List (Logged Ans Failure)) (id : String) : Prop :=
  ¬ d.Unused id ∨ ∃ l ∈ log, createdId l.toEvent = some id

variable {d d₁ d₂ : Db} {log log' : List (Logged Ans Failure)} {id : String}

theorem Given.mono (h : Given d log id) (hsub : log ⊆ log') : Given d log' id :=
  h.imp_right fun ⟨l, hl, hc⟩ => ⟨l, hsub hl, hc⟩

/-- From the database `d`, the log leads to `d'`: a row that was found to be of a coach is of no other. -/
structure Settled (d : Db) (log : List (Logged Ans Failure)) (d' : Db) : Prop where
  booked : d'.BookingsOwned
  given : ∀ {kind id owner}, d'.ownerOf kind id = some owner → Given d log id
  found : ∀ {l kind id owner}, l ∈ log → Found l.toEvent kind id owner → Given d log id ∧ d'.OnlyOf owner kind id

theorem Settled.start (h : d.BookingsOwned) : Settled d [] d where
  booked := h
  given {kind _ _} ho := .inl fun hu => by
    rw [hu.ownerOf kind] at ho
    cases ho
  found hl := absurd hl List.not_mem_nil

section Step

variable {w w' : World} {o : Op} {ch : Choice} {r : Except Failure (Ans o)} {coachId owner : String} {kind : Kind}
variable {mine : Kind → String → Prop} {i : Nat}

theorem look_ok {α : Type} {fault : Option Failure} {a b : α} (h : mayFail fault w (.ok a, w) = (.ok b, w')) :
    a = b ∧ w' = w := by
  rcases mayFail_cases h with ⟨_, hr, _⟩ | h
  · cases hr
  · cases h
    exact ⟨rfl, rfl⟩

theorem exec_found (hx : exec w o ch = (r, w')) (hf : Found ⟨o, r⟩ kind id owner) :
    w.db.ownerOf kind id = some owner ∧ w'.db = w.db := by
  cases hf with
  | weekly | override =>
      obtain ⟨hf, rfl⟩ := look_ok hx
      exact ⟨congrArg (Option.map _) hf, rfl⟩
  | eventType =>
      rw [exec, CoachingCalendar.exec, unlessFault_eq] at hx
      obtain ⟨hf, rfl⟩ := look_ok hx
      exact ⟨congrArg (Option.map _) hf, rfl⟩
  | booking =>
      rw [exec, CoachingCalendar.exec, unlessFault_eq] at hx
      obtain ⟨hf, rfl⟩ := look_ok hx
      obtain ⟨b, hb, rfl⟩ := Option.map_eq_some_iff.mp hf
      exact ⟨congrArg (Option.map _) hb, rfl⟩
  | owned hm =>
      obtain ⟨rfl, rfl⟩ := look_ok hx
      exact ⟨Option.map_eq_some_iff.mpr ⟨_, find_some.mpr ⟨(mem_findMany.mp hm).1, rfl⟩, rfl⟩, rfl⟩

/-- An operation about a coach, when the id that it gives to a new row has been given to none. -/
theorem Settled.fire (h : Settled d log w.db) (ho : o.Keeps coachId mine) (hx : exec w o ch = (r, w'))
    (hnew : ∀ id ∈ createdId ⟨o, r⟩, ¬ Given d log id) : Settled d (log ++ [⟨⟨o, r⟩, i⟩]) w'.db where
  booked := exec_bookingsOwned ho hx h.booked
  given hown := by
    rcases exec_ownerOf ho hx hown with hown | hc
    · exact (h.given hown).mono (List.subset_append_left ..)
    · exact .inr ⟨_, List.mem_append_right _ List.mem_cons_self, hc⟩
  found {l kind id owner} hl hf := by
    rcases List.mem_append.mp hl with hl | hl
    · obtain ⟨hg, honly⟩ := h.found hl hf
      refine ⟨hg.mono (List.subset_append_left ..), fun owner' hown => ?_⟩
      rcases exec_ownerOf ho hx hown with hown | hc
      · exact honly _ hown
      · exact absurd hg (hnew id hc)
    · obtain rfl := List.mem_singleton.mp hl
      obtain ⟨hown, hd⟩ := exec_found hx hf
      refine ⟨(h.given hown).mono (List.subset_append_left ..), fun owner' hown' => ?_⟩
      rw [hd, hown] at hown'
      exact (Option.some.inj hown').symm

end Step

end CoachingCalendar.Dashboard
