import CoachingCalendar.Dashboard.Service

/-!
# The catalogue of a coach

The order of a coach's event types, while the coach creates, archives, removes and reorders them, one call after
another.
-/

namespace CoachingCalendar
open Lib

def Db.catalogue (d : Db) (coachId : String) : List EventType := d.eventTypes.findMany fun e => e.coachId = coachId

/-- The positions of a coach's event types are pairwise distinct. -/
def Db.Ordered (d : Db) (coachId : String) : Prop := ((d.catalogue coachId).map (·.position)).Nodup

instance (d : Db) (coachId : String) : Decidable (d.Ordered coachId) := inferInstanceAs (Decidable (List.Nodup _))

/-- As many event types of the coach are found as ids are given. -/
def Db.Owns (d : Db) (coachId : String) (ids : List String) : Prop :=
  (d.eventTypes.findMany fun e => ids.contains e.id && e.coachId = coachId).length = ids.length

namespace Dashboard

/-- What `findMine` answers when nothing fails. -/
def mine (w : World) (coachId : String) : Except Failure (List EventType) :=
  ((EventTypesService.findMine coachId).run exec (fun _ => {}) w []).result

/-- The calls that leave it to the service where an event type stands. -/
def Request.onCatalogue : Request → Bool
  | .eventTypeCreate dto => dto.position.isNone
  | .eventTypeArchive _ | .eventTypeRemove _ | .eventTypeReorder _ => true
  | _ => false

/-- A call that was answered. -/
structure Served where
  before : World
  request : Request
  outcome : Prog.Outcome World Ans Failure Response

/-- The calls of one coach, however their operations go. Between two calls the rest of the program may change
everything but the event types of the coach. -/
inductive CatalogueRun (P : Platform) (toDateOnly : String → Option Int) (coach : Coach) (w₀ : World) :
    List Served → World → Prop
  | start : CatalogueRun P toDateOnly coach w₀ [] w₀
  | rest {t w w'} : CatalogueRun P toDateOnly coach w₀ t w → w'.db.catalogue coach.id = w.db.catalogue coach.id →
      CatalogueRun P toDateOnly coach w₀ t w'
  | call {t w request env out} : CatalogueRun P toDateOnly coach w₀ t w → request.onCatalogue = true →
      (request.body P toDateOnly coach).run exec env w [] = out →
      CatalogueRun P toDateOnly coach w₀ (t ++ [⟨w, request, out⟩]) out.world

/-- A reordering that is accepted leaves out no event type with a position that it gives to another. -/
def Served.Covers (s : Served) (coachId : String) : Prop :=
  ∀ ids, s.request = .eventTypeReorder ids → s.before.db.Owns coachId ids →
    ∀ e ∈ s.before.db.catalogue coachId, e.id ∉ ids → ¬ (0 ≤ e.position ∧ e.position < ids.length)

/-- A created event type is the last of the list, an accepted reordering is what the list shows, and a rejected one
changes nothing. -/
structure Served.Orderly (s : Served) (coachId : String) : Prop where
  created : ∀ dto e, s.request = .eventTypeCreate dto → s.outcome.result = .ok (.eventType e) →
    ∃ rows, mine s.outcome.world coachId = .ok rows ∧ rows.getLast? = some e
  reordered : ∀ ids a, s.request = .eventTypeReorder ids → s.outcome.result = .ok a →
    ∃ rows, mine s.outcome.world coachId = .ok rows ∧ (rows.map (·.id)).filter (ids.contains ·) = ids
  rejected : ∀ ids e, s.request = .eventTypeReorder ids → s.outcome.result = .error e →
    s.outcome.world.db.eventTypes = s.before.db.eventTypes

end Dashboard

end CoachingCalendar
