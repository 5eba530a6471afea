import CoachingCalendar.Dashboard.System
import CoachingCalendar.Lib.License
import CoachingCalendar.Lib.Purge

/-!
# Coaches side by side

The requests of coaches who are no admins, in any order, and whose rows each operation is about.
-/

namespace CoachingCalendar
open Lib

/-! ## Owners -/

/-- The tables that are searched by the id of a row. -/
inductive Kind where
  | weekly | override | eventType | booking
  deriving DecidableEq, Repr

def Kind.all : List Kind := [.weekly, .override, .eventType, .booking]

namespace Db

variable (d : Db)

def ownerOf : Kind → String → Option String
  | .weekly, id => (d.weeklyAvailabilities.find id).map (·.coachId)
  | .override, id => (d.overrides.find id).map (·.coachId)
  | .eventType, id => (d.eventTypes.find id).map (·.coachId)
  | .booking, id => (d.bookings.find id).map (·.coachId)

/-- No row has the id. -/
def Unused (id : String) : Prop := ∀ kind ∈ Kind.all, d.ownerOf kind id = none

instance (id : String) : Decidable (d.Unused id) := inferInstanceAs (Decidable (∀ kind ∈ Kind.all, _))

/-- A row with the id is a row of the coach. -/
def OnlyOf (coachId : String) (kind : Kind) (id : String) : Prop :=
  ∀ owner, d.ownerOf kind id = some owner → owner = coachId

end Db

namespace Statement

/-- The coach that it names. -/
def coachId? : Statement → Option String
  | .weeklyCreate coachId _ | .overrideCreate coachId _ | .eventTypeCreate coachId _ | .settingsUpdate coachId _ =>
      some coachId
  | _ => none

/-- The rows that it names. -/
def targets : Statement → List (Kind × String)
  | .weeklyUpdate id _ | .weeklyDelete id => [(.weekly, id)]
  | .overrideUpdate id _ | .overrideDelete id => [(.override, id)]
  | .eventTypeUpdate id _ | .eventTypeDelete id => [(.eventType, id)]
  | .eventTypeReorder ids => ids.map fun id => (.eventType, id)
  | _ => []

end Statement

namespace Dashboard
open Lib.System

/-! ## What operations are about -/

/-- It is about the coach, and `mine` holds of the rows that it changes. -/
def Op.Keeps (coachId : String) (mine : Kind → String → Prop) : Op → Prop
  | .booking o =>
      match o with
      | .eventTypeFindUnique _ | .bookingFindUnique _ | .jobSend _ => True
      | .coachFindUnique c | .settingsUpsert c | .integrationFindUnique c | .calendarDelete c _ => c = coachId
      | .bookingUpdate id _ => mine .booking id
      | _ => False
  | .weeklyFindUnique _ | .overrideFindUnique _ => True
  | .weeklyFindMany c | .overrideFindMany c | .eventTypeFindMany c | .eventTypeFindOwned _ c
  | .eventTypeMaxPosition c => c = coachId
  | .bookingFindMany c => c = some coachId
  | .write s => (∀ c ∈ s.coachId?, c = coachId) ∧ ∀ t ∈ s.targets, mine t.1 t.2

/-- It found a row with the id and the owner. -/
inductive Found : Event Ans Failure → Kind → String → String → Prop
  | weekly {id row} : Found ⟨.weeklyFindUnique id, .ok (some row)⟩ .weekly id row.coachId
  | override {id row} : Found ⟨.overrideFindUnique id, .ok (some row)⟩ .override id row.coachId
  | eventType {id row} : Found ⟨.booking (.eventTypeFindUnique id), .ok (some row)⟩ .eventType id row.coachId
  | booking {id row} : Found ⟨.booking (.bookingFindUnique id), .ok (some row)⟩ .booking id row.coachId
  | owned {ids coachId rows row} : row ∈ rows →
      Found ⟨.eventTypeFindOwned ids coachId, .ok rows⟩ .eventType row.id row.coachId

/-- Of a row that is looked up by its id, a coach can tell whether it is her own, and what it says if it is. -/
def Sees (coachId : String) : (o : Op) → Except Failure (Ans o) → Except Failure (Ans o) → Prop
  | .weeklyFindUnique _, r, r' => r.map (·.filter (·.coachId = coachId)) = r'.map (·.filter (·.coachId = coachId))
  | .overrideFindUnique _, r, r' => r.map (·.filter (·.coachId = coachId)) = r'.map (·.filter (·.coachId = coachId))
  | .booking (.eventTypeFindUnique _), r, r' =>
      r.map (·.filter (·.coachId = coachId)) = r'.map (·.filter (·.coachId = coachId))
  | .booking (.bookingFindUnique _), r, r' =>
      r.map (·.filter (·.coachId = coachId)) = r'.map (·.filter (·.coachId = coachId))
  | _, r, r' => r = r'

/-- The id of the row that it created. -/
def createdId : Event Ans Failure → Option String
  | ⟨.write (.weeklyCreate _ _), .ok row⟩ => some row.id
  | ⟨.write (.overrideCreate _ _), .ok row⟩ => some row.id
  | ⟨.write (.eventTypeCreate _ _), .ok row⟩ => some row.id
  | _ => none

/-! ## The system -/

/-- The requests, with nothing but time around them. -/
def requestSystem (P : Platform) (toDateOnly : String → Option Int) :
    System Ans Failure Response World Choice Call Nat where
  exec := exec
  body := (dashboardSystem P toDateOnly).body
  accept := (dashboardSystem P toDateOnly).accept
  drift ms w := { w with clock := w.clock + ms }

/-- The coach is no admin. -/
def Call.Plain (call : Call) : Prop := call.coach.role = .coach ∧ call.coach.id ≠ ""

instance (call : Call) : Decidable call.Plain := inferInstanceAs (Decidable (_ ∧ _))

/-- Coaches who are no admins make the requests. The id of a new row is one that no row of the databases has, and that
no other row has been given. -/
def drawsIds (d₁ d₂ : Db) : Guard Ans Failure Response World Call where
  call := Call.Plain
  event c e := e.res ≠ .error uniqueConstraint ∧ ∀ id ∈ createdId e.toEvent,
    d₁.Unused id ∧ d₂.Unused id ∧ ∀ l ∈ c.log, createdId l.toEvent ≠ some id

variable (d₁ d₂ : Db)

instance (call : Call) : Decidable ((drawsIds d₁ d₂).call call) := inferInstanceAs (Decidable call.Plain)

instance (c : DashboardConfig) (e : Logged Ans Failure) : Decidable ((drawsIds d₁ d₂).event c e) :=
  have : Decidable (e.res = .error uniqueConstraint) :=
    match e.res with
    | .ok _ => .isFalse fun h => by cases h
    | .error f => decidable_of_iff (f = uniqueConstraint) ⟨congrArg _, Except.error.inj⟩
  inferInstanceAs (Decidable (_ ∧ ∀ id ∈ createdId e.toEvent, _ ∧ _ ∧ ∀ l ∈ c.log, _))

end Dashboard

end CoachingCalendar
