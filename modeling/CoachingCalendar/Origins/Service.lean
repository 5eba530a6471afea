import CoachingCalendar.Lib.Pool
import CoachingCalendar.Lib.Table
import CoachingCalendar.Store.Platform

/-!
# Allowed origins

The CORS allow-list. Every instance of the service keeps the origins in memory, and all instances share
one table. What runs between two awaited queries runs at once, so it is one operation.
-/

namespace CoachingCalendar.Origins
open Lib Lib.System
open Lib.Prog (perform mayFail)

structure AllowedOrigin where
  id : String
  origin : String
  label : Option String
  deriving DecidableEq, Repr

/-- The table. `origin` is unique. -/
structure OriginTable extends Table AllowedOrigin.id where
  unique : (rows.map AllowedOrigin.origin).Nodup

namespace OriginTable

variable (t : OriginTable)

def origins : List String := t.rows.map (·.origin)

/-- `create`. There is no result when the id or the origin is taken. -/
def create (row : AllowedOrigin) : Option OriginTable :=
  if h : row.origin ∈ t.origins then none
  else
    match hr : t.toTable.insert row with
    | none => none
    | some rows => some ⟨rows, by
        rw [(Table.insert_some hr).2, List.map_append, List.nodup_append]
        refine ⟨t.unique, List.nodup_singleton _, fun a ha b hb he => h ?_⟩
        rw [List.map_singleton, List.mem_singleton] at hb
        exact hb ▸ he ▸ ha⟩

def delete (id : String) : OriginTable :=
  ⟨t.toTable.delete id, t.unique.sublist (List.filter_sublist.map _)⟩

end OriginTable

def CACHE_TTL_MS : Int := 60000

/-- What an instance holds. There are no origins when nothing is loaded. -/
structure Cache where
  origins : Option (List String) := none
  cachedAt : Int := 0
  deriving DecidableEq, Repr

/-- The origins that `isAllowed` uses without loading them again. -/
def Cache.fresh (cache : Cache) (now : Int) : Option (List String) :=
  cache.origins.filter fun _ => !(now - cache.cachedAt > CACHE_TTL_MS)

/-! ## Operations -/

structure CreateAllowedOriginDto where
  origin : String
  label : Option String := none
  deriving DecidableEq, Repr

/-- The rows of `findMany`. No code reads when they were taken. -/
structure Snapshot where
  rows : List AllowedOrigin
  takenAt : Int
  deriving DecidableEq, Repr

def Snapshot.origins (s : Snapshot) : List String := s.rows.map (·.origin)

inductive Op where
  | findByOrigin (origin : String)
  | create (dto : CreateAllowedOriginDto)
  | delete (id : String)
  | findMany
  /-- Instance `k` looks at its cache and at the clock. -/
  | peek (k : Nat)
  /-- Instance `k` stores what it loaded. -/
  | store (k : Nat) (origins : List String)
  /-- Instance `k` drops its cache. -/
  | invalidate (k : Nat)
  deriving DecidableEq, Repr

@[reducible] def Ans : Op → Type
  | .findByOrigin _ => Option AllowedOrigin
  | .create _ => AllowedOrigin
  | .delete _ => AllowedOrigin
  | .findMany => Snapshot
  | .peek _ => Cache × Int
  | .store _ _ => Unit
  | .invalidate _ => Unit

abbrev OriginProg (α : Type) := Prog Ans Failure α

/-- What the table held until it was changed. -/
structure Era where
  origins : List String
  ended : Int
  deriving DecidableEq, Repr

/-- No code reads `past`. -/
structure World where
  table : OriginTable
  clock : Int
  caches : Nat → Cache := fun _ => {}
  past : List Era := []

/-- How the environment lets an operation go. -/
structure Choice where
  /-- The query is not performed and fails. -/
  fault : Option Failure := none
  newId : String := ""

/-- The world after a change of the table. -/
def World.change (w : World) (table : OriginTable) : World :=
  { w with table, past := w.past ++ [⟨w.table.origins, w.clock⟩] }

def World.setCache (w : World) (k : Nat) (cache : Cache) : World :=
  { w with caches := Function.update w.caches k cache }

def exec (w : World) : (o : Op) → Choice → Except Failure (Ans o) × World
  | .findByOrigin origin, ch => mayFail ch.fault w (.ok (w.table.findFirst fun row => row.origin = origin), w)
  | .create dto, ch => mayFail ch.fault w <|
      match w.table.create ⟨ch.newId, dto.origin, dto.label⟩ with
      | none => (.error (.prisma "P2002"), w)
      | some table => (.ok ⟨ch.newId, dto.origin, dto.label⟩, w.change table)
  | .delete id, ch => mayFail ch.fault w <|
      match w.table.find id with
      | none => (.error (.prisma "P2025"), w)
      | some row => (.ok row, w.change (w.table.delete id))
  | .findMany, ch => mayFail ch.fault w (.ok ⟨w.table.rows, w.clock⟩, w)
  | .peek k, _ => (.ok (w.caches k, w.clock), w)
  | .store k origins, _ => (.ok (), w.setCache k ⟨some origins, w.clock⟩)
  | .invalidate k, _ => (.ok (), w.setCache k { w.caches k with origins := none })

/-! ## The service -/

namespace AllowedOriginsService

variable (k : Nat)

def add (dto : CreateAllowedOriginDto) : OriginProg AllowedOrigin := do
  let existing ← perform (Op.findByOrigin dto.origin)
  if existing.isSome then
    throw (.conflict (.text "That origin is already allowed"))
  let created ← perform (Op.create dto)
  perform (Op.invalidate k)
  return created

def remove (id : String) : OriginProg Unit := do
  let _removed ← perform (Op.delete id)
  perform (Op.invalidate k)

def isAllowed (origin : String) : OriginProg Bool := do
  let (cache, now) ← perform (Op.peek k)
  match cache.fresh now with
  | some origins => return origins.contains origin
  | none =>
      let snapshot ← perform Op.findMany
      perform (Op.store k snapshot.origins)
      return snapshot.origins.contains origin

end AllowedOriginsService

/-! ## The instances -/

/-- A call with the instance it is made on. -/
inductive Call where
  | add (k : Nat) (dto : CreateAllowedOriginDto)
  | remove (k : Nat) (id : String)
  | isAllowed (k : Nat) (origin : String)
  deriving DecidableEq, Repr

inductive Reply where
  | added (row : AllowedOrigin)
  | removed
  | answer (allowed : Bool)
  deriving DecidableEq, Repr

namespace Call

def node : Call → Nat
  | .add k _ | .remove k _ | .isAllowed k _ => k

def body : Call → OriginProg Reply
  | .add k dto => do return .added (← AllowedOriginsService.add k dto)
  | .remove k id => do
      AllowedOriginsService.remove k id
      return .removed
  | .isAllowed k origin => do return .answer (← AllowedOriginsService.isAllowed k origin)

end Call

/-- Milliseconds that pass. -/
abbrev Drift := Nat

def originSystem : System Ans Failure Reply World Choice Call Drift where
  exec := exec
  body := Call.body
  accept _ w := some w
  drift ms w := { w with clock := w.clock + ms }

abbrev OriginConfig := Config Ans Failure Reply World Call
abbrev OriginGuard := Guard Ans Failure Reply World Call
abbrev OriginEntry := Logged Ans Failure
abbrev OriginMove := Move Choice Call Drift

/-- Nothing has been loaded or changed yet. -/
structure World.Fresh (w : World) : Prop where
  caches : ∀ k, (w.caches k).origins = none
  past : w.past = []

/-- The table held the origins at some time from `since` up to the present. -/
def World.Held (w : World) (since : Int) (origins : List String) : Prop :=
  (since ≤ w.clock ∧ w.table.origins = origins) ∨
    ∃ era ∈ w.past, era.origins = origins ∧ since ≤ era.ended ∧ era.ended ≤ w.clock

/-! ## Changes of an origin -/

/-- The origin that an event added or removed. -/
def changed : Event Ans Failure → Option (String × Bool)
  | ⟨.create _, .ok row⟩ => some (row.origin, true)
  | ⟨.delete _, .ok row⟩ => some (row.origin, false)
  | _ => none

def changes (origin : String) (e : OriginEntry) : Bool := (changed e.toEvent).any (·.1 = origin)

def lastChange (origin : String) (log : List OriginEntry) : Option OriginEntry := log.reverse.find? (changes origin)

def loads : Event Ans Failure → Option Snapshot
  | ⟨.findMany, .ok snapshot⟩ => some snapshot
  | _ => none

def invalidates : Event Ans Failure → Bool
  | ⟨.invalidate _, .ok _⟩ => true
  | _ => false

/-! ## Conditions on runs -/

/-- The call that changed the origin last ran on instance `k` and has dropped the cache. -/
def settledOn (origin : String) (k : Nat) (c : OriginConfig) : Bool :=
  (lastChange origin c.log).any fun l =>
    (c.callOf l.tid).any (·.node = k) && (c.past l.tid).any invalidates

/-- The event stores a load that missed the last change, after the cache was dropped for this change. -/
def overtaken (origin : String) (c : OriginConfig) (e : OriginEntry) : Bool :=
  match e.op with
  | .store k _ => settledOn origin k c &&
      (since (changes origin) c.log).all fun x => !(x.tid = e.tid && (loads x.toEvent).isSome)
  | _ => false

/-- No load of an instance is overtaken by a change of the origin on the same instance. -/
def notOvertaken (origin : String) : OriginGuard where
  call _ := True
  event c e := overtaken origin c e = false

/-- The event stores rows that were taken more than `delay` milliseconds ago. -/
def delayed (delay : Int) (c : OriginConfig) (e : OriginEntry) : Bool :=
  match e.op with
  | .store _ _ => ((c.past e.tid).filterMap loads).any fun s => delay < c.world.clock - s.takenAt
  | _ => false

/-- A load is stored at most `delay` milliseconds after its rows were taken. -/
def storedWithin (delay : Int) : OriginGuard where
  call _ := True
  event c e := delayed delay c e = false

section Decide

variable (c : OriginConfig) (e : OriginEntry)

instance (origin : String) (call : Call) : Decidable ((notOvertaken origin).call call) := .isTrue trivial

instance (origin : String) : Decidable ((notOvertaken origin).event c e) :=
  inferInstanceAs (Decidable (overtaken origin c e = false))

instance (delay : Int) (call : Call) : Decidable ((storedWithin delay).call call) := .isTrue trivial

instance (delay : Int) : Decidable ((storedWithin delay).event c e) :=
  inferInstanceAs (Decidable (delayed delay c e = false))

end Decide

/-! ## A world to run examples with -/

def World.sample : World where
  table := ⟨.empty, List.nodup_nil⟩
  clock := 0

/-- Call `i` issues its next `n` operations, and they go well. -/
def fires (i n : Nat) : List OriginMove := List.replicate n (.fire i { newId := "o1" })

end CoachingCalendar.Origins
