import CoachingCalendar.Lib.Twin
import CoachingCalendar.Store.Platform

/-!
# Serializable transactions

`runSerializable`, for any program that stands for the transaction. The theorem about it takes a database that
nothing else works on while the attempts are made.
-/

namespace CoachingCalendar
open Lib
open Lib.Prog (perform decided)

variable {Op : Type} {Ans : Op → Type} {α σ ρ : Type}

def SERIALIZATION_RETRY_ATTEMPTS : Nat := 3

def DEFAULT_CONFLICT_MESSAGE : String :=
  "Could not complete the request due to a conflicting change, please try again"

/-- The attempts of `runSerializable` from the one that has `left` attempts after it. -/
def runSerializableFrom (fn : Prog Ans Failure α) (conflictMessage : String) : Nat → Prog Ans Failure α
  | 0 => throw (.conflict (.text conflictMessage))
  | left + 1 => tryCatch fn fun error =>
      if error ≠ .prisma "P2034" ∨ left = 0 then throw error else runSerializableFrom fn conflictMessage left

def runSerializable (fn : Prog Ans Failure α) (conflictMessage : String := DEFAULT_CONFLICT_MESSAGE) :
    Prog Ans Failure α :=
  runSerializableFrom fn conflictMessage SERIALIZATION_RETRY_ATTEMPTS

/-! ## Attempts -/

/-- `prisma.$transaction(fn)`. The outcome is the error that the database ends the attempt with, or what the body
reads besides the database. -/
def transact (body : ρ → σ → Except Failure (α × σ)) (db : σ) (_ : Unit) (outcome : Except Failure ρ) :
    Except Failure α × σ :=
  match outcome.bind fun r => body r db with
  | .ok (a, db') => (.ok a, db')
  | .error e => (.error e, db)

variable (body : ρ → σ → Except Failure (α × σ)) (conflictMessage : String) (outcomes : Nat → Except Failure ρ)
  (db : σ)

/-- How the attempt with number `n` goes, the attempts before it having left no effect. -/
def attempted (n : Nat) : Except Failure (α × σ) := (outcomes n).bind fun r => body r db

/-- A call of `runSerializable`. -/
def serialized : Prog.Outcome σ (fun _ : Unit => α) Failure α :=
  (runSerializable (perform ()) conflictMessage).run (transact body) (decided outcomes) db []

/-- At most one commit, and contention is reported as a conflict. -/
structure CommitsOnce : Prop where
  commit : ∀ n < SERIALIZATION_RETRY_ATTEMPTS, (∀ m < n, attempted body outcomes db m = .error (.prisma "P2034")) →
    ∀ a db', attempted body outcomes db n = .ok (a, db') →
      (serialized body conflictMessage outcomes db).result = .ok a ∧
      (serialized body conflictMessage outcomes db).world = db' ∧
      (serialized body conflictMessage outcomes db).trace.countP (·.event.res.isOk) = 1
  rethrow : ∀ n < SERIALIZATION_RETRY_ATTEMPTS, (∀ m < n, attempted body outcomes db m = .error (.prisma "P2034")) →
    ∀ e, attempted body outcomes db n = .error e → e ≠ .prisma "P2034" →
      (serialized body conflictMessage outcomes db).result = .error e ∧
      (serialized body conflictMessage outcomes db).world = db
  exhausted : (∀ n < SERIALIZATION_RETRY_ATTEMPTS, attempted body outcomes db n = .error (.prisma "P2034")) →
      (serialized body conflictMessage outcomes db).world = db ∧
      (serialized body conflictMessage outcomes db).result = .error (.conflict (.text conflictMessage))

/-! ## Runs -/

section Runs

variable {body conflictMessage outcomes db}

theorem transact_ok {n : Nat} {a : α} {db' : σ} (h : attempted body outcomes db n = .ok (a, db')) :
    transact body db () (outcomes n) = (.ok a, db') := by
  unfold attempted at h
  simp only [transact, h]

theorem transact_error {n : Nat} {e : Failure} (h : attempted body outcomes db n = .error e) :
    transact body db () (outcomes n) = (.error e, db) := by
  unfold attempted at h
  simp only [transact, h]

variable {t : List (Prog.Entry σ (fun _ : Unit => α) Failure)}

theorem runFrom_commit {left : Nat} {a : α} {db' : σ} (h : attempted body outcomes db t.length = .ok (a, db')) :
    (runSerializableFrom (perform ()) conflictMessage (left + 1)).run (transact body) (decided outcomes) db t =
      ⟨.ok a, db', t ++ [⟨db, (), .ok a⟩]⟩ := by
  simp [runSerializableFrom, Prog.perform, Prog.orElse, Prog.run, decided, transact_ok h]

theorem runFrom_error {left : Nat} {e : Failure} (h : attempted body outcomes db t.length = .error e) :
    (runSerializableFrom (perform ()) conflictMessage (left + 1)).run (transact body) (decided outcomes) db t =
      (if e ≠ .prisma "P2034" ∨ left = 0 then .throw e else
        runSerializableFrom (perform ()) conflictMessage left).run (transact body) (decided outcomes) db
        (t ++ [⟨db, (), .error e⟩]) := by
  simp [runSerializableFrom, Prog.perform, Prog.orElse, Prog.run, decided, transact_error h]

/-- The attempts that fail with P2034 are made again, up to the last. -/
theorem runFrom_contended {n left : Nat} (hn : n ≤ left)
    (h : ∀ m < n, attempted body outcomes db (t.length + m) = .error (.prisma "P2034")) :
    ∃ t', t'.length = t.length + n ∧ t'.countP (·.event.res.isOk) = t.countP (·.event.res.isOk) ∧
      (runSerializableFrom (perform ()) conflictMessage (left + 1)).run (transact body) (decided outcomes) db t =
      (runSerializableFrom (perform ()) conflictMessage (left + 1 - n)).run (transact body) (decided outcomes) db t' := by
  induction n generalizing t left with
  | zero => exact ⟨t, rfl, rfl, rfl⟩
  | succ n ih =>
      obtain ⟨left, rfl⟩ : ∃ l, left = l + 1 := ⟨left - 1, by omega⟩
      have hfirst : attempted body outcomes db t.length = .error (.prisma "P2034") := h 0 (by omega)
      obtain ⟨t', hlen, hcount, hrun⟩ := @ih (t ++ [⟨db, (), .error (.prisma "P2034")⟩]) left (by omega) fun m hm => by
        have := h (m + 1) (by omega)
        rwa [List.length_append, List.length_singleton, Nat.add_assoc, Nat.add_comm 1]
      refine ⟨t', ?_, ?_, ?_⟩
      · rw [hlen, List.length_append, List.length_singleton]
        omega
      · simpa [Except.isOk, Except.toBool] using hcount
      · rw [runFrom_error hfirst, if_neg (by simp), hrun]
        congr 2
        omega

end Runs

/-- The attempt `n` is the one that settles a call: the attempts before it fail with P2034. -/
theorem serialized_contended {n : Nat} (hn : n < SERIALIZATION_RETRY_ATTEMPTS)
    (h : ∀ m < n, attempted body outcomes db m = .error (.prisma "P2034")) :
    ∃ t left, t.length = n ∧ left + 1 + n = SERIALIZATION_RETRY_ATTEMPTS ∧ t.countP (·.event.res.isOk) = 0 ∧
      serialized body conflictMessage outcomes db =
      (runSerializableFrom (perform ()) conflictMessage (left + 1)).run (transact body) (decided outcomes) db t := by
  have hle : n ≤ 2 := Nat.le_of_lt_succ hn
  obtain ⟨t, hlen, hcount, hrun⟩ := @runFrom_contended _ _ _ body conflictMessage outcomes db [] n 2 hle
    fun m hm => by simpa using h m hm
  refine ⟨t, 2 - n, by simpa using hlen, by simp only [SERIALIZATION_RETRY_ATTEMPTS]; omega, hcount, ?_⟩
  rw [show 2 - n + 1 = 2 + 1 - n by omega]
  exact hrun

/-! ## Theorems -/

/-- `runSerializable` keeps its promise unless every allowed attempt fails with P2034: the last of these errors is
thrown again, and the conflict after the loop is never reached. -/
theorem runSerializable_commitsOnce_iff :
    CommitsOnce body conflictMessage outcomes db ↔
      ∃ n < SERIALIZATION_RETRY_ATTEMPTS, attempted body outcomes db n ≠ .error (.prisma "P2034") := by
  refine ⟨fun h => Classical.byContradiction fun hno => ?_, ?_⟩
  · have hall : ∀ n < SERIALIZATION_RETRY_ATTEMPTS, attempted body outcomes db n = .error (.prisma "P2034") :=
      fun n hn => Classical.byContradiction fun hne => hno ⟨n, hn, hne⟩
    obtain ⟨t, left, hlen, hleft, -, hrun⟩ := serialized_contended body conflictMessage outcomes db
      (show 2 < SERIALIZATION_RETRY_ATTEMPTS by decide) fun m hm => hall m (Nat.lt_succ_of_lt hm)
    obtain rfl : left = 0 := by simp only [SERIALIZATION_RETRY_ATTEMPTS] at hleft; omega
    have hlast : attempted body outcomes db t.length = .error (.prisma "P2034") :=
      hlen ▸ hall 2 (by decide)
    have hreport := (h.exhausted hall).2
    rw [hrun, runFrom_error hlast, if_pos (.inr rfl)] at hreport
    cases hreport
  · rintro ⟨k, hk, hne⟩
    constructor
    · intro n hn hbefore a db' ha
      obtain ⟨t, left, rfl, -, hcount, hrun⟩ := serialized_contended body conflictMessage outcomes db hn hbefore
      rw [hrun, runFrom_commit ha]
      refine ⟨rfl, rfl, ?_⟩
      rw [List.countP_append, hcount]
      rfl
    · intro n hn hbefore e he hother
      obtain ⟨t, left, rfl, -, -, hrun⟩ := serialized_contended body conflictMessage outcomes db hn hbefore
      rw [hrun, runFrom_error he, if_pos (.inl hother)]
      exact ⟨rfl, rfl⟩
    · intro hall
      exact absurd (hall k hk) hne

/-- Three attempts of a body that adds one, each of which Postgres cannot serialize. -/
theorem runSerializable_exhausted :
    ¬ CommitsOnce (fun (_ : Unit) (n : Nat) => .ok (n, n + 1)) DEFAULT_CONFLICT_MESSAGE
      (fun _ => .error (.prisma "P2034")) 0 := by
  intro h
  have hreport := (h.exhausted fun _ _ => rfl).2
  cases hreport

end CoachingCalendar
