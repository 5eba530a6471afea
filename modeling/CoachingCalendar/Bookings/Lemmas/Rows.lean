import CoachingCalendar.Bookings.Lemmas.Protocol
import CoachingCalendar.Store.Lemmas

/-! # Runs of the booking system, and the rows its calls work on -/

namespace CoachingCalendar
open Lib Lib.System

variable {P : Platform} {w w' : World} {c c' : BookingConfig} {G : BookingGuard} {φ : Nat → Phase}
variable {s : Phase} {o : Op} {ch : Choice} {r : Except Failure (Ans o)} {i : Nat}

theorem Call.accept_jobs {call : Call} (h : call.accept w = some w') : ∃ jobs, w' = { w with jobs := jobs } := by
  cases call with
  | work job =>
      change (if _ then _ else _) = _ at h
      split at h <;> cases h
      exact ⟨_, rfl⟩
  | _ => cases h; exact ⟨w.jobs, rfl⟩

abbrev phases (P : Platform) (c : BookingConfig) : Nat → Phase := phase (Phase.next P) .idle c

/-- The rule for invariants of runs: every operation is issued in a phase that allows it. -/
theorem bookingRun_tracked {I : World → List BookingEntry → (Nat → Phase) → Prop}
    (h : (bookingSystem P).Run G (.start w) c) (h' : (bookingSystem P).Run G c c')
    (h₀ : I c.world c.log (phases P c))
    (haccept : ∀ jobs w log φ, I w log φ → I { w with jobs := jobs } log φ)
    (hdrift : ∀ d w log φ, I w log φ → I (Drift.apply d w) log φ)
    (hfire : ∀ (c : BookingConfig) i call o k ch r w', I c.world c.log (phases P c) →
      c.threads[i]? = some ⟨call, .op o k⟩ → (phases P c i).allowed call o →
      exec c.world o ch = (r, w') → G.event c ⟨⟨o, r⟩, i⟩ →
      I w' (c.log ++ [⟨⟨o, r⟩, i⟩]) (Function.update (phases P c) i ((phases P c i).next P ⟨o, r⟩))) :
    I c'.world c'.log (phases P c') := by
  refine h.tracked (R := Call.protocol P) h' (fun _ => rfl) Call.body_follows
    (fun _ _ _ _ => trivial) h₀ (fun call w w' log φ hi ha => ?_) hdrift hfire
  obtain ⟨jobs, rfl⟩ := Call.accept_jobs ha
  exact haccept jobs w log φ hi

theorem bookingRun_follows (h : (bookingSystem P).Run G (.start w) c) {i : Nat} {th : BookingThread}
    (hi : c.threads[i]? = some th) :
    th.prog.Follows (th.call.protocol P) th.call.final (phases P c i) :=
  h.follows (R := Call.protocol P) (fun _ => rfl) Call.body_follows (fun _ _ _ _ => trivial) i th hi

theorem Drift.apply_bookings (d : Drift) : (d.apply w).db.bookings = w.db.bookings := by cases d <;> rfl

/-! ## Entries -/

theorem patches_iff {kind : BookingPatch → Bool} {id : String} :
    patches kind id ⟨⟨o, r⟩, i⟩ = true ↔ ∃ patch b₁,
      (⟨o, r⟩ : Event Ans Failure) = ⟨.bookingUpdate id patch, .ok b₁⟩ ∧ kind patch = true := by
  rw [patches, decide_eq_true_eq]
  constructor
  · intro h
    unfold bookingPatched at h
    split at h
    · rename_i he
      cases he
      split at h
      · cases h; exact ⟨_, _, rfl, ‹_›⟩
      · cases h
    · cases h
  · rintro ⟨patch, b₁, he, hp⟩
    cases he
    simp [bookingPatched, hp]

theorem patches_update {kind : BookingPatch → Bool} {id : String} {patch : BookingPatch}
    {b : BookingWithRelations} : patches kind id ⟨⟨.bookingUpdate id patch, .ok b⟩, i⟩ = kind patch := by
  cases hp : kind patch <;> simp [patches, bookingPatched, hp]

theorem moves_iff {id : String} : moves id ⟨⟨o, r⟩, i⟩ = true ↔ ∃ tx b₁,
    (⟨o, r⟩ : Event Ans Failure) = ⟨.transaction tx, .ok b₁⟩ ∧ tx.write = .move id := by
  rw [moves, decide_eq_true_eq]
  constructor
  · intro h
    unfold bookingMoved at h
    split at h
    · rename_i he
      cases he
      split at h
      · rename_i hw
        cases h; exact ⟨_, _, rfl, hw⟩
      · cases h
    · cases h
  · rintro ⟨tx, b₁, he, hw⟩
    cases he
    simp [bookingMoved, hw]

theorem moves_transaction {id : String} {tx : SlotTransaction} {b : BookingWithRelations}
    (hw : tx.write = .move id) : moves id ⟨⟨.transaction tx, .ok b⟩, i⟩ = true :=
  moves_iff.mpr ⟨tx, b, rfl, hw⟩

theorem reads_of_none {id : String} {e : Event Ans Failure} (h : readRow e = none) :
    reads id ⟨e, i⟩ = false := by
  simp [reads, bookingRead, h]

/-! ## Phases -/

theorem Phase.next_of_readRow {e : Event Ans Failure} {b : Booking} (h : readRow e = some b) :
    s.next P e = .read b := by
  unfold readRow at h
  split at h
  · obtain ⟨row, rfl, rfl⟩ := Option.map_eq_some_iff.mp h; rfl
  · obtain ⟨row, rfl, rfl⟩ := Option.map_eq_some_iff.mp h; rfl
  · cases h

theorem Phase.next_read {e : Event Ans Failure} {b : Booking} (h : s.next P e = .read b) :
    readRow e = some b ∨ s = .read b ∧ readRow e = none := by
  cases hr : readRow e with
  | some b' =>
      rw [next_of_readRow hr] at h
      cases h; exact .inl rfl
  | none =>
      unfold Phase.next at h
      split at h
      · cases hr
      · cases hr
      · split at h <;> cases h
      · split at h <;> cases h
      · cases h
      · split at h <;> cases h
      · split at h <;> cases h
      · cases h
      · exact .inr ⟨h, rfl⟩

/-! ## Rows -/

/-- The row a call works on. -/
def Phase.row : Phase → Option Booking
  | .read b | .moved b | .unlinked b | .created b _ | .cancelled b => some b
  | .idle | .done => none

/-- The rows the calls work on are in the table, with the columns that nothing changes. -/
def RowsKnown (w : World) (φ : Nat → Phase) : Prop :=
  ∀ i b, (φ i).row = some b → ∃ b', w.db.bookings.find b.id = some b' ∧ SameRow b b'

theorem Phase.next_row {e : Event Ans Failure} {b : Booking}
    (h : (s.next P e).row = some b) : s.row = some b ∨ returnedRow e = some b := by
  unfold Phase.next at h
  split at h
  · exact .inr h
  · exact .inr h
  · split at h
    · cases h
    · exact .inr h
  · split at h
    · exact .inl h
    · cases h
  · exact .inl h
  · split at h
    · exact .inl h
    · cases h
  · split at h
    · exact .inr h
    · cases h
  · cases h
  · exact .inl h

theorem RowsKnown.fire (h : RowsKnown w φ) (hx : exec w o ch = (r, w')) :
    RowsKnown w' (Function.update φ i ((φ i).next P ⟨o, r⟩)) := by
  -- a row that was known is known
  have keep : ∀ {j b}, (φ j).row = some b → ∃ b', w'.db.bookings.find b.id = some b' ∧ SameRow b b' := by
    intro j b hb
    obtain ⟨b', hf, hs⟩ := h j b hb
    obtain ⟨b'', hf', hs'⟩ := exec_kept hx _ _ hf
    exact ⟨b'', hf', hs.trans hs'⟩
  intro j b hb
  by_cases hj : j = i
  · subst hj
    rw [Function.update_self] at hb
    rcases Phase.next_row hb with hb | hb
    · exact keep hb
    · exact ⟨b, exec_returnedRow hx hb, .refl b⟩
  · rw [Function.update_of_ne hj] at hb
    exact keep hb

theorem RowsKnown.of_bookings (h : RowsKnown w φ) (hb : w'.db.bookings = w.db.bookings) :
    RowsKnown w' φ := by
  unfold RowsKnown
  rw [hb]; exact h

theorem RowsKnown.start : RowsKnown w fun _ => .idle := fun _ _ h => nomatch h

end CoachingCalendar
