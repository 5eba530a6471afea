import CoachingCalendar.Bookings.Lemmas.Rows
import CoachingCalendar.Lib.Ledger

/-!
# The booking table is a ledger

Coaches are the resources, bookings the holders, and a confirmed booking holds its coach. Every
operation of a call is a step of the ledger.
-/

namespace CoachingCalendar
open Lib

variable {P : Platform} {w w' : World} {φ : Nat → Phase} {ℓ : Ledger String String Int}

def Booking.hold (b : Booking) : Hold String Int := ⟨b.coachId, b.startAt, b.endAt⟩

/-- What a booking holds, by its id. -/
def heldIn (t : Table Booking.id) (id : String) : Option (Hold String Int) :=
  (t.find id).bind fun b => if b.status = .confirmed then some b.hold else none

theorem heldIn_some {t : Table Booking.id} {id : String} {x : Hold String Int} :
    heldIn t id = some x ↔ ∃ b, t.find id = some b ∧ b.status = .confirmed ∧ b.hold = x := by
  simp [heldIn, Option.bind_eq_some_iff]

/-- The ledger shows the confirmed bookings, and a database that a transaction may still read has all
of them. -/
structure Represents (ℓ : Ledger String String Int) (w : World) : Prop where
  held : ℓ.held = heldIn w.db.bookings
  recent : ∀ d ∈ w.recent, Below ℓ.held (heldIn d.bookings)

theorem Represents.below (h : Represents ℓ w) {d : Db} (hd : d ∈ w.db :: w.recent) :
    Below ℓ.held (heldIn d.bookings) := by
  rcases List.mem_cons.mp hd with rfl | hd
  · rw [h.held]; exact .refl _
  · exact h.recent d hd

theorem Represents.frame (h : Represents ℓ w) (hb : w'.db.bookings = w.db.bookings)
    (hr : w'.db = w.db ∧ w'.recent = w.recent ∨ w'.recent = w.db :: w.recent) : Represents ℓ w' := by
  refine ⟨by rw [hb]; exact h.held, fun d hd => ?_⟩
  rcases hr with ⟨_, hr⟩ | hr
  · rw [hr] at hd; exact h.recent d hd
  · rw [hr] at hd; exact h.below hd

/-! ## Transactions -/

theorem free_of_conflicts {d : Db} {tx : SlotTransaction} {id : String}
    (h : d.bookings.findFirst tx.conflicts = none) (hx : ∀ id', tx.excludeBookingId = some id' → id' = id) :
    FreeFor (heldIn d.bookings) id ⟨tx.coachId, tx.startAt, tx.endAt⟩ := by
  intro j y hj hy hr hm
  obtain ⟨b, hf, hs, rfl⟩ := heldIn_some.mp hy
  obtain ⟨hb, rfl⟩ := Table.find_some.mp hf
  have hc : tx.excludeBookingId.all (fun id' => !decide (b.id = id')) = true := by
    cases he : tx.excludeBookingId with
    | none => rfl
    | some id' =>
        have := hx id' he
        simpa [this] using hj
  have hn := Table.findFirst_none.mp h b hb
  have hco : b.coachId = tx.coachId := hr
  have hlt : b.startAt < tx.endAt ∧ tx.startAt < b.endAt := hm
  simp [SlotTransaction.conflicts, hco, hs, hc, hlt.1, hlt.2] at hn

theorem heldIn_insert {t t' : Table Booking.id} {b : Booking} (h : t.insert b = some t')
    (hs : b.status = .confirmed) : heldIn t' = Function.update (heldIn t) b.id (some b.hold) := by
  funext id
  simp only [heldIn, Table.find_insert h]
  by_cases hid : id = b.id
  · subst hid; simp [hs]
  · simp [hid, heldIn]

theorem heldIn_update {t : Table Booking.id} {id : String} {f : Booking → Booking} {b : Booking}
    (hf : ∀ b, (f b).id = b.id) (hb : t.find id = some b) :
    heldIn (t.update id f hf) =
      Function.update (heldIn t) id (if (f b).status = .confirmed then some (f b).hold else none) := by
  funext id'
  simp only [heldIn, Table.find_update]
  by_cases hid : id' = id
  · subst hid; simp [hb]
  · simp [hid, heldIn]

/-- A transaction that commits takes its interval in the ledger. -/
theorem transaction_refines {tx : SlotTransaction} {s : Phase} {d : Db} {b : BookingWithRelations}
    (h : Represents ℓ w) (ha : TransactionAllowed s tx)
    (hrow : ∀ b, s.row = some b → ∃ b', w.db.bookings.find b.id = some b' ∧ SameRow b b')
    (hd : d ∈ w.db :: w.recent) (hn : d.bookings.findFirst tx.conflicts = none)
    (hc : Committed w tx b w') : ∃ ℓ', Ledger.Step ℓ ℓ' ∧ Represents ℓ' w' := by
  have free : ∀ id, (∀ id', tx.excludeBookingId = some id' → id' = id) →
      FreeFor ℓ.held id ⟨tx.coachId, tx.startAt, tx.endAt⟩ :=
    fun id hx => (free_of_conflicts hn hx).anti (h.below hd)
  cases hc with
  | @create data id manageToken bookings hw hi =>
      cases ha with
      | move hw' => rw [hw] at hw'; cases hw'
      | create hw' hco hst hen hx =>
          rw [hw] at hw'; cases hw'
          refine ⟨_, .place id ⟨tx.coachId, tx.startAt, tx.endAt⟩ (free id (by simp [hx])), ?_, ?_⟩
          · refine Eq.trans ?_ (heldIn_insert hi rfl).symm
            have hhold : (data.toBooking id manageToken).hold = ⟨tx.coachId, tx.startAt, tx.endAt⟩ := by
              rw [hco, hst, hen]; rfl
            rw [Ledger.place_held, h.held, hhold]
            rfl
          · simp [World.commit]
  | @move id b' hw hf =>
      cases ha with
      | create hw' => rw [hw] at hw'; cases hw'
      | @move _ row hw' hco hx hs =>
          rw [hw] at hw'; cases hw'
          obtain ⟨b'', hf', hsame⟩ := hrow row rfl
          obtain rfl : b' = b'' := Option.some.inj (hf.symm.trans hf')
          by_cases hst : b'.status = .confirmed
          · refine ⟨_, .place row.id ⟨tx.coachId, tx.startAt, tx.endAt⟩ (free row.id (by simp [hx])), ?_, ?_⟩
            · refine Eq.trans ?_ (heldIn_update (moveTo_id _ _) hf).symm
              have hhold : (moveTo tx.startAt tx.endAt b').hold = ⟨tx.coachId, tx.startAt, tx.endAt⟩ := by
                rw [hco, ← hsame.2.1]; rfl
              rw [moveTo_status, if_pos hst, Ledger.place_held, h.held, hhold]
            · simp [World.commit]
          · -- a cancelled row is moved and still holds nothing
            refine ⟨_, .release row.id, ?_, ?_⟩
            · refine Eq.trans ?_ (heldIn_update (moveTo_id _ _) hf).symm
              rw [moveTo_status, if_neg hst, Ledger.release_held, h.held]
            · simp [World.commit]

/-! ## Updates outside a transaction -/

/-- No update outside a transaction confirms a booking or changes its time. -/
theorem PatchAllowed.status {s : Phase} {id : String} {patch : BookingPatch} (h : PatchAllowed s id patch)
    (b : Booking) : (patch.apply b).status = .cancelled ∨ (patch.apply b).status = b.status := by
  cases h <;> simp [BookingPatch.apply]

theorem update_refines {id : String} {patch : BookingPatch} {s : Phase} {b : Booking}
    (h : Represents ℓ w) (ha : PatchAllowed s id patch) (hb : w.db.bookings.find id = some b)
    (hw : w' = w.write { w.db with bookings := w.db.bookings.update id patch.apply patch.apply_id }) :
    ∃ ℓ', Ledger.Step ℓ ℓ' ∧ Represents ℓ' w' := by
  subst hw
  have hheld := heldIn_update patch.apply_id hb
  rcases ha.status b with hs | hs
  · -- the booking is cancelled: it gives up its interval
    refine ⟨_, .release id, ?_, fun d hd j x hj => ?_⟩
    · refine Eq.trans ?_ hheld.symm
      rw [Ledger.release_held, h.held, hs]; rfl
    · have hj : Function.update ℓ.held id none j = some x := hj
      by_cases hji : j = id
      · subst hji; rw [Function.update_self] at hj; cases hj
      · rw [Function.update_of_ne hji] at hj
        exact h.below hd j x hj
  · refine ⟨_, .stay, ?_, fun d hd => h.below hd⟩
    have hsame : (if (patch.apply b).status = .confirmed then some (patch.apply b).hold else none) =
        heldIn w.db.bookings id := by
      rw [hs]; simp only [heldIn, hb]; rfl
    refine Eq.trans ?_ hheld.symm
    rw [hsame, Function.update_eq_self, h.held]

/-- Every operation of a call is a step of the ledger. -/
theorem exec_refines {call : Call} {s : Phase} {o : Op} {ch : Choice} {r : Except Failure (Ans o)}
    (h : Represents ℓ w) (ha : s.allowed call o)
    (hrow : ∀ b, s.row = some b → ∃ b', w.db.bookings.find b.id = some b' ∧ SameRow b b')
    (hx : exec w o ch = (r, w')) : ∃ ℓ', Ledger.Step ℓ ℓ' ∧ Represents ℓ' w' := by
  cases ho : o.writes with
  | false => exact ⟨ℓ, .stay, h.frame (exec_frame ho hx).1 (exec_frame ho hx).2⟩
  | true =>
      cases o with
      | transaction tx =>
          rcases exec_transaction hx with ⟨e, rfl, rfl⟩ | ⟨d, hd, hn, b, rfl, hc⟩
          · exact ⟨ℓ, .stay, h⟩
          · exact transaction_refines h ha hrow hd hn hc
      | bookingUpdate id patch =>
          rcases exec_bookingUpdate hx with ⟨e, rfl, rfl⟩ | ⟨b, hb, rfl, hw⟩
          · exact ⟨ℓ, .stay, h⟩
          · exact update_refines h ha hb hw
      | _ => cases ho

/-! ## Runs -/

variable {c : BookingConfig} {G : BookingGuard}

theorem Represents.fresh (hw : w.Fresh) : Represents Ledger.empty w := by
  refine ⟨?_, by simp [hw.recent]⟩
  funext id
  simp [heldIn, hw.bookings, Ledger.empty, Table.find, Table.empty]

/-- In every reachable state some ledger shows the confirmed bookings. -/
theorem run_represents (hw : w.Fresh) (h : (bookingSystem P).Run G (.start w) c) :
    (∃ ℓ, Represents ℓ c.world) ∧ RowsKnown c.world (phases P c) := by
  refine bookingRun_tracked (I := fun w _ φ => (∃ ℓ, Represents ℓ w) ∧ RowsKnown w φ) .refl h
    ⟨⟨_, .fresh hw⟩, .start⟩ (fun jobs w log φ ⟨⟨ℓ, hℓ⟩, hk⟩ => ?_) (fun d w log φ ⟨⟨ℓ, hℓ⟩, hk⟩ => ?_)
    fun c i call o k ch r w' ⟨⟨ℓ, hℓ⟩, hk⟩ _ ha hx _ => ?_
  · exact ⟨⟨ℓ, hℓ.frame rfl (.inl ⟨rfl, rfl⟩)⟩, hk.of_bookings rfl⟩
  · refine ⟨⟨ℓ, hℓ.frame d.apply_bookings ?_⟩, hk.of_bookings d.apply_bookings⟩
    cases d with
    | tick => exact .inl ⟨rfl, rfl⟩
    | edit => exact .inr rfl
  · obtain ⟨ℓ', _, hℓ'⟩ := exec_refines hℓ ha (hk i) hx
    exact ⟨⟨ℓ', hℓ'⟩, hk.fire hx⟩

end CoachingCalendar
