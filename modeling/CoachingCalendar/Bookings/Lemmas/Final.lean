import CoachingCalendar.Bookings.Conditions
import CoachingCalendar.Bookings.Lemmas.Rows

/-!
# Cancellation under the condition that nobody cancels in between

A call decides on the row it has read and writes by id alone. As long as no cancellation is committed
between its read and its write, the row it writes to is still confirmed.
-/

namespace CoachingCalendar
open Lib Lib.System

variable {P : Platform} {w w' : World} {log : List BookingEntry} {φ : Nat → Phase} {c c' : BookingConfig}
variable {call : Call} {s : Phase} {o : Op} {ch : Choice} {r : Except Failure (Ans o)} {i : Nat}

/-! ## One operation -/

theorem PatchAllowed.outcome {id : String} {patch : BookingPatch} (h : PatchAllowed s id patch)
    (hc : patch.cancels = false) (b : Booking) : (patch.apply b).outcome = b.outcome := by
  cases h with
  | cancel _ => cases hc
  | clear => rfl
  | attach _ => rfl

theorem PatchAllowed.status_eq {id : String} {patch : BookingPatch} (h : PatchAllowed s id patch)
    (b : Booking) :
    (patch.apply b).status = if patch.cancels then .cancelled else b.status := by
  cases h <;> rfl

/-- The outcome of a row changes only when its booking is cancelled or moved. -/
theorem exec_outcome {id : String} {b b' : Booking} (ha : s.allowed call o) (hx : exec w o ch = (r, w'))
    (hb : w.db.bookings.find id = some b) (hb' : w'.db.bookings.find id = some b')
    (hc : cancels id ⟨⟨o, r⟩, i⟩ = false) (hm : moves id ⟨⟨o, r⟩, i⟩ = false) :
    b'.outcome = b.outcome := by
  rcases exec_row hx hb with hf | ⟨patch, b₁, he, hf⟩ | ⟨tx, b₁, he, hw, hf⟩
  · cases hf.symm.trans hb'; rfl
  · cases he
    cases hf.symm.trans hb'
    exact PatchAllowed.outcome ha (patches_update.symm.trans hc) b
  · cases he
    rw [moves_transaction hw] at hm; cases hm

theorem exec_status {id : String} {b b' : Booking} (ha : s.allowed call o) (hx : exec w o ch = (r, w'))
    (hb : w.db.bookings.find id = some b) (hb' : w'.db.bookings.find id = some b') :
    b'.status = if cancels id ⟨⟨o, r⟩, i⟩ then .cancelled else b.status := by
  by_cases hc : cancels id ⟨⟨o, r⟩, i⟩
  · rw [if_pos hc]
    obtain ⟨patch, b₁, he, hp⟩ := patches_iff.mp hc
    cases he
    obtain ⟨b₂, _, _, hf⟩ := exec_bookingUpdate_ok hx
    cases hf.symm.trans hb'
    rw [PatchAllowed.status_eq ha, if_pos hp]
  · rw [if_neg hc]
    rcases exec_row hx hb with hf | ⟨patch, b₁, he, hf⟩ | ⟨tx, b₁, he, hw, hf⟩
    · cases hf.symm.trans hb'; rfl
    · cases he
      cases hf.symm.trans hb'
      rw [PatchAllowed.status_eq ha, if_neg fun hp => hc (patches_update.trans hp)]
    · cases hf.symm.trans hb'; rfl

/-! ## Phases -/

theorem Phase.next_cancelled {e : Event Ans Failure} {b : Booking} (h : s.next P e = .cancelled b) :
    s = .cancelled b ∨ ∃ id patch b₁, e = ⟨.bookingUpdate id patch, .ok b₁⟩ ∧
      patch.cancels = true ∧ b₁.toBooking = b := by
  unfold Phase.next at h
  split at h
  · cases h
  · cases h
  · split at h <;> cases h
  · split at h <;> cases h
  · cases h
  · split at h <;> cases h
  · split at h
    · cases h; exact .inr ⟨_, _, _, rfl, ‹_›, rfl⟩
    · cases h
  · cases h
  · exact .inl h

/-! ## The invariant -/

/-- What the calls know about the rows they work on. -/
structure Cancelling (w : World) (log : List BookingEntry) (φ : Nat → Phase) : Prop where
  known : RowsKnown w φ
  /-- A row that was read confirmed stays so until somebody cancels it. -/
  confirmed : ∀ i b, φ i = .read b → b.status = .confirmed →
    (∀ x ∈ since (fun x => x.tid = i && reads b.id x) log, cancels b.id x = false) →
    ∀ b', w.db.bookings.find b.id = some b' → b'.status = .confirmed
  cancelled : ∀ i b, φ i = .cancelled b → ∀ b', w.db.bookings.find b.id = some b' → b'.status = .cancelled
  once : ∀ i j b b', φ i = .cancelled b → φ j = .cancelled b' → b.id = b'.id → i = j

theorem Cancelling.write_confirmed (h : Cancelling w log φ) (ha : (φ i).allowed call o) {id : String}
    {b : Booking} (hx : exec w o ch = (r, w'))
    (hg : ∀ x ∈ since (fun x => x.tid = i && reads id x) log, cancels id x = false)
    (he : cancels id ⟨⟨o, r⟩, i⟩ ∨ moves id ⟨⟨o, r⟩, i⟩) (hb : w.db.bookings.find id = some b) :
    b.status = .confirmed := by
  rcases he with he | he
  · obtain ⟨patch, b₁, he, hp⟩ := patches_iff.mp he
    cases he
    generalize hs : φ i = s at ha
    cases ha with
    | cancel hst => exact h.confirmed i _ hs hst hg b hb
    | clear => cases hp
    | attach _ => cases hp
  · obtain ⟨tx, b₁, he, hw⟩ := moves_iff.mp he
    cases he
    generalize hs : φ i = s at ha
    cases ha with
    | create hw' => rw [hw] at hw'; cases hw'
    | move hw' _ _ hst =>
        rw [hw] at hw'; cases hw'
        exact h.confirmed i _ hs hst hg b hb

theorem Cancelling.fire (h : Cancelling w log φ) (ha : (φ i).allowed call o)
    (hx : exec w o ch = (r, w')) (hg : ∀ id, cancels id ⟨⟨o, r⟩, i⟩ ∨ moves id ⟨⟨o, r⟩, i⟩ →
      ∀ x ∈ since (fun x => x.tid = i && reads id x) log, cancels id x = false) :
    Cancelling w' (log ++ [⟨⟨o, r⟩, i⟩]) (Function.update φ i ((φ i).next P ⟨o, r⟩)) := by
  -- the row of a call that goes on in its phase
  have row : ∀ {j b}, (φ j).row = some b → ∀ b', w'.db.bookings.find b.id = some b' →
      ∃ b₀, w.db.bookings.find b.id = some b₀ ∧
        b'.status = if cancels b.id ⟨⟨o, r⟩, i⟩ then .cancelled else b₀.status := by
    intro j b hb b' hb'
    obtain ⟨b₀, hb₀, _⟩ := h.known j b hb
    exact ⟨b₀, hb₀, exec_status ha hx hb₀ hb'⟩
  -- a call becomes `cancelled` by cancelling a confirmed row
  have became : ∀ {b}, (φ i).next P ⟨o, r⟩ = .cancelled b → φ i ≠ .cancelled b →
      cancels b.id ⟨⟨o, r⟩, i⟩ ∧ ∃ b₀, w.db.bookings.find b.id = some b₀ ∧ b₀.status = .confirmed := by
    intro b hn hne
    obtain hs | ⟨id, patch, b₁, he, hp, rfl⟩ := Phase.next_cancelled hn
    · exact absurd hs hne
    cases he
    obtain ⟨b₀, hb₀, hb₁, _⟩ := exec_bookingUpdate_ok hx
    have hid : b₁.id = id := by rw [hb₁, patch.apply_id, Table.find_key hb₀]
    have hc : cancels id ⟨⟨.bookingUpdate id patch, .ok b₁⟩, i⟩ := patches_iff.mpr ⟨patch, b₁, rfl, hp⟩
    rw [hid]
    exact ⟨hc, b₀, hb₀, h.write_confirmed ha hx (hg _ (.inl hc)) (.inl hc) hb₀⟩
  refine ⟨h.known.fire hx, fun j b hj hst hsince b' hb' => ?_, fun j b hj b' hb' => ?_,
    fun j k b b' hj hk hid => ?_⟩
  · rw [since_append] at hsince
    have keep : φ j = .read b → (j = i → readRow ⟨o, r⟩ = none) → b'.status = .confirmed := by
      intro hs hn
      have hp : ((⟨⟨o, r⟩, i⟩ : BookingEntry).tid = j && reads b.id ⟨⟨o, r⟩, i⟩) = false := by
        by_cases hji : j = i
        · simp [reads_of_none (hn hji)]
        · simp [Ne.symm hji]
      rw [if_neg (by simp [hp])] at hsince
      obtain ⟨b₀, hb₀, hst'⟩ := row (j := j) (by rw [hs]; rfl) b' hb'
      rw [hst', if_neg (by simp [hsince _ List.mem_cons_self])]
      exact h.confirmed j b hs hst (fun x hx => hsince x (List.mem_cons_of_mem _ hx)) b₀ hb₀
    by_cases hji : j = i
    · subst hji
      rw [Function.update_self] at hj
      rcases Phase.next_read hj with hr | ⟨hs, hr⟩
      · obtain ⟨rfl, hf⟩ := exec_readRow hx hr
        cases hf.symm.trans hb'
        exact hst
      · exact keep hs fun _ => hr
    · rw [Function.update_of_ne hji] at hj
      exact keep hj fun he => absurd he hji
  · have keep : φ j = .cancelled b → b'.status = .cancelled := by
      intro hs
      obtain ⟨b₀, hb₀, hst'⟩ := row (j := j) (by rw [hs]; rfl) b' hb'
      rw [hst', h.cancelled j b hs b₀ hb₀, ite_self]
    by_cases hji : j = i
    · subst hji
      rw [Function.update_self] at hj
      by_cases hs : φ j = .cancelled b
      · exact keep hs
      · obtain ⟨hc, b₀, hb₀, _⟩ := became hj hs
        rw [exec_status ha hx hb₀ hb', if_pos hc]
    · rw [Function.update_of_ne hji] at hj
      exact keep hj
  · -- two calls of which only one cancels now
    have clash : ∀ {b b' : Booking} {k}, k ≠ i → (φ i).next P ⟨o, r⟩ = .cancelled b → φ k = .cancelled b' →
        b.id = b'.id → φ i = .cancelled b := by
      intro b b' k hk hn hk' hid
      by_contra hs
      obtain ⟨_, b₀, hb₀, hst⟩ := became hn hs
      rw [hid] at hb₀
      have := h.cancelled k b' hk' b₀ hb₀
      rw [hst] at this
      cases this
    by_cases hji : j = i <;> by_cases hki : k = i
    · rw [hji, hki]
    · rw [hji, Function.update_self] at hj
      rw [Function.update_of_ne hki] at hk
      exact hji ▸ h.once i k b b' (clash hki hj hk hid) hk hid
    · rw [Function.update_of_ne hji] at hj
      rw [hki, Function.update_self] at hk
      exact hki ▸ h.once j i b b' hj (clash hji hk hj hid.symm) hid
    · rw [Function.update_of_ne hji] at hj
      rw [Function.update_of_ne hki] at hk
      exact h.once j k b b' hj hk hid

theorem Cancelling.of_bookings (h : Cancelling w log φ) (hb : w'.db.bookings = w.db.bookings) :
    Cancelling w' log φ :=
  ⟨h.known.of_bookings hb, by rw [hb]; exact h.confirmed, by rw [hb]; exact h.cancelled, h.once⟩

theorem Cancelling.start : Cancelling w [] fun _ => .idle :=
  ⟨.start, by simp, by simp, by simp⟩

/-! ## Runs -/

theorem run_cancelling (h : (bookingSystem P).Run noCancelBetween (.start w) c) :
    Cancelling c.world c.log (phases P c) :=
  bookingRun_tracked .refl h .start (fun _ _ _ _ hc => hc.of_bookings rfl)
    (fun d _ _ _ hc => hc.of_bookings d.apply_bookings)
    fun _ _ _ _ _ _ _ _ hc _ ha hx hg => hc.fire ha hx hg

theorem run_outcome (h : (bookingSystem P).Run noCancelBetween (.start w) c)
    (h' : (bookingSystem P).Run noCancelBetween c c') {id : String} {b : Booking}
    (hb : c.world.db.bookings.find id = some b) (hs : b.status = .cancelled) :
    ∃ b', c'.world.db.bookings.find id = some b' ∧ b'.outcome = b.outcome := by
  refine (bookingRun_tracked (I := fun w log φ => Cancelling w log φ ∧
    ∃ b', w.db.bookings.find id = some b' ∧ b'.outcome = b.outcome) h h'
    ⟨run_cancelling h, b, hb, rfl⟩ (fun _ _ _ _ ⟨hc, hr⟩ => ⟨hc.of_bookings rfl, hr⟩)
    (fun d _ _ _ ⟨hc, hr⟩ => ⟨hc.of_bookings d.apply_bookings, by rw [d.apply_bookings]; exact hr⟩)
    fun c i call o k ch r w' ⟨hc, b₀, hb₀, ho⟩ _ ha hx hg => ⟨hc.fire ha hx hg, ?_⟩).2
  obtain ⟨b', hb', _⟩ := exec_kept hx id b₀ hb₀
  have hst : b₀.status = .cancelled := (congrArg Outcome.status ho).trans hs
  -- a write would have found the row confirmed
  have untouched : ¬ (cancels id ⟨⟨o, r⟩, i⟩ ∨ moves id ⟨⟨o, r⟩, i⟩) := by
    intro he
    have := hc.write_confirmed ha hx (hg id he) he hb₀
    rw [hst] at this
    cases this
  rw [not_or, Bool.not_eq_true, Bool.not_eq_true] at untouched
  exact ⟨b', hb', (exec_outcome ha hx hb₀ hb' untouched.1 untouched.2).trans ho⟩

theorem ended_cancelled {G : BookingGuard} (h : (bookingSystem P).Run G (.start w) c)
    {b : BookingWithRelations} (he : c.Ended i call (.ok (some b))) (hc : call.isCancel) :
    phases P c i = .cancelled b.toBooking := by
  obtain ⟨b', hb, hp⟩ := (bookingRun_follows h he).2 hc (some b) rfl
  cases hb; exact hp

end CoachingCalendar
