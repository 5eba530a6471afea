import CoachingCalendar.Bookings.Lemmas.Basis
import CoachingCalendar.Bookings.Lemmas.Standing

/-!
# Who changes a booking

A booking is made by one request of a client. After that it changes by the hand of whoever holds its manage token, of
its coach or an admin, or of one of its own notification jobs, and by no other call.
-/

namespace CoachingCalendar
open Lib Lib.Prog Lib.System

variable {P : Platform} {w w' : World} {c c' : BookingConfig} {G : BookingGuard} {call : Call}
variable {o : Op} {ch : Choice} {r : Except Failure (Ans o)} {i : Nat} {φ : Nat → Standing}

/-- The call makes the second row out of the first. -/
inductive Call.Alters : Call → Booking → Booking → Prop
  | cancelByClient {b : Booking} {reason} : Alters (.cancelByClient b.manageToken reason) b
      { b with
        status := .cancelled, cancelledBy := some .client
        cancellationReason := reason.orElse fun _ => b.cancellationReason }
  | cancelByCoach {coach : Coach} {b reason} : b.coachId = coach.id ∨ coach.role = .admin →
      Alters (.cancelByCoach coach b.id reason) b
        { b with status := .cancelled, cancelledBy := some .coach, cancellationReason := some reason }
  | move {b : Booking} {newStartAt startAt} : Alters (.rescheduleByClient b.manageToken newStartAt) b
      { b with startAt := startAt, endAt := startAt + b.length }
  | unlink {b : Booking} {newStartAt} : b.location = .googleMeet →
      Alters (.rescheduleByClient b.manageToken newStartAt) b { b with meetLink := none, googleEventId := none }
  | link {job : Job} {b : Booking} {meetLink eventId} : job.data.bookingId = b.id → job.data.kind.live = true →
      b.location = .googleMeet → meetLink ≠ "" →
      Alters (.work job) b { b with meetLink := some meetLink, googleEventId := some eventId }

theorem Call.Alters.identity {b b' : Booking} (h : call.Alters b b') : b'.identity = b.identity := by
  cases h with
  | move => exact moveTo_identity (by omega)
  | _ => rfl

/-! ## What the calls have seen -/

/-- The part of a call's standing that tells its basis. -/
def Standing.basis : Standing → Basis
  | .nothing => .nothing
  | .type eventType | .booked eventType _ => .type eventType
  | .row b | .moved b _ => .row b

theorem Standing.basis_next (s : Standing) (e : Event Ans Failure) : (s.next e).basis = s.basis.next e := by
  cases s with
  | nothing =>
      cases ht : readType e with
      | some eventType => simp [next, basis, Basis.next, ht]
      | none => cases hr : readRow e <;> simp [next, basis, Basis.next, ht, hr]
  | type eventType => cases hr : reserved e <;> simp [next, basis, Basis.next, hr]
  | row b => cases hr : reserved e <;> simp [next, basis, Basis.next, hr]
  | moved b b' => rfl
  | booked eventType b => rfl

theorem Standing.typeFound_of_booked {past : List (Event Ans Failure)} {eventType : EventType} {b : Booking}
    (h : past.foldl next .nothing = .booked eventType b) : typeFound past = some eventType := by
  refine Basis.typeFound_of_type ?_
  rw [← show (past.foldl next .nothing).basis = past.foldl Basis.next .nothing from
    (List.foldl_hom basis fun s e => (basis_next s e).symm).symm, h]
  rfl

/-- The rows that calls have seen are in the table, and whoever has made one had been asked for it. -/
structure Vouched (c : BookingConfig) (φ : Nat → Standing) : Prop where
  known : ∀ i, ∀ b ∈ (φ i).rows, ∃ b', c.world.db.bookings.find b.id = some b' ∧ b'.identity = b.identity
  asked : ∀ i eventType b, φ i = .booked eventType b → ∃ dto originUrl,
    c.callOf i = some (.create dto originUrl) ∧ Asked dto originUrl eventType b
  made : ∀ e ∈ c.log, ∀ id, bookingCreated e = some id → ∃ eventType b, φ e.tid = .booked eventType b ∧ b.id = id

theorem asked_identity {dto : CreateBookingDto} {originUrl : Option String} {eventType : EventType} {b : Booking} :
    Asked dto originUrl eventType b.identity ↔ Asked dto originUrl eventType b := by
  have hl : b.identity.length = b.length := Int.sub_zero _
  constructor
  · rintro ⟨h₁, h₂, h₃, h₄, h₅, h₆, h₇, h₈, h₉, h₁₀, h₁₁, h₁₂, h₁₃⟩
    exact ⟨h₁, h₂, h₃, h₄, h₅, h₆, h₇, h₈, h₉, h₁₀, h₁₁, h₁₂, hl ▸ h₁₃⟩
  · rintro ⟨h₁, h₂, h₃, h₄, h₅, h₆, h₇, h₈, h₉, h₁₀, h₁₁, h₁₂, h₁₃⟩
    exact ⟨h₁, h₂, h₃, h₄, h₅, h₆, h₇, h₈, h₉, h₁₀, h₁₁, h₁₂, hl.trans h₁₃⟩

section Fire

variable (h : Vouched c φ) (ha : call.entitlement.allowed (φ i) o) (hx : exec c.world o ch = (r, w'))
include h ha hx

theorem Vouched.alters {id : String} {b : Booking} (hb : c.world.db.bookings.find id = some b) :
    ∃ b', w'.db.bookings.find id = some b' ∧ (b' = b ∨ call.Alters b b') := by
  rcases exec_row hx hb with hf | ⟨patch, b₁, he, hf⟩ | ⟨tx, b₁, he, hw, hf⟩
  · exact ⟨b, hf, .inl rfl⟩
  · cases he
    refine ⟨_, hf, .inr ?_⟩
    have hk := h.known i
    change call.MayPatch (φ i) id patch at ha
    generalize φ i = s at ha hk
    cases ha with
    | @cancelByClient b₀ reason =>
        obtain ⟨b', hf', hid⟩ := hk b₀ (List.mem_singleton_self _)
        cases hb.symm.trans hf'
        rw [← Booking.identity_manageToken hid]
        exact .cancelByClient
    | @cancelByCoach coach b₀ reason hc =>
        obtain ⟨b', hf', hid⟩ := hk b₀ (List.mem_singleton_self _)
        cases hb.symm.trans hf'
        rw [← Booking.identity_coachId hid] at hc
        rw [← Booking.identity_id hid]
        exact .cancelByCoach hc
    | @unlink b₀ b₂ newStartAt hid₂ hl =>
        obtain ⟨b', hf', hid⟩ := hk b₀ List.mem_cons_self
        cases hb.symm.trans hf'
        obtain ⟨b', hf', hid'⟩ := hk b₂ (by simp [Standing.rows])
        rw [hid₂] at hf'
        cases hb.symm.trans hf'
        rw [← Booking.identity_manageToken hid]
        exact .unlink ((Booking.identity_location hid').trans hl)
    | @link job b₀ meetLink eventId hj hlive hl hm =>
        obtain ⟨b', hf', hid⟩ := hk b₀ (List.mem_singleton_self _)
        cases hb.symm.trans hf'
        exact .link (hj.trans (Booking.identity_id hid).symm) hlive ((Booking.identity_location hid).trans hl) hm
  · cases he
    refine ⟨_, hf, .inr ?_⟩
    have hk := h.known i
    change call.MayReserve (φ i) tx at ha
    generalize φ i = s at ha hk
    cases ha with
    | create hw' _ => cases hw.symm.trans hw'
    | @move b₀ newStartAt _ hw' hl =>
        cases hw.symm.trans hw'
        obtain ⟨b', hf', hid⟩ := hk b₀ (List.mem_singleton_self _)
        cases hb.symm.trans hf'
        rw [← Booking.identity_manageToken hid, moveTo,
          show tx.endAt = tx.startAt + b.length by rw [Booking.identity_length hid]; omega]
        exact .move

theorem Vouched.keeps {id : String} {b : Booking} (hb : c.world.db.bookings.find id = some b) :
    ∃ b', w'.db.bookings.find id = some b' ∧ b'.identity = b.identity := by
  obtain ⟨b', hf, rfl | hal⟩ := h.alters ha hx hb
  · exact ⟨_, hf, rfl⟩
  · exact ⟨b', hf, hal.identity⟩

end Fire

theorem Standing.rows_next {s : Standing} {e : Event Ans Failure} {b : Booking} (hb : b ∈ (s.next e).rows) :
    b ∈ s.rows ∨ readRow e = some b ∨ reserved e = some b := by
  cases s with
  | nothing =>
      cases ht : readType e with
      | some eventType => simp [next, rows, ht] at hb
      | none => cases hr : readRow e <;> simp_all [next, rows]
  | type eventType => cases hr : reserved e <;> simp_all [next, rows]
  | row b₀ =>
      cases hr : reserved e with
      | none => exact .inl (by simpa [next, hr] using hb)
      | some b₁ =>
          simp only [next, hr, Option.map_some, Option.getD_some, rows, List.mem_cons, List.not_mem_nil, or_false] at hb
          exact hb.imp (fun h => by simp [rows, h]) fun h => .inr (by rw [h])
  | moved b₀ b₁ => exact .inl hb
  | booked eventType b₀ => exact .inl hb

theorem Standing.next_booked {s : Standing} {e : Event Ans Failure} {eventType : EventType} {b : Booking}
    (h : s.next e = .booked eventType b) : s = .booked eventType b ∨ s = .type eventType ∧ reserved e = some b := by
  cases s with
  | nothing =>
      simp only [next] at h
      split at h <;> cases h
  | type eventType =>
      cases hr : reserved e with
      | none => simp [next, hr] at h
      | some b₁ =>
          simp only [next, hr, Option.map_some, Option.getD_some, booked.injEq] at h
          exact .inr ⟨by rw [h.1], by rw [h.2]⟩
  | row b₀ => cases hr : reserved e <;> simp [next, hr] at h
  | moved b₀ b₁ => cases h
  | booked eventType b₀ => exact .inl h

theorem exec_reserved {b : Booking} (hx : exec w o ch = (r, w')) (hb : reserved ⟨o, r⟩ = some b) :
    ∃ tx b₁, (⟨o, r⟩ : Event Ans Failure) = ⟨.transaction tx, .ok b₁⟩ ∧ b₁.toBooking = b ∧ Committed w tx b₁ w' := by
  unfold reserved at hb
  split at hb
  · rename_i tx b₁ he
    cases he; cases hb
    rcases exec_transaction hx with ⟨e, he, _⟩ | ⟨d, _, _, b₁, he, hc⟩
    · cases he
    · cases he
      exact ⟨tx, b₁, rfl, rfl, hc⟩
  · cases hb

theorem Vouched.fire {k} (h : Vouched c φ) (hi : c.threads[i]? = some ⟨call, .op o k⟩)
    (ha : call.entitlement.allowed (φ i) o) (hx : exec c.world o ch = (r, w')) :
    Vouched ⟨w', c.threads.set i ⟨call, k r⟩, c.log ++ [⟨⟨o, r⟩, i⟩]⟩
      (Function.update φ i ((φ i).next ⟨o, r⟩)) := by
  refine ⟨fun j b hb => ?_, fun j eventType b hj => ?_, fun e he id hid => ?_⟩
  · have keep : ∀ b ∈ (φ j).rows, ∃ b', w'.db.bookings.find b.id = some b' ∧ b'.identity = b.identity := by
      intro b hb
      obtain ⟨b', hf, hid⟩ := h.known j b hb
      obtain ⟨b'', hf', hid'⟩ := h.keeps ha hx hf
      exact ⟨b'', hf', hid'.trans hid⟩
    by_cases hji : j = i
    · subst hji
      rw [Function.update_self] at hb
      rcases Standing.rows_next hb with hb | hr | hr
      · exact keep b hb
      · obtain ⟨rfl, hf⟩ := exec_readRow hx hr
        exact ⟨b, hf, rfl⟩
      · obtain ⟨tx, b₁, _, rfl, hc⟩ := exec_reserved hx hr
        exact ⟨_, hc.find, rfl⟩
    · rw [Function.update_of_ne hji] at hb
      exact keep b hb
  · rw [callOf_set hi]
    by_cases hji : j = i
    · subst hji
      rw [Function.update_self] at hj
      rcases Standing.next_booked hj with hj | ⟨ht, hr⟩
      · exact h.asked j eventType b hj
      · obtain ⟨tx, b₁, he, rfl, hc⟩ := exec_reserved hx hr
        cases he
        rw [ht] at ha
        change call.MayReserve (.type eventType) tx at ha
        cases ha with
        | @create dto originUrl _ _ data hw hasked =>
            refine ⟨dto, originUrl, by rw [Config.callOf, hi]; rfl, ?_⟩
            cases hc with
            | create hw' _ =>
                cases hw.symm.trans hw'
                exact hasked _ _
            | move hw' _ => cases hw.symm.trans hw'
    · rw [Function.update_of_ne hji] at hj
      exact h.asked j eventType b hj
  · rcases List.mem_append.mp he with he | he
    · obtain ⟨eventType, b, hb, rfl⟩ := h.made e he id hid
      refine ⟨eventType, b, ?_, rfl⟩
      by_cases hei : e.tid = i
      · rw [hei] at hb ⊢
        rw [Function.update_self, hb]
        rfl
      · rwa [Function.update_of_ne hei]
    · cases List.mem_singleton.mp he
      rw [Function.update_self]
      unfold bookingCreated at hid
      split at hid
      · rename_i tx b₁ j he
        cases he
        split at hid
        · rename_i data hw
          cases hid
          change call.MayReserve (φ i) tx at ha
          generalize φ i = s at ha
          cases ha with
          | @create _ _ eventType _ _ _ _ => exact ⟨eventType, b₁.toBooking, rfl, rfl⟩
          | move hw' _ => cases hw.symm.trans hw'
        · cases hid
      · cases hid

/-! ## Runs -/

theorem run_vouched (h : (bookingSystem P).Run G (.start w) c) :
    Vouched c (phase Standing.next .nothing c) := by
  refine Run.observed (R := Call.entitlement) (I := Vouched) h (fun _ => rfl) Standing.body_follows
    (fun _ _ _ _ => exec_answered rfl) ⟨?_, ?_, ?_⟩ ?_ ?_ ?_
  · exact fun i b hb => nomatch hb
  · exact fun i t b hb => nomatch hb
  · exact fun e he => nomatch he
  · intro c call w' φ hrun hv ha
    obtain ⟨jobs, rfl⟩ := Call.accept_jobs ha
    refine ⟨hv.known, fun j eventType b hj => ?_, hv.made⟩
    obtain ⟨dto, originUrl, hc, hasked⟩ := hv.asked j eventType b hj
    obtain ⟨th, hth, _⟩ := Option.map_eq_some_iff.mp hc
    exact ⟨dto, originUrl, (callOf_append (List.getElem?_eq_some_iff.mp hth).1).trans hc, hasked⟩
  · refine fun c d φ hv => ⟨fun i b hb => ?_, hv.asked, hv.made⟩
    change ∃ b', (d.apply c.world).db.bookings.find b.id = some b' ∧ _
    rw [d.apply_bookings]
    exact hv.known i b hb
  · exact fun c i call o k ch r w' _ hv hi ha hx _ _ => hv.fire hi ha hx

/-- In one step of a run a row stays as it is, or the call that the step belongs to alters it. -/
theorem step_alters (h : (bookingSystem P).Run G (.start w) c) (hs : (bookingSystem P).Step G c c') {id : String}
    {b : Booking} (hb : c.world.db.bookings.find id = some b) : ∃ b', c'.world.db.bookings.find id = some b' ∧
      (b' = b ∨ ∃ i call, Config.FiredBy i c c' ∧ c.callOf i = some call ∧ call.Alters b b') := by
  have hv := run_vouched h
  cases hs with
  | spawn _ ha =>
      obtain ⟨jobs, rfl⟩ := Call.accept_jobs ha
      exact ⟨b, hb, .inl rfl⟩
  | @fire i call o k ch r w' hi hx _ =>
      have hf := (h.follows (R := Call.entitlement) (fun _ => rfl) Standing.body_follows
        (fun _ _ _ _ => exec_answered rfl) i _ hi).1
      obtain ⟨b', hf, he | hal⟩ := hv.alters hf hx hb
      · exact ⟨b', hf, .inl he⟩
      · exact ⟨b', hf, .inr ⟨i, call, ⟨_, rfl, rfl⟩, by rw [Config.callOf, hi]; rfl, hal⟩⟩
  | drift d => exact ⟨b, d.apply_bookings.symm ▸ hb, .inl rfl⟩

theorem run_identity (h : (bookingSystem P).Run G (.start w) c) (h' : (bookingSystem P).Run G c c') {id : String}
    {b : Booking} (hb : c.world.db.bookings.find id = some b) :
    ∃ b', c'.world.db.bookings.find id = some b' ∧ b'.identity = b.identity := by
  induction h' with
  | refl => exact ⟨b, hb, rfl⟩
  | tail hrun hstep ih =>
      obtain ⟨b₁, hf, he⟩ := ih
      obtain ⟨b₂, hf', rfl | ⟨_, _, _, _, hal⟩⟩ := step_alters (h.trans hrun) hstep hf
      · exact ⟨b₂, hf', he⟩
      · exact ⟨b₂, hf', hal.identity.trans he⟩

theorem run_returned (h : (bookingSystem P).Run G (.start w) c) {e : BookingEntry} (he : e ∈ c.log) {b : Booking}
    (hb : returnedRow e.toEvent = some b) : ∃ b', c.world.db.bookings.find b.id = some b' ∧ b'.identity = b.identity := by
  obtain ⟨c₁, c₂, hat⟩ := h.issued (List.nil_append _).symm he
  obtain ⟨ch, hx⟩ := (hat.step.issues hat.log).exec
  exact run_identity (hat.before.tail hat.step) hat.after (exec_returnedRow hx hb)

/-! ## Changes -/

/-- Whatever the order of the calls, a booking stays in the table, and each change of it is made by a call that is
entitled to that change. -/
theorem bookings_alteredBy (h : (bookingSystem P).Run G (.start w) c) (hs : (bookingSystem P).Step G c c')
    {b : Booking} (hb : b ∈ c.world.db.bookings) : ∃ b' ∈ c'.world.db.bookings, b'.id = b.id ∧
      (b' = b ∨ ∃ i call, Config.FiredBy i c c' ∧ c.callOf i = some call ∧ call.Alters b b') := by
  obtain ⟨b', hf, h'⟩ := step_alters h hs (Table.find_some.mpr ⟨hb, rfl⟩)
  exact ⟨b', Table.find_mem hf, Table.find_key hf, h'⟩

/-- The booking of Anna, cancelled with its manage token. -/
theorem bookings_alteredBy_client : ∃ c c', (bookingSystem .sample).Run .any (.start .sample) c ∧
    (bookingSystem .sample).Step .any c c' ∧ ∃ b ∈ c.world.db.bookings, ∃ b' ∈ c'.world.db.bookings,
      b'.status ≠ b.status ∧ ∃ i call, Config.FiredBy i c c' ∧ c.callOf i = some call ∧ call.Alters b b' := by
  obtain ⟨c, h, hp⟩ := run_of_play (S := bookingSystem .sample) (G := .any) (c := .start .sample)
    (bookSample ++ [.spawn (.cancelByClient "t1" (some "ill"))] ++ fires 1 4)
    (fun c => (c.world.db.bookings.rows.any fun b => b.id = "b1" && b.status = .confirmed) &&
      ((bookingSystem .sample).next .any c (.fire 1 {})).any fun c' =>
        c'.world.db.bookings.rows.all fun b => b.id = "b1" && b.status = .cancelled) (by decide)
  simp only [Bool.and_eq_true, List.any_eq_true, decide_eq_true_eq, Option.any_eq_true, List.all_eq_true] at hp
  obtain ⟨⟨b, hb, hid, hb₁⟩, c', hc', hall⟩ := hp
  obtain ⟨b', hb', _, he | hal⟩ := bookings_alteredBy h (step_of_next hc') hb
  · have := (hall b' hb').2
    rw [he, hb₁] at this
    cases this
  · refine ⟨c, c', h, step_of_next hc', b, hb, b', hb', ?_, hal⟩
    rw [(hall b' hb').2, hb₁]
    decide

/-! ## Strangers -/

/-- Calls that hold the manage token of a booking, or come from its coach or an admin. -/
def Call.holds (b : Booking) : Call → Prop
  | .cancelByClient token _ | .rescheduleByClient token _ => token = b.manageToken
  | .cancelByCoach coach bookingId _ => bookingId = b.id ∧ (coach.id = b.coachId ∨ coach.role = .admin)
  | .create _ _ | .work _ => False

/-- The row apart from the calendar event. -/
def Booking.unlinked (b : Booking) : Booking := { b with meetLink := none, googleEventId := none }

theorem Call.Alters.unlinked {b b' b₀ : Booking} (h : call.Alters b b') (hb : b.unlinked = b₀.unlinked)
    (hs : ¬ call.holds b₀) : b'.unlinked = b₀.unlinked := by
  have hid : b.id = b₀.id := congrArg (·.id) hb
  have ht : b.manageToken = b₀.manageToken := congrArg (·.manageToken) hb
  have hc : b.coachId = b₀.coachId := congrArg (·.coachId) hb
  cases h with
  | cancelByClient => exact absurd ht hs
  | cancelByCoach h => exact absurd ⟨hid, h.imp (fun h => h.symm.trans hc) fun h => h⟩ hs
  | move => exact absurd ht hs
  | unlink _ => exact absurd ht hs
  | link _ _ _ _ => exact hb

/-- As long as nobody who holds a booking makes a call, nothing changes of it but its calendar event. -/
theorem strangers_keep_bookings (h : (bookingSystem P).Run G (.start w) c) (h' : (bookingSystem P).Run G c c')
    {b : Booking} (hb : b ∈ c.world.db.bookings) (hs : ∀ i call, c'.callOf i = some call → ¬ call.holds b) :
    ∃ b' ∈ c'.world.db.bookings, b'.unlinked = b.unlinked := by
  suffices ∃ b', c'.world.db.bookings.find b.id = some b' ∧ b'.unlinked = b.unlinked by
    obtain ⟨b', hf, he⟩ := this
    exact ⟨b', Table.find_mem hf, he⟩
  induction h' with
  | refl => exact ⟨b, Table.find_some.mpr ⟨hb, rfl⟩, rfl⟩
  | @tail c₁ c₂ hrun hstep ih =>
      obtain ⟨b₁, hf, he⟩ := ih fun i call hi => hs i call (hstep.callOf hi)
      obtain ⟨b₂, hf', rfl | ⟨i, call, _, hi, hal⟩⟩ := step_alters (h.trans hrun) hstep hf
      · exact ⟨b₂, hf', he⟩
      · exact ⟨b₂, hf', hal.unlinked he (hs i call (hstep.callOf hi))⟩

/-- Anna's booking is not touched by a cancellation with another token. -/
theorem strangers_keep_bookings_guess : ∃ c c', (bookingSystem .sample).Run .any (.start .sample) c ∧
    (bookingSystem .sample).Run .any c c' ∧ ∃ b ∈ c.world.db.bookings,
      (∃ token reason, c'.callOf 1 = some (.cancelByClient token reason)) ∧
      ∃ b' ∈ c'.world.db.bookings, b'.unlinked = b.unlinked := by
  obtain ⟨c, h, hp⟩ := run_of_play (S := bookingSystem .sample) (G := .any) (c := .start .sample) bookSample
    (fun c => c.threads.map (·.call) = [.create .sample none] &&
      (c.world.db.bookings.rows.any fun b => b.manageToken = "t1") &&
      ((bookingSystem .sample).play .any ([.spawn (.cancelByClient "t2" none)] ++ fires 1 1) c).any fun c' =>
        c'.threads.map (·.call) = [.create .sample none, .cancelByClient "t2" none]) (by decide)
  simp only [Bool.and_eq_true, List.any_eq_true, decide_eq_true_eq, Option.any_eq_true] at hp
  obtain ⟨⟨hcalls, b, hb, ht⟩, c', hc', hcalls'⟩ := hp
  have call : ∀ i, c'.callOf i = [Call.create .sample none, .cancelByClient "t2" none][i]? := by
    intro i
    rw [← hcalls', List.getElem?_map]
    rfl
  refine ⟨c, c', h, play_run hc', b, hb, ⟨_, _, call 1⟩, ?_⟩
  refine strangers_keep_bookings h (play_run hc') hb fun i call' hi => ?_
  rw [call] at hi
  rcases i with _ | _ | i
  · cases hi; exact id
  · cases hi
    rw [Call.holds, ht]
    decide
  · cases hi

/-! ## Origin -/

theorem run_asked (h₀ : w.Fresh) (h : (bookingSystem P).Run G (.start w) c) {b : Booking}
    (hb : b ∈ c.world.db.bookings) : ∃ i dto originUrl eventType b₀,
      phase Standing.next .nothing c i = .booked eventType b₀ ∧ b₀.id = b.id ∧
      c.callOf i = some (.create dto originUrl) ∧ CreatedFrom c i eventType b.id ∧ Asked dto originUrl eventType b := by
  have hv := run_vouched h
  obtain ⟨e, he, hid⟩ := (run_based h₀ h).all b hb
  obtain ⟨eventType, b₀, hφ, hid₀⟩ := hv.made e he b.id hid
  obtain ⟨dto, originUrl, hcall, hasked⟩ := hv.asked e.tid eventType b₀ hφ
  obtain ⟨b₁, hf, hsame⟩ := hv.known e.tid b₀ (by simp [hφ, Standing.rows])
  rw [hid₀] at hf
  cases (Table.find_some.mpr ⟨hb, rfl⟩).symm.trans hf
  refine ⟨e.tid, dto, originUrl, eventType, b₀, hφ, hid₀, hcall, ?_, ?_⟩
  · exact ⟨Standing.typeFound_of_booked hφ, e, he, rfl, hid⟩
  · rwa [← asked_identity, hsame, asked_identity]

/-- Every booking was made by one request, as its client asked for and as the event type then offered, and no request
has made two. -/
theorem bookings_asked (h₀ : w.Fresh) (h : (bookingSystem P).Run G (.start w) c) {b : Booking}
    (hb : b ∈ c.world.db.bookings) : ∃ i dto originUrl eventType, c.callOf i = some (.create dto originUrl) ∧
      CreatedFrom c i eventType b.id ∧ Asked dto originUrl eventType b ∧
      ∀ b' ∈ c.world.db.bookings, ∀ eventType', CreatedFrom c i eventType' b'.id → b' = b := by
  obtain ⟨i, dto, originUrl, eventType, b₀, hφ, hid₀, hcall, hc, hasked⟩ := run_asked h₀ h hb
  refine ⟨i, dto, originUrl, eventType, hcall, hc, hasked, ?_⟩
  rintro b' hb' eventType' ⟨_, e', he', htid, hid'⟩
  obtain ⟨_, b₂, hφ', hid₂⟩ := (run_vouched h).made e' he' b'.id hid'
  rw [htid, hφ] at hφ'
  cases hφ'
  exact Table.eq_of_key hb' hb (hid₂.symm.trans hid₀)

/-- The booking of Anna is the one that she asked for. -/
theorem bookings_asked_sample : ∃ c, (bookingSystem .sample).Run .any (.start .sample) c ∧
    ∃ b ∈ c.world.db.bookings, ∃ i dto originUrl eventType, c.callOf i = some (.create dto originUrl) ∧
      CreatedFrom c i eventType b.id ∧ Asked dto originUrl eventType b ∧
      ∀ b' ∈ c.world.db.bookings, ∀ eventType', CreatedFrom c i eventType' b'.id → b' = b := by
  obtain ⟨c, h, hp⟩ := run_of_play (S := bookingSystem .sample) (G := .any) (c := .start .sample) bookSample
    (fun c => !c.world.db.bookings.rows.isEmpty) (by decide)
  obtain ⟨b, hb⟩ := List.isEmpty_eq_false_iff_exists_mem.mp (by simpa using hp)
  exact ⟨c, h, b, hb, bookings_asked ⟨rfl, rfl, rfl⟩ h hb⟩

end CoachingCalendar
