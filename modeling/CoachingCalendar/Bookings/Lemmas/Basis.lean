import CoachingCalendar.Bookings.Changes
import CoachingCalendar.Bookings.Lemmas.Rows
import CoachingCalendar.Bookings.Lemmas.Scope

/-!
# The length of a booking

A booking is created with the length that its event type had when the call looked, and a reschedule carries the
length of the row that it read over. So the length never changes.
-/

namespace CoachingCalendar
open Lib Lib.Prog Lib.System

variable {P : Platform} {call : Call} {w w' : World} {o : Op} {ch : Choice} {r : Except Failure (Ans o)} {i : Nat}
variable {log : List BookingEntry} {c c' : BookingConfig} {G : BookingGuard}

/-- What a call goes by: the event type or the row that it found first. -/
inductive Basis where
  | nothing
  | type (eventType : EventType)
  | row (b : Booking)

namespace Basis

def next : Basis → Event Ans Failure → Basis
  | .nothing, e =>
      match readType e, readRow e with
      | some eventType, _ => .type eventType
      | none, some b => .row b
      | none, none => .nothing
  | s, _ => s

/-- The transactions that a call issues. -/
inductive Permits : Basis → SlotTransaction → Prop
  | create {eventType tx data} : tx.write = .create data → data.eventTypeId = eventType.id →
      data.coachId = eventType.coachId → data.endAt - data.startAt = eventType.durationMinutes * msPerMinute →
      Permits (.type eventType) tx
  | move {b tx} : tx.write = .move b.id → tx.endAt - tx.startAt = b.length → Permits (.row b) tx

def protocol : Protocol Ans Failure Basis where
  answers _ _ := True
  next := next
  allowed s
    | .transaction tx => s.Permits tx
    | _ => True

variable {s : Basis}

theorem protocol_ignores (hs : s ≠ .nothing) : Ignores protocol s := by
  have stay : ∀ e, s.next e = s := by cases s <;> simp_all [next]
  intro o ho
  cases o with
  | now | eventTypeFindUnique | coachFindUnique | settingsUpsert | overrideFindMany | weeklyFindMany =>
      exact ⟨trivial, fun _ => stay _⟩
  | _ => cases ho

theorem next_of_ne {e : Event Ans Failure} (hs : s ≠ .nothing) : s.next e = s := by cases s <;> simp_all [next]

/-- Once the call goes by something, the rest of its program is a part that only issues what it permits. -/
theorem reserve_follows {tx : SlotTransaction} (hs : s ≠ .nothing) (h : s.Permits tx) (timezone : String)
    {f : BookingWithRelations → BookingProg BookingWithRelations}
    (hf : ∀ b, (f b).Follows protocol (fun _ _ => True) s) :
    ((runSerializable (reserveSlot P tx timezone)).bind f).Follows protocol (fun _ _ => True) s := by
  rw [follows_bind]
  refine (reserveSlot_follows (protocol_ignores hs) h (fun _ => next_of_ne hs) _).mono fun s' r hr => ?_
  cases r with
  | error e => exact trivial
  | ok b =>
      have he : s' = s := hr.trans (next_of_ne hs)
      exact he ▸ hf b

theorem of_scope {α : Type} {p : BookingProg α} {mails : Bool}
    (h : p.Follows (scope false mails) (fun _ _ => True) ()) : p.Follows protocol (fun _ _ => True) s := by
  refine h.transfer (fun _ o ha s' => ?_) fun _ _ _ => trivial
  cases o with
  | transaction tx => cases ha
  | _ => exact trivial

theorem of_still {α : Type} {p : BookingProg α} (h : p.Still (scope false false) ()) :
    p.Follows protocol (fun _ _ => True) s :=
  of_scope (h.follows fun _ => trivial)

theorem create_follows (dto : CreateBookingDto) (originUrl : Option String) :
    (BookingsService.create P dto originUrl).Follows protocol (fun _ _ => True) .nothing := by
  unfold BookingsService.create
  refine .perform_bind trivial (fun eventType _ => ?_) fun _ _ => trivial
  cases eventType with
  | none => exact trivial
  | some eventType =>
      have hs : Basis.type eventType ≠ .nothing := nofun
      have hR := protocol_ignores hs
      show Follows _ _ (Basis.type eventType) _
      dsimp only
      split
      · exact trivial
      split
      · exact trivial
      refine (SettingsService.get_still hR _).bind_follows (fun settings => ?_) fun _ => trivial
      refine (parseStartAt_still hR _ _).bind_follows (fun startAt => ?_) fun _ => trivial
      refine (assertSameCalendarDay_still _ _ _ _).bind_follows (fun _ => ?_) fun _ => trivial
      refine reserve_follows hs (.create rfl rfl rfl (by dsimp only; omega)) _ fun b => of_still ?_
      exact .bind (enqueue_scope _ _) fun _ => .pure

theorem rescheduleByClient_follows (token newStartAt : String) :
    (BookingsService.rescheduleByClient P token newStartAt).Follows protocol (fun _ _ => True) .nothing := by
  unfold BookingsService.rescheduleByClient BookingsService.findByManageToken
  rw [bind_eq, bind_eq, bind_assoc]
  refine .perform_bind trivial (fun b _ => ?_) fun _ _ => trivial
  cases b with
  | none => exact trivial
  | some b =>
      have hs : Basis.row b.toBooking ≠ .nothing := nofun
      have hR := protocol_ignores hs
      show Follows _ _ (Basis.row b.toBooking) (Prog.bind (assertConfirmed _ _) _)
      refine assertConfirmed_follows (fun _ => ?_) fun _ => trivial
      refine (assertWithinNoticeWindow_still hR _ _ _).bind_follows (fun _ => ?_) fun _ => trivial
      refine (SettingsService.get_still hR _).bind_follows (fun settings => ?_) fun _ => trivial
      refine (parseStartAt_still hR _ _).bind_follows (fun startAt => ?_) fun _ => trivial
      refine (assertSameCalendarDay_still _ _ _ _).bind_follows (fun _ => ?_) fun _ => trivial
      refine reserve_follows hs (.move rfl (by dsimp only [Booking.length]; omega)) _ fun updated => ?_
      exact of_still (.bind (dropMeetLink_scope _) fun _ => .bind (enqueue_scope _ _) fun _ => .pure)

theorem body_follows (call : Call) : (call.body P).Follows protocol (fun _ _ => True) .nothing := by
  cases call with
  | create dto originUrl => exact .seq (create_follows _ _) fun _ _ => trivial
  | rescheduleByClient token newStartAt => exact .seq (rescheduleByClient_follows _ _) fun _ _ => trivial
  | cancelByClient token reason => exact of_scope (Call.body_scope (.cancelByClient token reason))
  | cancelByCoach coach bookingId reason => exact of_scope (Call.body_scope (.cancelByCoach coach bookingId reason))
  | work job => exact of_scope (Call.body_scope (.work job))

theorem typeFound_of_type {past : List (Event Ans Failure)} {eventType : EventType}
    (h : past.foldl next .nothing = .type eventType) : typeFound past = some eventType := by
  have stay : ∀ (s : Basis) (l : List (Event Ans Failure)), s ≠ .nothing → l.foldl next s = s := by
    intro s l hs
    induction l with
    | nil => rfl
    | cons e l ih => rw [List.foldl_cons, next_of_ne hs, ih]
  induction past with
  | nil => cases h
  | cons e past ih =>
      rw [List.foldl_cons] at h
      rw [typeFound, List.findSome?_cons]
      cases ht : readType e with
      | some eventType' =>
          rw [show next .nothing e = .type eventType' by simp [next, ht], stay (.type eventType') _ nofun] at h
          cases h; rfl
      | none =>
          cases hr : readRow e with
          | some b =>
              rw [show next .nothing e = .row b by simp [next, ht, hr], stay (.row b) _ nofun] at h
              cases h
          | none =>
              rw [show next .nothing e = .nothing by simp [next, ht, hr]] at h
              exact ih h

end Basis

/-! ## Rows keep their length -/

/-- The length of a booking, its event type and its coach. -/
structure SameLength (b b' : Booking) : Prop where
  length : b'.length = b.length
  eventTypeId : b'.eventTypeId = b.eventTypeId
  coachId : b'.coachId = b.coachId

theorem SameLength.refl (b : Booking) : SameLength b b := ⟨rfl, rfl, rfl⟩

theorem SameLength.trans {b b' b'' : Booking} (h : SameLength b b') (h' : SameLength b' b'') : SameLength b b'' :=
  ⟨h'.length.trans h.length, h'.eventTypeId.trans h.eventTypeId, h'.coachId.trans h.coachId⟩

/-- A booking as a call creates it from an event type. -/
structure OfType (eventType : EventType) (b : Booking) : Prop where
  length : b.length = eventType.durationMinutes * msPerMinute
  eventTypeId : b.eventTypeId = eventType.id
  coachId : b.coachId = eventType.coachId

theorem OfType.of_same {eventType : EventType} {b b' : Booking} (h : OfType eventType b) (hs : SameLength b b') :
    OfType eventType b' :=
  ⟨hs.length.trans h.length, hs.eventTypeId.trans h.eventTypeId, hs.coachId.trans h.coachId⟩

/-- What the calls go by, the rows and the log agree. -/
structure Based (w : World) (log : List BookingEntry) (φ : Nat → Basis) : Prop where
  /-- The row that a call goes by is in the table and has kept its length. -/
  row : ∀ i b, φ i = .row b → ∃ b', w.db.bookings.find b.id = some b' ∧ SameLength b b'
  /-- A row that a call has created is one of the event type that the call goes by. -/
  created : ∀ e ∈ log, ∀ id, bookingCreated e = some id → ∃ eventType b,
    φ e.tid = .type eventType ∧ w.db.bookings.find id = some b ∧ OfType eventType b
  all : ∀ b ∈ w.db.bookings, ∃ e ∈ log, bookingCreated e = some b.id

section Fire

variable {φ : Nat → Basis}

theorem Based.sameLength (h : Based w log φ) (ha : Basis.protocol.allowed (φ i) o) (hx : exec w o ch = (r, w'))
    {id : String} {b : Booking} (hb : w.db.bookings.find id = some b) :
    ∃ b', w'.db.bookings.find id = some b' ∧ SameLength b b' := by
  rcases exec_row hx hb with hf | ⟨patch, b₁, _, hf⟩ | ⟨tx, b₁, he, hw, hf⟩
  · exact ⟨b, hf, .refl b⟩
  · exact ⟨_, hf, ⟨rfl, rfl, rfl⟩⟩
  · refine ⟨_, hf, ?_, rfl, rfl⟩
    cases he
    generalize hs : φ i = s at ha
    cases ha with
    | create hw' _ _ _ => cases hw.symm.trans hw'
    | @move b₀ _ hw' hl =>
        cases hw.symm.trans hw'
        -- the row that the call read still has the length that it read
        obtain ⟨b', hb', hsame⟩ := h.row i b₀ hs
        cases hb.symm.trans hb'
        exact hl.trans hsame.length.symm

theorem exec_bookingCreated {id : String} (hx : exec w o ch = (r, w'))
    (hc : bookingCreated ⟨⟨o, r⟩, i⟩ = some id) : ∃ tx data manageToken, o = .transaction tx ∧
      tx.write = .create data ∧ w'.db.bookings.find id = some (data.toBooking id manageToken) := by
  unfold bookingCreated at hc
  split at hc
  · rename_i tx b _ he
    cases he
    split at hc
    · rename_i data hw
      cases hc
      rcases exec_transaction hx with ⟨e, he, _⟩ | ⟨d, _, _, b', he, hcom⟩
      · cases he
      · cases he
        have hfind := hcom.find
        cases hcom with
        | create hw' _ =>
            cases hw.symm.trans hw'
            exact ⟨tx, data, _, rfl, hw, hfind⟩
        | move hw' _ => cases hw.symm.trans hw'
    · cases hc
  · cases hc

theorem exec_new {b : Booking} (hx : exec w o ch = (r, w')) (hb : b ∈ w'.db.bookings) :
    (∃ b₀ ∈ w.db.bookings, b₀.id = b.id) ∨ bookingCreated ⟨⟨o, r⟩, i⟩ = some b.id := by
  cases ho : o.writes with
  | false => rw [(exec_frame ho hx).1] at hb; exact .inl ⟨b, hb, rfl⟩
  | true =>
      cases o with
      | transaction tx =>
          rcases exec_transaction hx with ⟨e, rfl, rfl⟩ | ⟨d, _, _, b₁, rfl, hc⟩
          · exact .inl ⟨b, hb, rfl⟩
          cases hc with
          | create hw hi =>
              rcases (Table.mem_insert hi).mp hb with hb | rfl
              · exact .inl ⟨b, hb, rfl⟩
              · exact .inr (by simp [bookingCreated, hw])
          | move _ _ =>
              obtain ⟨b', hb', rfl⟩ := (Table.mem_update (moveTo_id tx.startAt tx.endAt)).mp hb
              exact .inl ⟨b', hb', by split <;> rfl⟩
      | bookingUpdate id patch =>
          rcases exec_bookingUpdate hx with ⟨e, rfl, rfl⟩ | ⟨_, _, rfl, rfl⟩
          · exact .inl ⟨b, hb, rfl⟩
          obtain ⟨b', hb', rfl⟩ := (Table.mem_update patch.apply_id).mp hb
          exact .inl ⟨b', hb', by split <;> rfl⟩
      | _ => cases ho

theorem Basis.next_row {s : Basis} {e : Event Ans Failure} {b : Booking} (h : s.next e = .row b) :
    s = .row b ∨ readRow e = some b := by
  unfold Basis.next at h
  split at h
  · split at h
    · cases h
    · cases h; exact .inr ‹_›
    · cases h
  · exact .inl h

theorem Based.fire (h : Based w log φ) (ha : Basis.protocol.allowed (φ i) o) (hx : exec w o ch = (r, w')) :
    Based w' (log ++ [⟨⟨o, r⟩, i⟩]) (Function.update φ i ((φ i).next ⟨o, r⟩)) := by
  refine ⟨fun j b hj => ?_, fun e he id hid => ?_, fun b hb => ?_⟩
  · have keep : φ j = .row b → ∃ b', w'.db.bookings.find b.id = some b' ∧ SameLength b b' := by
      intro hj
      obtain ⟨b', hf, hs⟩ := h.row j b hj
      obtain ⟨b'', hf', hs'⟩ := h.sameLength ha hx hf
      exact ⟨b'', hf', hs.trans hs'⟩
    by_cases hij : j = i
    · subst hij
      rw [Function.update_self] at hj
      rcases Basis.next_row hj with hj | hr
      · exact keep hj
      · obtain ⟨rfl, hf⟩ := exec_readRow hx hr
        exact ⟨b, hf, .refl b⟩
    · rw [Function.update_of_ne hij] at hj
      exact keep hj
  · rcases List.mem_append.mp he with he | he
    · obtain ⟨eventType, b, ht, hf, hof⟩ := h.created e he id hid
      obtain ⟨b', hf', hs⟩ := h.sameLength ha hx hf
      refine ⟨eventType, b', ?_, hf', hof.of_same hs⟩
      by_cases hi : e.tid = i
      · rw [hi] at ht ⊢
        rw [Function.update_self, ht]
        rfl
      · rwa [Function.update_of_ne hi]
    · cases List.mem_singleton.mp he
      obtain ⟨tx, data, manageToken, rfl, hw, hf⟩ := exec_bookingCreated hx hid
      change (φ i).Permits tx at ha
      generalize hs : φ i = s at ha
      cases ha with
      | @create eventType _ _ hw' ht hco hd =>
          cases hw.symm.trans hw'
          exact ⟨eventType, _, by rw [Function.update_self]; rfl, hf, hd, ht, hco⟩
      | move hw' _ => cases hw.symm.trans hw'
  · rcases exec_new (i := i) hx hb with ⟨b₀, hb₀, hid⟩ | hc
    · obtain ⟨e, he, hc⟩ := h.all b₀ hb₀
      exact ⟨e, List.mem_append_left _ he, hid ▸ hc⟩
    · exact ⟨_, List.mem_append_right _ (List.mem_singleton_self _), hc⟩

end Fire

/-! ## Runs -/

theorem Based.of_bookings {φ : Nat → Basis} (h : Based w log φ) (hb : w'.db.bookings = w.db.bookings) :
    Based w' log φ := by
  obtain ⟨h₁, h₂, h₃⟩ := h
  constructor
  · rwa [hb]
  · rwa [hb]
  · rwa [hb]

theorem Based.start (h : w.Fresh) : Based w [] fun _ => .nothing := by
  refine ⟨fun i b hb => ?_, fun e he => ?_, fun b hb => ?_⟩
  · cases hb
  · cases he
  · rw [h.bookings] at hb
    exact absurd hb Table.not_mem_empty

theorem run_based (h₀ : w.Fresh) (h : (bookingSystem P).Run G (.start w) c) :
    Based c.world c.log (phase Basis.next .nothing c) := by
  refine Run.tracked (R := fun _ => Basis.protocol) (I := Based) .refl h (fun _ => rfl) Basis.body_follows
    (fun _ _ _ _ => trivial) ?_ (fun call w w' log φ hi ha => ?_) (fun d w log φ hi => ?_)
    fun c i call o k ch r w' hi _ ha hx _ => hi.fire ha hx
  · exact .start h₀
  · obtain ⟨jobs, rfl⟩ := Call.accept_jobs ha
    exact hi.of_bookings rfl
  · exact hi.of_bookings d.apply_bookings

/-- A booking has been created by a call, from the event type that the call found, and keeps its length. -/
theorem run_ofType (h₀ : w.Fresh) (h : (bookingSystem P).Run G (.start w) c) {b : Booking}
    (hb : b ∈ c.world.db.bookings) : (∃ i eventType, CreatedFrom c i eventType b.id) ∧
      ∀ i eventType, CreatedFrom c i eventType b.id → OfType eventType b := by
  have hbased := run_based h₀ h
  have key : ∀ e ∈ c.log, bookingCreated e = some b.id → ∃ eventType,
      typeFound (c.past e.tid) = some eventType ∧ OfType eventType b := by
    intro e he hc
    obtain ⟨eventType, b', ht, hf, hof⟩ := hbased.created e he b.id hc
    cases (Table.find_some.mpr ⟨hb, rfl⟩).symm.trans hf
    exact ⟨eventType, Basis.typeFound_of_type ht, hof⟩
  constructor
  · obtain ⟨e, he, hc⟩ := hbased.all b hb
    obtain ⟨eventType, ht, _⟩ := key e he hc
    exact ⟨e.tid, eventType, ht, e, he, rfl, hc⟩
  · rintro i eventType ⟨hfound, e, he, rfl, hc⟩
    obtain ⟨eventType', ht, hof⟩ := key e he hc
    cases ht.symm.trans hfound
    exact hof

end CoachingCalendar
