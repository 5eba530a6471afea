import CoachingCalendar.Bookings.Service

/-!
# What requests share

The checks only read, and the transaction is issued until it commits or fails for good.
-/

namespace CoachingCalendar
open Lib Lib.Prog

/-- The operations that checks consist of. -/
def Op.checks : Op → Bool
  | .now | .eventTypeFindUnique _ | .coachFindUnique _ | .settingsUpsert _ | .overrideFindMany _ _
  | .weeklyFindMany _ _ => true
  | _ => false

variable {P : Platform} {σ α : Type} {R : Protocol Ans Failure σ} {s : σ}

/-- In state `s` the protocol allows the operations of checks and stays where it is. -/
def Ignores (R : Protocol Ans Failure σ) (s : σ) : Prop :=
  ∀ o, o.checks → R.allowed s o ∧ ∀ r, R.next s ⟨o, r⟩ = s

theorem Ignores.perform (hR : Ignores R s) {o : Op} (ho : o.checks = true) : (perform o).Still R s :=
  .perform (hR o ho).1 (hR o ho).2

theorem SettingsService.get_still (hR : Ignores R s) (coachId : String) :
    (SettingsService.get coachId).Still R s := by
  unfold SettingsService.get
  refine .bind (hR.perform rfl) fun coach => ?_
  dsimp only
  split
  · exact .throw
  · exact hR.perform rfl

theorem assertWithinNoticeWindow_still (hR : Ignores R s) (coachId : String) (startAt : Int) (locale : String) :
    (assertWithinNoticeWindow coachId startAt locale).Still R s := by
  unfold assertWithinNoticeWindow
  refine .bind (SettingsService.get_still hR coachId) fun settings => ?_
  refine .bind (hR.perform rfl) fun now => ?_
  split
  · exact .throw
  · exact .pure

theorem assertSameCalendarDay_still (startAt endAt : Int) (Z : Zone) (locale : String) :
    (assertSameCalendarDay startAt endAt Z locale).Still R s := by
  unfold assertSameCalendarDay
  split
  · exact .throw
  · exact .pure

theorem parseStartAt_still (hR : Ignores R s) (startAt locale : String) :
    (parseStartAt P startAt locale).Still R s := by
  unfold parseStartAt
  split
  · exact .throw
  · refine .bind (hR.perform rfl) fun now => ?_
    dsimp only
    split
    · exact .throw
    · exact .pure

theorem getEffectiveRangesForDate_still (hR : Ignores R s) (coachId : String) (isoDate : Int) (timezone : String) :
    (getEffectiveRangesForDate P coachId isoDate timezone).Still R s := by
  unfold getEffectiveRangesForDate
  refine .bind (hR.perform rfl) fun overrides => ?_
  dsimp only
  split
  · exact .pure
  · exact .bind (hR.perform rfl) fun weekly => .pure

theorem assertWithinSchedule_still (hR : Ignores R s) (coachId : String) (startAt endAt : Int) (timezone locale : String) :
    (assertWithinSchedule P coachId startAt endAt timezone locale).Still R s := by
  unfold assertWithinSchedule isWithinEffectiveRange
  refine .bind (.bind (getEffectiveRangesForDate_still hR _ _ _) fun ranges => .pure) fun within => ?_
  split
  · exact .throw
  · exact .pure

/-- What comes after the check knows that the row was confirmed. -/
theorem assertConfirmed_follows {status : BookingStatus} {locale : String} {f : Unit → BookingProg α}
    {final : σ → Except Failure α → Prop}
    (hf : status = .confirmed → (f ()).Follows R final s) (he : ∀ e, final s (.error e)) :
    ((assertConfirmed status locale).bind f).Follows R final s := by
  unfold assertConfirmed
  split
  · exact he _
  · rename_i hs
    exact hf (not_not.mp hs)

/-! ## Transactions -/

/-- An attempt that throws can be made again as long as `I` holds. -/
theorem runSerializableFrom_again {fn : BookingProg α} {I : σ → Prop} {Q : α → σ → Prop} (conflictMessage : String)
    (left : Nat) (h : ∀ s, I s → fn.Follows R (fun s' r => (∀ e, r = .error e → I s') ∧ ∀ a, r = .ok a → Q a s') s)
    (hs : I s) : (runSerializableFrom fn conflictMessage left).Follows R
      (fun s' r => (∀ e, r = .error e → I s') ∧ ∀ a, r = .ok a → Q a s') s := by
  induction left generalizing s with
  | zero => exact ⟨fun _ _ => hs, fun _ ha => by cases ha⟩
  | succ left ih =>
      unfold runSerializableFrom
      rw [tryCatch_eq, follows_orElse]
      refine (h s hs).mono fun s' r hr => ?_
      cases r with
      | ok a => exact hr
      | error e =>
          show Follows _ _ _ (ite _ _ _)
          split
          · exact ⟨fun _ _ => hr.1 e rfl, fun _ ha => by cases ha⟩
          · exact ih (hr.1 e rfl)

theorem runSerializableFrom_follows {fn : BookingProg α} {Q : α → σ → Prop} (conflictMessage : String) (left : Nat)
    (h : fn.Follows R (orStill s Q) s) : (runSerializableFrom fn conflictMessage left).Follows R (orStill s Q) s := by
  refine (runSerializableFrom_again (I := (· = s)) (Q := Q) _ _ (fun s' hs => ?_) rfl).mono fun s' r hr => ?_
  · subst hs
    refine h.mono fun s' r hr => ?_
    cases r with
    | ok a => exact ⟨fun _ he => (by cases he), fun _ ha => (by cases ha; exact hr)⟩
    | error e => exact ⟨fun _ _ => hr, fun _ ha => (by cases ha)⟩
  · cases r with
    | ok a => exact hr.2 a rfl
    | error e => exact hr.1 e rfl

/-- The end of a transaction: as before it when it throws. -/
def orBefore (I : World → Trace → Prop) (B : α → World → Trace → Prop) : Except Failure α → World → Trace → Prop
  | .ok a => B a
  | .error _ => I

theorem runSerializableFrom_spec {exec : World → (o : Op) → Choice → Except Failure (Ans o) × World}
    {I : World → Trace → Prop} {B : α → World → Trace → Prop} {fn : BookingProg α} (conflictMessage : String)
    (left : Nat) (h : Spec exec I fn (orBefore I B)) :
    Spec exec I (runSerializableFrom fn conflictMessage left) (orBefore I B) := by
  induction left with
  | zero => exact .throw fun _ _ hI => hI
  | succ left ih =>
      unfold runSerializableFrom
      rw [tryCatch_eq]
      refine .orElse h (fun e => ?_) fun _ _ _ h => h
      split
      · exact .throw fun _ _ hI => hI
      · exact ih

theorem reserveSlot_follows {tx : SlotTransaction} (hR : Ignores R s) (ha : R.allowed s (.transaction tx))
    (he : ∀ e, R.next s ⟨.transaction tx, .error e⟩ = s) (timezone : String) :
    (runSerializable (reserveSlot P tx timezone)).Follows R
      (orStill s fun b s' => s' = R.next s ⟨.transaction tx, .ok b⟩) s := by
  refine runSerializableFrom_follows _ _ ?_
  unfold reserveSlot
  refine (assertWithinSchedule_still hR _ _ _ _ _).bind_follows (fun _ => ?_) fun _ => rfl
  refine follows_perform.mpr ⟨ha, fun r _ => ?_⟩
  cases r with
  | ok b => rfl
  | error e => exact he e

end CoachingCalendar
