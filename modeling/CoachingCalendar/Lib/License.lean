import CoachingCalendar.Lib.Pool

/-!
# Licences

A licence says which operations a call may issue after what it has done. A call that has done more may do no less, so
the operations of a run are licensed for good.
-/

namespace Lib

variable {Op : Type} {Ans : Op → Type} {ε α World Choice Call Drift : Type}

structure License (Ans : Op → Type) (ε Call : Type) where
  answers : (o : Op) → Except ε (Ans o) → Prop
  permits : Call → List (Event Ans ε) → Op → Prop
  mono : ∀ {call past past' o}, past ⊆ past' → permits call past o → permits call past' o

namespace License

/-- The protocol of a call that keeps to the licence. -/
def protocol (L : License Ans ε Call) (call : Call) : Protocol Ans ε (List (Event Ans ε)) where
  answers := L.answers
  next := Protocol.record.next
  allowed := L.permits call

@[simp] theorem protocol_next (L : License Ans ε Call) (call : Call) (past : List (Event Ans ε)) (e : Event Ans ε) :
    (L.protocol call).next past e = past ++ [e] := rfl

theorem grows {L : License Ans ε Call} {call : Call} {p : Prog Ans ε α} {past : List (Event Ans ε)}
    {final : List (Event Ans ε) → Except ε α → Prop} (h : p.Follows (L.protocol call) final past) :
    p.Follows (L.protocol call) (fun past' r => past ⊆ past' ∧ final past' r) past := by
  induction p generalizing past with
  | pure _ | throw _ => exact ⟨List.Subset.refl _, h⟩
  | op o k ih =>
      refine ⟨h.1, fun r hr => (ih r (h.2 r hr)).mono fun past' _ hp => ⟨?_, hp.2⟩⟩
      exact List.Subset.trans (List.subset_append_left ..) hp.1

end License

namespace System

/-- Every call keeps to the licence, and ends as `final` says. -/
structure Licensed (S : System Ans ε α World Choice Call Drift) (L : License Ans ε Call)
    (final : Call → List (Event Ans ε) → Except ε α → Prop) : Prop where
  body : ∀ call, (S.body call).Follows (L.protocol call) (final call) []
  answers : ∀ w o ch, L.answers o (S.exec w o ch).1

variable {S : System Ans ε α World Choice Call Drift} {G : Guard Ans ε α World Call} {L : License Ans ε Call}
variable {final : Call → List (Event Ans ε) → Except ε α → Prop} {w : World} {c c' : Config Ans ε α World Call}

theorem Run.past_subset (h : S.Run G c c') (i : Nat) : c.past i ⊆ c'.past i :=
  (h.log_grows.sublist.filterMap _).subset

theorem Run.callOf (h : S.Run G c c') {i : Nat} {call : Call} (hi : c.callOf i = some call) :
    c'.callOf i = some call := by
  induction h with
  | refl => exact hi
  | tail _ hs ih => exact hs.callOf ih

namespace Licensed

variable (hS : S.Licensed L final) (h : S.Run G (.start w) c)

include hS h

/-- What a call still has to do keeps to the licence. -/
theorem follows {i : Nat} {th : Thread Ans ε α Call} (hi : c.threads[i]? = some th) :
    th.prog.Follows (L.protocol th.call) (final th.call) (c.past i) :=
  h.follows_past (R := L.protocol) (fun _ => rfl) hS.body (fun _ => hS.answers) hi

theorem ended {i : Nat} {call : Call} {r : Except ε α} (hi : c.Ended i call r) : final call (c.past i) r := by
  have := hS.follows h hi
  cases r <;> exact this

theorem step (hs : S.Step G c c') {e : Event Ans ε} {i : Nat} (hl : c'.log = c.log ++ [⟨e, i⟩]) :
    ∃ call, c.callOf i = some call ∧ L.permits call (c.past i) e.op ∧ L.answers e.op e.res := by
  cases hs with
  | spawn _ _ => simp at hl
  | @fire j call o k ch r w' hi hx _ =>
      obtain ⟨rfl, rfl⟩ : (⟨o, r⟩ : Event Ans ε) = e ∧ j = i := by simpa using hl
      refine ⟨call, by rw [Config.callOf, hi]; rfl, (hS.follows h hi).1, ?_⟩
      have := hS.answers c.world o ch
      rwa [hx] at this
  | drift _ => simp at hl

/-- Every operation of a run is licensed. -/
theorem log : ∀ l ∈ c.log, ∃ call, c.callOf l.tid = some call ∧ L.permits call (c.past l.tid) l.op ∧
    L.answers l.op l.res := by
  intro l hl
  obtain ⟨c₁, c₂, hat⟩ := h.issued (t := c.log) (by simp [Config.start]) hl
  obtain ⟨call, hcall, hp, ha⟩ := hS.step hat.before hat.step hat.log
  have hrun : S.Run G c₁ c := (Run.tail .refl hat.step).trans hat.after
  exact ⟨call, hrun.callOf hcall, L.mono (hrun.past_subset _) hp, ha⟩

end Licensed

end System

end Lib
