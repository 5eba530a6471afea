import CoachingCalendar.Lib.License

/-!
# Where failures come from

A program fails with a failure of its own, or passes on one that an operation has answered.
-/

namespace Lib

variable {Op : Type} {Ans : Op → Type} {ε α β World Choice Call Drift : Type}

/-- The failure is one of the program's own, or an operation has answered with it. -/
def Blamed (own : ε → Prop) (past : List (Event Ans ε)) (e : ε) : Prop := own e ∨ ∃ ev ∈ past, ev.res = .error e

/-- It licenses everything. -/
def License.free : License Ans ε Call where
  answers _ _ := True
  permits _ _ _ := True
  mono _ h := h

namespace Prog

/-- After what has been done, it fails with failures of its own or with those of its operations. -/
def FailsWith (own : ε → Prop) (past : List (Event Ans ε)) (p : Prog Ans ε α) : Prop :=
  p.Follows Protocol.record (fun past' r => ∀ e, r = .error e → Blamed own past' e) past

namespace FailsWith

variable {own : ε → Prop} {past : List (Event Ans ε)}

theorem pure {a : α} : (Prog.pure a : Prog Ans ε α).FailsWith own past := fun _ he => by cases he

theorem throw {e : ε} (h : Blamed own past e) : (Prog.throw e : Prog Ans ε α).FailsWith own past := fun _ he => by
  cases he
  exact h

theorem perform {o : Op} : (Prog.perform o : Prog Ans ε (Ans o)).FailsWith own past :=
  follows_perform.mpr ⟨trivial, fun _ _ _ he => .inr ⟨_, List.mem_concat_self, he⟩⟩

theorem bind {p : Prog Ans ε α} {f : α → Prog Ans ε β} (hp : p.FailsWith own past)
    (hf : ∀ past a, (f a).FailsWith own past) : (p.bind f).FailsWith own past := by
  rw [FailsWith, follows_bind]
  refine hp.mono fun past' r hr => ?_
  cases r with
  | ok a => exact hf past' a
  | error e =>
      intro e' he
      cases he
      exact hr e rfl

theorem orElse {p : Prog Ans ε α} {h : ε → Prog Ans ε α} (hp : p.FailsWith own past)
    (hh : ∀ past e, Blamed own past e → (h e).FailsWith own past) : (p.orElse h).FailsWith own past := by
  rw [FailsWith, follows_orElse]
  refine hp.mono fun past' r hr => ?_
  cases r with
  | ok a => exact fun _ he => by cases he
  | error e => exact hh past' e (hr e rfl)

end FailsWith

end Prog

namespace System

variable {S : System Ans ε α World Choice Call Drift} {G : Guard Ans ε α World Call} {w : World}
variable {c : Config Ans ε α World Call} {own : ε → Prop} {i : Nat} {call : Call} {e : ε}

/-- Whatever else runs, a call ends with a failure of its own or one that an operation has answered it with. -/
theorem Run.blamed (h : S.Run G (.start w) c) (hp : (S.body call).FailsWith own []) (he : c.Ended i call (.error e)) :
    own e ∨ ∃ l ∈ c.log, l.tid = i ∧ l.res = .error e := by
  have hS : S.Licensed License.free fun call past r =>
      (S.body call).FailsWith own [] → ∀ e, r = .error e → Blamed own past e := by
    refine ⟨fun call => ?_, fun _ _ _ => trivial⟩
    by_cases hc : (S.body call).FailsWith own []
    · exact Prog.Follows.mono hc fun _ _ hr _ => hr
    · exact (Prog.Follows.of_allowed (fun _ _ => trivial) _).mono fun _ _ _ h => absurd h hc
  rcases hS.ended h he hp e rfl with ho | ⟨ev, hev, hr⟩
  · exact .inl ho
  · obtain ⟨l, hl, hi, rfl⟩ := mem_past.mp hev
    exact .inr ⟨l, hl, hi, hr⟩

end System

end Lib
