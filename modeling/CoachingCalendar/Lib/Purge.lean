import CoachingCalendar.Lib.Pool

/-!
# Calls that others do not disturb

A run is compared with the run of some of its calls alone. The calls that are left out change nothing that the others
can tell, and an answer that differs between the two runs leads to the same rest of the program.
-/

namespace List

variable {α : Type} {p : α → Bool} {l : List α} {i : Nat} {x y : α}

theorem filter_set_of_pos (hi : l[i]? = some x) (hx : p x = true) (hy : p y = true) :
    ∃ j : Nat, (l.filter p)[j]? = some x ∧ (l.set i y).filter p = (l.filter p).set j y := by
  induction l generalizing i with
  | nil => cases hi
  | cons z l ih =>
      cases i with
      | zero =>
          cases hi
          exact ⟨0, by simp [hx], by simp [hx, hy]⟩
      | succ i =>
          obtain ⟨j, hj, hset⟩ := ih hi
          cases hz : p z with
          | true => exact ⟨j + 1, by simpa [hz] using hj, by simp [hz, hset]⟩
          | false => exact ⟨j, by simpa [hz] using hj, by simp [hz, hset]⟩

theorem filter_set_of_neg (hi : l[i]? = some x) (hx : p x = false) (hy : p y = false) :
    (l.set i y).filter p = l.filter p := by
  induction l generalizing i with
  | nil => cases hi
  | cons z l ih =>
      cases i with
      | zero =>
          cases hi
          simp [hx, hy]
      | succ i => simp [filter_cons, ih hi]

end List

namespace Lib

variable {Op : Type} {Ans : Op → Type} {ε α β World Choice Call Drift : Type}

/-! ## Programs that cannot tell answers apart -/

namespace Prog

variable {same : (o : Op) → Except ε (Ans o) → Except ε (Ans o) → Prop}

/-- Answers that are `same` lead to the same rest of the program. -/
def Blind (same : (o : Op) → Except ε (Ans o) → Except ε (Ans o) → Prop) : Prog Ans ε α → Prop
  | .pure _ | .throw _ => True
  | .op o k => (∀ r r', same o r r' → k r = k r') ∧ ∀ r, (k r).Blind same

namespace Blind

theorem bind {p : Prog Ans ε α} {f : α → Prog Ans ε β} (hp : p.Blind same) (hf : ∀ a, (f a).Blind same) :
    (p.bind f).Blind same := by
  induction p with
  | pure a => exact hf a
  | throw e => exact trivial
  | op o k ih => exact ⟨fun r r' h => congrArg (Prog.bind · f) (hp.1 r r' h), fun r => ih r (hp.2 r)⟩

theorem orElse {p : Prog Ans ε α} {f : ε → Prog Ans ε α} (hp : p.Blind same) (hf : ∀ e, (f e).Blind same) :
    (p.orElse f).Blind same := by
  induction p with
  | pure a => exact trivial
  | throw e => exact hf e
  | op o k ih => exact ⟨fun r r' h => congrArg (Prog.orElse · f) (hp.1 r r' h), fun r => ih r (hp.2 r)⟩

/-- An operation whose answers are only the same when they are equal. -/
theorem perform {o : Op} (h : ∀ r r', same o r r' → r = r') : (Prog.perform o : Prog Ans ε _).Blind same := by
  refine ⟨fun r r' hr => by rw [h r r' hr], fun r => ?_⟩
  cases r <;> exact trivial

theorem checked {o : Op} {f : Ans o → Prog Ans ε β} (hsame : ∀ r r', same o r r' →
      (match r with | .ok a => f a | .error e => .throw e) = match r' with | .ok a => f a | .error e => .throw e)
    (hf : ∀ a, (f a).Blind same) : ((Prog.perform o).bind f).Blind same := by
  refine ⟨fun r r' hr => ?_, fun r => ?_⟩
  · have := hsame r r' hr
    cases r <;> cases r' <;> exact this
  · cases r with
    | ok a => exact hf a
    | error e => exact trivial

end Blind

end Prog

/-! ## Runs without the other calls -/

/-- The calls in question, with what is left of them. -/
def Config.only (c : Config Ans ε α World Call) (mine : Call → Bool) : List (Thread Ans ε α Call) :=
  c.threads.filter fun th => mine th.call

namespace System

variable {S : System Ans ε α World Choice Call Drift} {G : Guard Ans ε α World Call} {w₁ w₂ : World}
variable {mine : Call → Bool} {K : World → List (Logged Ans ε) → World → List (Logged Ans ε) → Prop}

/-- What is left of the calls of a run cannot tell apart what their programs cannot. -/
theorem Run.blind {same : Call → (o : Op) → Except ε (Ans o) → Except ε (Ans o) → Prop} {c : Config Ans ε α World Call}
    (h : S.Run G (.start w₁) c) (hbody : ∀ call, G.call call → (S.body call).Blind (same call)) :
    ∀ th ∈ c.threads, G.call th.call ∧ th.prog.Blind (same th.call) := by
  refine h.invariant (I := fun c => ∀ th ∈ c.threads, G.call th.call ∧ th.prog.Blind (same th.call))
    (fun _ hth => absurd hth List.not_mem_nil) fun c c' hc hs th hth => ?_
  cases hs with
  | spawn hg _ =>
      rcases List.mem_append.mp hth with hth | hth
      · exact hc th hth
      · obtain rfl := List.mem_singleton.mp hth
        exact ⟨hg, hbody _ hg⟩
  | fire hi _ _ =>
      obtain ⟨hg, hblind⟩ := hc _ (List.mem_of_getElem? hi)
      rcases List.mem_or_eq_of_mem_set hth with hth | rfl
      · exact hc th hth
      · exact ⟨hg, hblind.2 _⟩
  | drift _ => exact hc th hth

/-- `K` relates the run to the run of the calls in question alone. -/
structure Unwinds (S : System Ans ε α World Choice Call Drift) (G : Guard Ans ε α World Call) (w₁ w₂ : World)
    (mine : Call → Bool) (K : World → List (Logged Ans ε) → World → List (Logged Ans ε) → Prop) : Prop where
  start : K w₁ [] w₂ []
  spawn : ∀ {call u₁ l₁ u₂ l₂ v₁}, K u₁ l₁ u₂ l₂ → mine call = true → S.accept call u₁ = some v₁ →
    ∃ v₂, S.accept call u₂ = some v₂ ∧ K v₁ l₁ v₂ l₂
  spawnOther : ∀ {call u₁ l₁ u₂ l₂ v₁}, K u₁ l₁ u₂ l₂ → mine call = false → S.accept call u₁ = some v₁ → K v₁ l₁ u₂ l₂
  drift : ∀ {d u₁ l₁ u₂ l₂}, K u₁ l₁ u₂ l₂ → K (S.drift d u₁) l₁ (S.drift d u₂) l₂
  fire : ∀ {c₁ c₂ i j call o k ch r v₁}, S.Run G (.start w₁) c₁ → S.Run G (.start w₂) c₂ →
    K c₁.world c₁.log c₂.world c₂.log → mine call = true → c₁.threads[i]? = some ⟨call, .op o k⟩ →
    c₂.threads[j]? = some ⟨call, .op o k⟩ → S.exec c₁.world o ch = (r, v₁) → G.event c₁ ⟨⟨o, r⟩, i⟩ →
    ∃ r' v₂, S.exec c₂.world o ch = (r', v₂) ∧ G.event c₂ ⟨⟨o, r'⟩, j⟩ ∧ k r = k r' ∧
      K v₁ (c₁.log ++ [⟨⟨o, r⟩, i⟩]) v₂ (c₂.log ++ [⟨⟨o, r'⟩, j⟩])
  fireOther : ∀ {c₁ i call o k ch r v₁ u₂ l₂}, S.Run G (.start w₁) c₁ → K c₁.world c₁.log u₂ l₂ →
    mine call = false → c₁.threads[i]? = some ⟨call, .op o k⟩ → S.exec c₁.world o ch = (r, v₁) →
    G.event c₁ ⟨⟨o, r⟩, i⟩ → K v₁ (c₁.log ++ [⟨⟨o, r⟩, i⟩]) u₂ l₂

/-- The calls in question run alone as they do among the others. -/
theorem Run.purged {c₁ : Config Ans ε α World Call} (h : S.Run G (.start w₁) c₁) (hU : Unwinds S G w₁ w₂ mine K) :
    ∃ c₂, S.Run G (.start w₂) c₂ ∧ c₂.threads = c₁.only mine ∧ K c₁.world c₁.log c₂.world c₂.log := by
  induction h with
  | refl => exact ⟨.start w₂, .refl, rfl, hU.start⟩
  | @tail c₁ _ hrun hs ih =>
      obtain ⟨c₂, hrun₂, hth, hK⟩ := ih
      cases hs with
      | @spawn call v₁ hc ha =>
          cases hm : mine call with
          | true =>
              obtain ⟨v₂, ha₂, hK'⟩ := hU.spawn hK hm ha
              refine ⟨_, hrun₂.tail (.spawn hc ha₂), ?_, hK'⟩
              simp [Config.only, hth, hm]
          | false =>
              refine ⟨c₂, hrun₂, ?_, hU.spawnOther hK hm ha⟩
              simp [Config.only, hth, hm]
      | @fire i call o k ch r v₁ hi hx he =>
          cases hm : mine call with
          | true =>
              obtain ⟨j, hj, hset⟩ := List.filter_set_of_pos (p := fun th => mine th.call) (y := ⟨call, k r⟩) hi hm hm
              rw [← Config.only, ← hth] at hj
              obtain ⟨r', v₂, hx₂, he₂, hk, hK'⟩ := hU.fire hrun hrun₂ hK hm hi hj hx he
              refine ⟨_, hrun₂.tail (.fire hj hx₂ he₂), ?_, hK'⟩
              rw [Config.only, hset, ← Config.only, ← hth, hk]
          | false =>
              refine ⟨c₂, hrun₂, ?_, hU.fireOther hrun hK hm hi hx he⟩
              rw [Config.only, List.filter_set_of_neg hi hm hm, ← Config.only, hth]
      | drift d => exact ⟨_, hrun₂.tail (.drift d), hth, hU.drift hK⟩

end System

end Lib
