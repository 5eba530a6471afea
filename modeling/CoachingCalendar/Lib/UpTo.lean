import CoachingCalendar.Lib.Prog

/-!
# Programs up to a point

`stop` looks for an answer. `upTo` runs a program until it gets that answer, and `Continues` says how the program goes
on from there.
-/

namespace Lib.Prog

variable {Op : Type} {Ans : Op → Type} {ε α β γ : Type} {stop : (o : Op) → Except ε (Ans o) → Option β}

/-- The program until an answer in which `stop` finds something, with what it finds. -/
def upTo (stop : (o : Op) → Except ε (Ans o) → Option β) : Prog Ans ε α → Prog Ans ε (Option β)
  | .pure _ => .pure none
  | .throw e => .throw e
  | .op o k => .op o fun r => (stop o r).elim ((k r).upTo stop) fun b => .pure (some b)

/-- The program goes on as `f` from the answer in which `stop` finds something, and does not end well without one. -/
def Continues (stop : (o : Op) → Except ε (Ans o) → Option β) (f : β → Prog Ans ε α) : Prog Ans ε α → Prop
  | .pure _ => False
  | .throw _ => True
  | .op o k => ∀ r, (∀ b, stop o r = some b → k r = f b) ∧ (stop o r = none → (k r).Continues stop f)

/-- No answer stops the program. -/
def Passes (stop : (o : Op) → Except ε (Ans o) → Option β) : Prog Ans ε α → Prop
  | .pure _ | .throw _ => True
  | .op o k => ∀ r, stop o r = none ∧ (k r).Passes stop

theorem Follows.passes {σ : Type} {R : Protocol Ans ε σ} {s : σ} {final : σ → Except ε α → Prop} {p : Prog Ans ε α}
    (h : p.Follows R final s) (hans : ∀ o r, R.answers o r) (hstop : ∀ s o, R.allowed s o → ∀ r, stop o r = none) :
    p.Passes stop := by
  induction p generalizing s with
  | pure a => exact trivial
  | throw e => exact trivial
  | op o k ih => exact fun r => ⟨hstop s o h.1 r, ih r (h.2 r (hans o r))⟩

theorem Passes.upTo_bind {p : Prog Ans ε α} (h : p.Passes stop) (g : α → Prog Ans ε γ) :
    (p.bind g).upTo stop = p.bind fun a => (g a).upTo stop := by
  induction p with
  | pure a => rfl
  | throw e => rfl
  | op o k ih =>
      refine congrArg (Prog.op o) (funext fun r => ?_)
      rw [(h r).1]
      exact ih r (h r).2

theorem Passes.continues_bind {p : Prog Ans ε α} {f : β → Prog Ans ε γ} (h : p.Passes stop) {g : α → Prog Ans ε γ}
    (hg : ∀ a, (g a).Continues stop f) : (p.bind g).Continues stop f := by
  induction p with
  | pure a => exact hg a
  | throw e => exact trivial
  | op o k ih =>
      refine fun r => ⟨fun b hb => ?_, fun _ => ih r (h r).2⟩
      rw [(h r).1] at hb
      cases hb

namespace Continues

variable {f : β → Prog Ans ε α} {p : Prog Ans ε α}

theorem bind (h : p.Continues stop f) (g : α → Prog Ans ε γ) :
    (p.bind g).Continues stop fun b => (f b).bind g := by
  induction p with
  | pure a => cases h
  | throw e => exact trivial
  | op o k ih => exact fun r => ⟨fun b hb => congrArg (·.bind g) ((h r).1 b hb), fun hn => ih r ((h r).2 hn)⟩

theorem upTo_bind (h : p.Continues stop f) (g : α → Prog Ans ε γ) : (p.bind g).upTo stop = p.upTo stop := by
  induction p with
  | pure a => cases h
  | throw e => rfl
  | op o k ih =>
      refine congrArg (Prog.op o) (funext fun r => ?_)
      cases hr : stop o r with
      | none => exact ih r ((h r).2 hr)
      | some b => rfl

theorem perform {o : Op} {f : β → Prog Ans ε (Ans o)} (hok : ∀ a b, stop o (.ok a) = some b → .pure a = f b)
    (hsome : ∀ a, stop o (.ok a) ≠ none) (herr : ∀ e, stop o (.error e) = none) :
    (Prog.perform o).Continues stop f := by
  intro r
  cases r with
  | ok a => exact ⟨fun b hb => hok a b hb, fun hn => absurd hn (hsome a)⟩
  | error e => exact ⟨fun b hb => absurd ((herr e).symm.trans hb) (by simp), fun _ => trivial⟩

/-- `try p catch h`, where both return what is found. -/
theorem orElse {p : Prog Ans ε β} {h : ε → Prog Ans ε β} (hp : p.Continues stop .pure)
    (hh : ∀ e, (h e).Continues stop .pure) : (p.orElse h).Continues stop .pure := by
  induction p with
  | pure a => cases hp
  | throw e => exact hh e
  | op o k ih => exact fun r => ⟨fun b hb => congrArg (·.orElse h) ((hp r).1 b hb), fun hn => ih r ((hp r).2 hn)⟩

theorem upTo_eq {p : Prog Ans ε β} (h : p.Continues stop .pure) : p.upTo stop = p.bind fun b => .pure (some b) := by
  induction p with
  | pure a => cases h
  | throw e => rfl
  | op o k ih =>
      refine congrArg (Prog.op o) (funext fun r => ?_)
      cases hr : stop o r with
      | none => exact ih r ((h r).2 hr)
      | some b => exact congrArg (·.bind fun b => .pure (some b)) ((h r).1 b hr).symm

/-- A run is one up to the point, and then one of what comes after it. -/
theorem run {World Choice : Type} (h : p.Continues stop f)
    (exec : World → (o : Op) → Choice → Except ε (Ans o) × World) (env : List (Entry World Ans ε) → Choice)
    (w : World) (t : List (Entry World Ans ε)) :
    (∃ b w' t', (p.upTo stop).run exec env w t = ⟨.ok (some b), w', t'⟩ ∧
      p.run exec env w t = (f b).run exec env w' t') ∨
    ∃ e w' t', (p.upTo stop).run exec env w t = ⟨.error e, w', t'⟩ ∧ p.run exec env w t = ⟨.error e, w', t'⟩ := by
  induction p generalizing w t with
  | pure a => cases h
  | throw e => exact .inr ⟨e, w, t, rfl, rfl⟩
  | op o k ih =>
      obtain ⟨hsome, hnone⟩ := h (exec w o (env t)).1
      simp only [upTo, Prog.run]
      cases hr : stop o (exec w o (env t)).1 with
      | none => exact ih _ (hnone hr) _ _
      | some b => exact .inl ⟨b, _, _, rfl, by rw [hsome b hr]⟩

end Continues

section After

variable {World Choice : Type} (exec : World → (o : Op) → Choice → Except ε (Ans o) × World)
variable (env : List (Entry World Ans ε) → Choice) (s : World × List (Entry World Ans ε))

/-- The world and the trace after one more operation. -/
def after (o : Op) : World × List (Entry World Ans ε) :=
  ((exec s.1 o (env s.2)).2, s.2 ++ [⟨s.1, o, (exec s.1 o (env s.2)).1⟩])

variable {exec env s}

theorem run_perform_ok {o : Op} {a : Ans o} (h : (exec s.1 o (env s.2)).1 = .ok a) (f : Ans o → Prog Ans ε α) :
    ((Prog.perform o).bind f).run exec env s.1 s.2 = (f a).run exec env (after exec env s o).1 (after exec env s o).2 := by
  simp only [after, Prog.perform, Prog.bind, Prog.run]
  generalize exec s.1 o (env s.2) = x at h ⊢
  obtain ⟨_, w'⟩ := x
  cases h
  rfl

theorem run_perform_error {o : Op} {e : ε} (h : (exec s.1 o (env s.2)).1 = .error e) (f : Ans o → Prog Ans ε α) :
    ((Prog.perform o).bind f).run exec env s.1 s.2 = ⟨.error e, (after exec env s o).1, (after exec env s o).2⟩ := by
  simp only [after, Prog.perform, Prog.bind, Prog.run]
  generalize exec s.1 o (env s.2) = x at h ⊢
  obtain ⟨_, w'⟩ := x
  cases h
  rfl

/-- `try o catch {}`, and then the rest. -/
theorem run_swallow {o : Op} (a : Ans o) (q : Prog Ans ε α) :
    (((Prog.perform o).orElse fun _ => .pure a).bind fun _ => q).run exec env s.1 s.2 =
      q.run exec env (after exec env s o).1 (after exec env s o).2 := by
  simp only [after, Prog.perform, Prog.orElse, Prog.bind, Prog.run]
  generalize exec s.1 o (env s.2) = x
  obtain ⟨_ | _, w'⟩ := x <;> rfl

end After

end Lib.Prog
