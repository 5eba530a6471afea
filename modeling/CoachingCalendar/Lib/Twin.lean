import CoachingCalendar.Lib.Prog

/-!
# Two runs of one program

`Twin` compares the runs of a program from two worlds in an environment that lets the `n`-th operation of both go
the same way. They have the same result, and end in related worlds.
-/

namespace Lib.Prog

variable {Op : Type} {Ans : Op → Type} {ε α β World Choice : Type}

/-- The program that ends with a result. -/
def ofResult : Except ε α → Prog Ans ε α
  | .ok a => .pure a
  | .error e => .throw e

/-- What the environment does is decided beforehand. -/
def decided (choices : Nat → Choice) (t : List (Entry World Ans ε)) : Choice := choices t.length

variable (exec : World → (o : Op) → Choice → Except ε (Ans o) × World) (choices : Nat → Choice)

/-- From worlds related by `pre`, the two runs have the same result and end in worlds related by `post`. -/
def Twin (pre : World → World → Prop) (p : Prog Ans ε α) (post : Except ε α → World → World → Prop) : Prop :=
  ∀ w₁ w₂ (t₁ t₂ : List (Entry World Ans ε)), t₁.length = t₂.length → pre w₁ w₂ →
    (p.run exec (decided choices) w₁ t₁).result = (p.run exec (decided choices) w₂ t₂).result ∧
    (p.run exec (decided choices) w₁ t₁).trace.length = (p.run exec (decided choices) w₂ t₂).trace.length ∧
    post (p.run exec (decided choices) w₁ t₁).result (p.run exec (decided choices) w₁ t₁).world
      (p.run exec (decided choices) w₂ t₂).world

namespace Twin

variable {exec choices} {pre pre' : World → World → Prop}

theorem pure {a : α} {post : Except ε α → World → World → Prop} (h : ∀ w₁ w₂, pre w₁ w₂ → post (.ok a) w₁ w₂) :
    Twin exec choices pre (.pure a) post := fun _ _ _ _ ht hp => ⟨rfl, ht, h _ _ hp⟩

theorem throw {e : ε} {post : Except ε α → World → World → Prop} (h : ∀ w₁ w₂, pre w₁ w₂ → post (.error e) w₁ w₂) :
    Twin exec choices pre (.throw e) post := fun _ _ _ _ ht hp => ⟨rfl, ht, h _ _ hp⟩

/-- An operation and a check of its answer. The two answers may differ when the check comes out the same. -/
theorem checked {o : Op} {f : Ans o → Except ε β} {post : Except ε β → World → World → Prop}
    (h : ∀ n w₁ w₂, pre w₁ w₂ → ((exec w₁ o (choices n)).1.bind f) = ((exec w₂ o (choices n)).1.bind f) ∧
      post ((exec w₁ o (choices n)).1.bind f) (exec w₁ o (choices n)).2 (exec w₂ o (choices n)).2) :
    Twin exec choices pre ((perform o).bind fun a => Prog.ofResult (f a)) post := by
  -- one run of it
  have one : ∀ w (t : List (Entry World Ans ε)),
      let out := ((perform o).bind fun a => Prog.ofResult (f a)).run exec (decided choices) w t
      out.result = (exec w o (choices t.length)).1.bind f ∧ out.world = (exec w o (choices t.length)).2 ∧
        out.trace.length = t.length + 1 := by
    intro w t
    simp only [perform, Prog.bind, run, decided]
    cases (exec w o (choices t.length)).1 with
    | error e => simp [Prog.bind, run, Except.bind]
    | ok a => cases hf : f a <;> simp [Prog.bind, run, Except.bind, Prog.ofResult, hf]
  intro w₁ w₂ t₁ t₂ ht hp
  obtain ⟨hr₁, hw₁, ht₁⟩ := one w₁ t₁
  obtain ⟨hr₂, hw₂, ht₂⟩ := one w₂ t₂
  rw [hr₁, hr₂, hw₁, hw₂, ht₁, ht₂, ← ht]
  exact ⟨(h _ _ _ hp).1, rfl, (h _ _ _ hp).2⟩

/-- An operation that answers the same in both worlds. -/
theorem perform {o : Op} {post : Except ε (Ans o) → World → World → Prop}
    (h : ∀ n w₁ w₂, pre w₁ w₂ → (exec w₁ o (choices n)).1 = (exec w₂ o (choices n)).1 ∧
      post (exec w₁ o (choices n)).1 (exec w₁ o (choices n)).2 (exec w₂ o (choices n)).2) :
    Twin exec choices pre (perform o) post := by
  intro w₁ w₂ t₁ t₂ ht hp
  obtain ⟨hr, hpost⟩ := h t₁.length w₁ w₂ hp
  simp only [Prog.perform, run, decided, ← ht]
  rw [← hr]
  generalize (exec w₁ o (choices t₁.length)).1 = r at hpost ⊢
  cases r <;> exact ⟨rfl, by simp [run, ht], hpost⟩

theorem bind {p : Prog Ans ε α} {f : α → Prog Ans ε β} {mid : Except ε α → World → World → Prop}
    {post : Except ε β → World → World → Prop} (hp : Twin exec choices pre p mid)
    (hf : ∀ a, Twin exec choices (mid (.ok a)) (f a) post)
    (he : ∀ e w₁ w₂, mid (.error e) w₁ w₂ → post (.error e) w₁ w₂) : Twin exec choices pre (p.bind f) post := by
  intro w₁ w₂ t₁ t₂ ht h
  have hm := hp w₁ w₂ t₁ t₂ ht h
  rw [run_bind, run_bind]
  generalize p.run exec (decided choices) w₁ t₁ = o₁ at hm
  generalize p.run exec (decided choices) w₂ t₂ = o₂ at hm
  obtain ⟨r, w₁', t₁'⟩ := o₁
  obtain ⟨_, w₂', t₂'⟩ := o₂
  obtain ⟨rfl, ht', hm⟩ := hm
  cases r with
  | ok a => exact hf a _ _ _ _ ht' hm
  | error e => exact ⟨rfl, ht', he _ _ _ hm⟩

theorem orElse {p : Prog Ans ε α} {f : ε → Prog Ans ε α} {mid post : Except ε α → World → World → Prop}
    (hp : Twin exec choices pre p mid) (hf : ∀ e, Twin exec choices (mid (.error e)) (f e) post)
    (ho : ∀ a w₁ w₂, mid (.ok a) w₁ w₂ → post (.ok a) w₁ w₂) : Twin exec choices pre (p.orElse f) post := by
  intro w₁ w₂ t₁ t₂ ht h
  have hm := hp w₁ w₂ t₁ t₂ ht h
  rw [run_orElse, run_orElse]
  generalize p.run exec (decided choices) w₁ t₁ = o₁ at hm
  generalize p.run exec (decided choices) w₂ t₂ = o₂ at hm
  obtain ⟨r, w₁', t₁'⟩ := o₁
  obtain ⟨_, w₂', t₂'⟩ := o₂
  obtain ⟨rfl, ht', hm⟩ := hm
  cases r with
  | ok a => exact ⟨rfl, ht', ho _ _ _ hm⟩
  | error e => exact hf e _ _ _ _ ht' hm

theorem conseq {p : Prog Ans ε α} {post post' : Except ε α → World → World → Prop}
    (h : Twin exec choices pre p post) (hpre : ∀ w₁ w₂, pre' w₁ w₂ → pre w₁ w₂)
    (hpost : ∀ r w₁ w₂, post r w₁ w₂ → post' r w₁ w₂) : Twin exec choices pre' p post' := by
  intro w₁ w₂ t₁ t₂ ht hp
  obtain ⟨hr, hl, h'⟩ := h w₁ w₂ t₁ t₂ ht (hpre _ _ hp)
  exact ⟨hr, hl, hpost _ _ _ h'⟩

end Twin

end Lib.Prog
