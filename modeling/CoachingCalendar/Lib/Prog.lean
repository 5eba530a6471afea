/-!
# Programs over a set of operations

A program issues operations one at a time and continues with the answer, which may be a failure.
The operations are the points where a program touches the world, so they are the points where
programs interleave.

`run` executes one program alone. `Follows` checks a program against a protocol, whatever the
answers are.
-/

namespace Lib

variable {Op : Type} {Ans : Op → Type} {ε α β : Type}

/-- A program whose operation `o` answers with a value of `Ans o` or fails with an error. -/
inductive Prog (Ans : Op → Type) (ε α : Type) where
  | pure (a : α)
  | throw (e : ε)
  | op (o : Op) (k : Except ε (Ans o) → Prog Ans ε α)

/-- An operation together with the answer it got. -/
structure Event (Ans : Op → Type) (ε : Type) where
  op : Op
  res : Except ε (Ans op)

namespace Prog

def bind : Prog Ans ε α → (α → Prog Ans ε β) → Prog Ans ε β
  | .pure a, f => f a
  | .throw e, _ => .throw e
  | .op o k, f => .op o fun r => (k r).bind f

/-- `try p catch h`. -/
def orElse : Prog Ans ε α → (ε → Prog Ans ε α) → Prog Ans ε α
  | .pure a, _ => .pure a
  | .throw e, h => h e
  | .op o k, h => .op o fun r => (k r).orElse h

instance : Monad (Prog Ans ε) where
  pure := .pure
  bind := bind

instance : MonadExceptOf ε (Prog Ans ε) where
  throw := .throw
  tryCatch := orElse

/-- Issue `o` and throw what it fails with (`await`). -/
def perform (o : Op) : Prog Ans ε (Ans o) :=
  .op o fun
    | .ok a => .pure a
    | .error e => .throw e

/-- Issue `o` and look at how it went. -/
def attempt (o : Op) : Prog Ans ε (Except ε (Ans o)) := .op o .pure

@[simp] theorem pure_eq (a : α) : (Pure.pure a : Prog Ans ε α) = .pure a := rfl

@[simp] theorem throw_eq (e : ε) : (MonadExcept.throw e : Prog Ans ε α) = .throw e := rfl

@[simp] theorem bind_eq (p : Prog Ans ε α) (f : α → Prog Ans ε β) : (p >>= f) = p.bind f := rfl

@[simp] theorem map_eq (f : α → β) (p : Prog Ans ε α) : (f <$> p) = p.bind fun a => .pure (f a) := rfl

@[simp] theorem tryCatch_eq (p : Prog Ans ε α) (h : ε → Prog Ans ε α) :
    tryCatch p h = p.orElse h := rfl

theorem bind_assoc {γ : Type} (p : Prog Ans ε α) (f : α → Prog Ans ε β) (g : β → Prog Ans ε γ) :
    (p.bind f).bind g = p.bind fun a => (f a).bind g := by
  induction p with
  | pure a => rfl
  | throw e => rfl
  | op o k ih => exact congrArg _ (funext ih)

/-! ## Operations that may fail -/

/-- What an operation does, unless the environment makes it fail. -/
def mayFail {World : Type} (fault : Option ε) (w : World) (x : Except ε α × World) : Except ε α × World :=
  match fault with
  | some e => (.error e, w)
  | none => x

section MayFail

variable {World : Type} {fault : Option ε} {w w' : World}

theorem mayFail_cases {x : Except ε α × World} {r : Except ε α} (h : mayFail fault w x = (r, w')) :
    (∃ e, r = .error e ∧ w' = w) ∨ x = (r, w') := by
  unfold mayFail at h
  split at h
  · cases h; exact .inl ⟨_, rfl, rfl⟩
  · exact .inr h

theorem mayFail_frame {x r : Except ε α} (h : mayFail fault w (x, w) = (r, w')) : w' = w := by
  rcases mayFail_cases h with ⟨_, _, rfl⟩ | h
  · rfl
  · cases h; rfl

end MayFail

/-! ## A program alone -/

section Run

variable {World Choice : Type}

/-- An operation of a run, with the world it was issued in. -/
structure Entry (World : Type) (Ans : Op → Type) (ε : Type) where
  before : World
  event : Event Ans ε

structure Outcome (World : Type) (Ans : Op → Type) (ε α : Type) where
  result : Except ε α
  world : World
  trace : List (Entry World Ans ε)

variable (exec : World → (o : Op) → Choice → Except ε (Ans o) × World)

/-- Run a program with nothing in between. `env` decides how each operation goes, from the operations
before it. -/
def run (env : List (Entry World Ans ε) → Choice) :
    Prog Ans ε α → World → List (Entry World Ans ε) → Outcome World Ans ε α
  | .pure a, w, t => ⟨.ok a, w, t⟩
  | .throw e, w, t => ⟨.error e, w, t⟩
  | .op o k, w, t =>
      (k (exec w o (env t)).1).run env (exec w o (env t)).2 (t ++ [⟨w, o, (exec w o (env t)).1⟩])

variable {exec}

theorem run_bind (env : List (Entry World Ans ε) → Choice) (p : Prog Ans ε α)
    (f : α → Prog Ans ε β) (w : World) (t : List (Entry World Ans ε)) :
    (p.bind f).run exec env w t =
      match p.run exec env w t with
      | ⟨.ok a, w', t'⟩ => (f a).run exec env w' t'
      | ⟨.error e, w', t'⟩ => ⟨.error e, w', t'⟩ := by
  induction p generalizing w t with
  | pure a => rfl
  | throw e => rfl
  | op o k ih => exact ih _ _ _

theorem run_orElse (env : List (Entry World Ans ε) → Choice) (p : Prog Ans ε α)
    (h : ε → Prog Ans ε α) (w : World) (t : List (Entry World Ans ε)) :
    (p.orElse h).run exec env w t =
      match p.run exec env w t with
      | ⟨.ok a, w', t'⟩ => ⟨.ok a, w', t'⟩
      | ⟨.error e, w', t'⟩ => (h e).run exec env w' t' := by
  induction p generalizing w t with
  | pure a => rfl
  | throw e => rfl
  | op o k ih => exact ih _ _ _

variable (exec)

/-- From any world and trace with `pre`, whatever the environment does, the run ends with `post`. -/
def Spec (pre : World → List (Entry World Ans ε) → Prop) (p : Prog Ans ε α)
    (post : Except ε α → World → List (Entry World Ans ε) → Prop) : Prop :=
  ∀ env w t, pre w t →
    post (p.run exec env w t).result (p.run exec env w t).world (p.run exec env w t).trace

variable {exec} {pre pre' : World → List (Entry World Ans ε) → Prop}

theorem Spec.pure {a : α} {post : Except ε α → World → List (Entry World Ans ε) → Prop}
    (h : ∀ w t, pre w t → post (.ok a) w t) :
    Spec exec pre (.pure a) post := fun _ w t hp => h w t hp

theorem Spec.throw {e : ε} {post : Except ε α → World → List (Entry World Ans ε) → Prop}
    (h : ∀ w t, pre w t → post (.error e) w t) : Spec exec pre (.throw e) post :=
  fun _ w t hp => h w t hp

/-- An operation, from what it can do in every world the precondition allows. -/
theorem Spec.perform {o : Op} {post : Except ε (Ans o) → World → List (Entry World Ans ε) → Prop}
    (h : ∀ w t c, pre w t → post (exec w o c).1 (exec w o c).2 (t ++ [⟨w, o, (exec w o c).1⟩])) :
    Spec exec pre (perform o) post := by
  intro env w t hp
  have := h w t (env t) hp
  simp only [Prog.perform, run]
  generalize exec w o (env t) = x at this
  rcases x with ⟨_ | _, _⟩ <;> exact this

theorem Spec.bind {p : Prog Ans ε α} {f : α → Prog Ans ε β}
    {mid : Except ε α → World → List (Entry World Ans ε) → Prop}
    {post : Except ε β → World → List (Entry World Ans ε) → Prop}
    (hp : Spec exec pre p mid) (hf : ∀ a, Spec exec (mid (.ok a)) (f a) post)
    (he : ∀ e w t, mid (.error e) w t → post (.error e) w t) : Spec exec pre (p.bind f) post := by
  intro env w t h
  have hm := hp env w t h
  rw [run_bind]
  generalize p.run exec env w t = o at hm
  rcases o with ⟨e | a, w', t'⟩
  · exact he e w' t' hm
  · exact hf a env w' t' hm

theorem Spec.orElse {p : Prog Ans ε α} {f : ε → Prog Ans ε α}
    {mid post : Except ε α → World → List (Entry World Ans ε) → Prop}
    (hp : Spec exec pre p mid) (hf : ∀ e, Spec exec (mid (.error e)) (f e) post)
    (ho : ∀ a w t, mid (.ok a) w t → post (.ok a) w t) : Spec exec pre (p.orElse f) post := by
  intro env w t h
  have hm := hp env w t h
  rw [run_orElse]
  generalize p.run exec env w t = o at hm
  rcases o with ⟨e | a, w', t'⟩
  · exact hf e env w' t' hm
  · exact ho a w' t' hm

theorem Spec.conseq {p : Prog Ans ε α}
    {post post' : Except ε α → World → List (Entry World Ans ε) → Prop}
    (hp : Spec exec pre p post) (h : ∀ w t, pre' w t → pre w t)
    (h' : ∀ r w t, post r w t → post' r w t) : Spec exec pre' p post' :=
  fun env w t hw => h' _ _ _ (hp env w t (h w t hw))

/-! ## Evaluation -/

variable (exec)

/-- From `w` the program ends with `r` in `w'`, whatever came before it. -/
def Runs (env : List (Entry World Ans ε) → Choice) (p : Prog Ans ε α) (w : World) (r : Except ε α)
    (w' : World) : Prop :=
  ∀ t, (p.run exec env w t).result = r ∧ (p.run exec env w t).world = w'

variable {exec} {env : List (Entry World Ans ε) → Choice} {w w₁ w' : World} {p : Prog Ans ε α}
variable {r : Except ε β}

theorem Runs.pure {a : α} : Runs exec env (.pure a) w (.ok a) w := fun _ => ⟨rfl, rfl⟩

theorem Runs.throw {e : ε} : Runs exec env (.throw e : Prog Ans ε α) w (.error e) w := fun _ => ⟨rfl, rfl⟩

theorem Runs.perform {o : Op} {r : Except ε (Ans o)} (h : ∀ t, exec w o (env t) = (r, w')) :
    Runs exec env (perform o) w r w' := by
  intro t
  simp only [Prog.perform, run, h t]
  cases r <;> exact ⟨rfl, rfl⟩

theorem Runs.bind {a : α} {f : α → Prog Ans ε β} (hp : Runs exec env p w (.ok a) w₁)
    (hf : Runs exec env (f a) w₁ r w') : Runs exec env (p.bind f) w r w' := by
  intro t
  obtain ⟨hr, hw⟩ := hp t
  rw [run_bind]
  generalize p.run exec env w t = o at hr hw
  obtain ⟨_, _, t'⟩ := o
  cases hr; cases hw
  exact hf t'

theorem Runs.bind_error {e : ε} {f : α → Prog Ans ε β} (hp : Runs exec env p w (.error e) w') :
    Runs exec env (p.bind f) w (.error e) w' := by
  intro t
  obtain ⟨hr, hw⟩ := hp t
  rw [run_bind]
  generalize p.run exec env w t = o at hr hw
  obtain ⟨_, _, t'⟩ := o
  cases hr; cases hw
  exact ⟨rfl, rfl⟩

theorem Runs.orElse_ok {a : α} {h : ε → Prog Ans ε α} (hp : Runs exec env p w (.ok a) w') :
    Runs exec env (p.orElse h) w (.ok a) w' := by
  intro t
  obtain ⟨hr, hw⟩ := hp t
  rw [run_orElse]
  generalize p.run exec env w t = o at hr hw
  obtain ⟨_, _, t'⟩ := o
  cases hr; cases hw
  exact ⟨rfl, rfl⟩

theorem Runs.orElse_error {e : ε} {h : ε → Prog Ans ε α} {r : Except ε α}
    (hp : Runs exec env p w (.error e) w₁) (hh : Runs exec env (h e) w₁ r w') :
    Runs exec env (p.orElse h) w r w' := by
  intro t
  obtain ⟨hr, hw⟩ := hp t
  rw [run_orElse]
  generalize p.run exec env w t = o at hr hw
  obtain ⟨_, _, t'⟩ := o
  cases hr; cases hw
  exact hh t'

/-! ## Ends that no environment changes -/

variable (exec)

/-- From `w` the program ends with `Q`, whatever the environment does. -/
def Ends (p : Prog Ans ε α) (w : World) (Q : Except ε α → World → Prop) : Prop :=
  ∀ env t, Q (p.run exec env w t).result (p.run exec env w t).world

/-- An end with a result. -/
def returns (R : α → World → Prop) : Except ε α → World → Prop
  | .ok a, w => R a w
  | .error _, _ => False

/-- An end with an error. -/
def raises (R : World → Prop) : Except ε α → World → Prop
  | .ok _, _ => False
  | .error _, w => R w

variable {exec} {Q Q₁ : Except ε α → World → Prop}

theorem Ends.pure {a : α} (h : Q (.ok a) w) : Ends exec (.pure a) w Q := fun _ _ => h

theorem Ends.throw {e : ε} (h : Q (.error e) w) : Ends exec (.throw e : Prog Ans ε α) w Q := fun _ _ => h

theorem Ends.perform {o : Op} {Q : Except ε (Ans o) → World → Prop}
    (h : ∀ ch, Q (exec w o ch).1 (exec w o ch).2) : Ends exec (perform o) w Q := by
  intro env t
  have h := h (env t)
  simp only [Prog.perform, run]
  generalize exec w o (env t) = x at h
  rcases x with ⟨_ | _, _⟩ <;> exact h

theorem Ends.bind {f : α → Prog Ans ε β} {Q₂ : Except ε β → World → Prop} (hp : Ends exec p w Q)
    (hf : ∀ a w₁, Q (.ok a) w₁ → Ends exec (f a) w₁ Q₂) (he : ∀ e w₁, Q (.error e) w₁ → Q₂ (.error e) w₁) :
    Ends exec (p.bind f) w Q₂ := by
  intro env t
  have h := hp env t
  rw [run_bind]
  generalize p.run exec env w t = o at h
  rcases o with ⟨_ | a, w₁, t₁⟩
  · exact he _ _ h
  · exact hf a w₁ h env t₁

theorem Ends.seq {R : α → World → Prop} {f : α → Prog Ans ε β} {Q₂ : Except ε β → World → Prop}
    (hp : Ends exec p w (returns R)) (hf : ∀ a w₁, R a w₁ → Ends exec (f a) w₁ Q₂) : Ends exec (p.bind f) w Q₂ :=
  hp.bind hf fun _ _ h => h.elim

theorem Ends.stop {R : World → Prop} {f : α → Prog Ans ε β} (hp : Ends exec p w (raises R)) :
    Ends exec (p.bind f) w (raises R) :=
  hp.bind (fun _ _ h => h.elim) fun _ _ h => h

/-- `try p catch {}`. -/
theorem Ends.swallow {p : Prog Ans ε Unit} {R : World → Prop} (hp : Ends exec p w fun _ => R) :
    Ends exec (p.orElse fun _ => .pure ()) w (returns fun _ => R) := by
  intro env t
  have h := hp env t
  rw [run_orElse]
  generalize p.run exec env w t = o at h
  rcases o with ⟨_ | _, _, _⟩ <;> exact h

theorem Ends.mono (h : Ends exec p w Q) (hQ : ∀ r w, Q r w → Q₁ r w) : Ends exec p w Q₁ :=
  fun env t => hQ _ _ (h env t)

end Run

end Prog

/-! ## Protocols -/

/-- A state machine over the operations of one program: the state after each answer, and the
operations a state allows. `answers` lists the answers an operation can get. -/
structure Protocol (Ans : Op → Type) (ε σ : Type) where
  answers : (o : Op) → Except ε (Ans o) → Prop
  next : σ → Event Ans ε → σ
  allowed : σ → Op → Prop

/-- It allows everything and remembers it. -/
def Protocol.record : Protocol Ans ε (List (Event Ans ε)) where
  answers _ _ := True
  next past e := past ++ [e]
  allowed _ _ := True

namespace Prog

variable {σ : Type} (R : Protocol Ans ε σ)

/-- From protocol state `s`, every operation of the program is allowed and it ends as `final` says. -/
def Follows (final : σ → Except ε α → Prop) : σ → Prog Ans ε α → Prop
  | s, .pure a => final s (.ok a)
  | s, .throw e => final s (.error e)
  | s, .op o k => R.allowed s o ∧ ∀ r, R.answers o r → (k r).Follows final (R.next s ⟨o, r⟩)

variable {R} {final final' : σ → Except ε α → Prop} {s : σ}

@[simp] theorem follows_pure {a : α} : (Prog.pure a : Prog Ans ε α).Follows R final s ↔ final s (.ok a) :=
  Iff.rfl

@[simp] theorem follows_throw {e : ε} :
    (Prog.throw e : Prog Ans ε α).Follows R final s ↔ final s (.error e) := Iff.rfl

theorem Follows.mono {p : Prog Ans ε α} (h : p.Follows R final s)
    (hf : ∀ s r, final s r → final' s r) : p.Follows R final' s := by
  induction p generalizing s with
  | pure a => exact hf _ _ h
  | throw e => exact hf _ _ h
  | op o k ih => exact ⟨h.1, fun r hr => ih r (h.2 r hr)⟩

theorem Follows.of_allowed (h : ∀ s o, R.allowed s o) (p : Prog Ans ε α) :
    p.Follows R (fun _ _ => True) s := by
  induction p generalizing s with
  | pure a => exact trivial
  | throw e => exact trivial
  | op o k ih => exact ⟨h s o, fun r _ => ih r⟩

/-- A protocol that allows what another allows asks no more, when nothing is asked of the end. -/
theorem Follows.transfer {τ : Type} {R' : Protocol Ans ε τ} {s' : τ} {p : Prog Ans ε α} (h : p.Follows R final s)
    (ha : ∀ s o, R.allowed s o → ∀ s', R'.allowed s' o) (hans : ∀ o r, R'.answers o r → R.answers o r) :
    p.Follows R' (fun _ _ => True) s' := by
  induction p generalizing s s' with
  | pure a => exact trivial
  | throw e => exact trivial
  | op o k ih => exact ⟨ha s o h.1 s', fun r hr => ih r (h.2 r (hans o r hr))⟩

/-- The rest of a program after `p`: it continues with a result and ends with an error. -/
def continued (R : Protocol Ans ε σ) (final : σ → Except ε β → Prop) (f : α → Prog Ans ε β) (s : σ) :
    Except ε α → Prop
  | .ok a => (f a).Follows R final s
  | .error e => final s (.error e)

@[simp] theorem follows_bind {p : Prog Ans ε α} {f : α → Prog Ans ε β} {final : σ → Except ε β → Prop} :
    (p.bind f).Follows R final s ↔ p.Follows R (continued R final f) s := by
  induction p generalizing s with
  | pure a => rfl
  | throw e => rfl
  | op o k ih => simp only [bind, Follows, ih]

/-- The rest of `try p catch h`. -/
def caught (R : Protocol Ans ε σ) (final : σ → Except ε α → Prop) (h : ε → Prog Ans ε α) (s : σ) :
    Except ε α → Prop
  | .ok a => final s (.ok a)
  | .error e => (h e).Follows R final s

@[simp] theorem follows_orElse {p : Prog Ans ε α} {h : ε → Prog Ans ε α} :
    (p.orElse h).Follows R final s ↔ p.Follows R (caught R final h) s := by
  induction p generalizing s with
  | pure a => rfl
  | throw e => rfl
  | op o k ih => simp only [orElse, Follows, ih]

@[simp] theorem follows_perform {o : Op} {final : σ → Except ε (Ans o) → Prop} :
    (perform o).Follows R final s ↔
      R.allowed s o ∧ ∀ r, R.answers o r → final (R.next s ⟨o, r⟩) r := by
  refine and_congr Iff.rfl (forall_congr' fun r => ?_)
  cases r <;> rfl

theorem Follows.perform_bind {o : Op} {f : Ans o → Prog Ans ε β} {final : σ → Except ε β → Prop}
    (ha : R.allowed s o) (hok : ∀ a, R.answers o (.ok a) → (f a).Follows R final (R.next s ⟨o, .ok a⟩))
    (herr : ∀ e, R.answers o (.error e) → final (R.next s ⟨o, .error e⟩) (.error e)) :
    ((perform o).bind f).Follows R final s := by
  rw [follows_bind, follows_perform]
  refine ⟨ha, fun r hr => ?_⟩
  cases r with
  | ok a => exact hok a hr
  | error e => exact herr e hr

/-- A program and what comes after its result, when nothing is asked of the end. -/
theorem Follows.andThen {p : Prog Ans ε α} {f : α → Prog Ans ε β} {Q : α → Prop}
    (hp : p.Follows R (fun _ r => ∀ a, r = .ok a → Q a) s)
    (hf : ∀ s a, Q a → (f a).Follows R (fun _ _ => True) s) : (p.bind f).Follows R (fun _ _ => True) s := by
  rw [follows_bind]
  refine hp.mono fun s' r hr => ?_
  cases r with
  | ok a => exact hf s' a (hr a rfl)
  | error e => exact trivial

theorem Follows.seq {p : Prog Ans ε α} {f : α → Prog Ans ε β} (hp : p.Follows R (fun _ _ => True) s)
    (hf : ∀ s a, (f a).Follows R (fun _ _ => True) s) : (p.bind f).Follows R (fun _ _ => True) s :=
  .andThen (hp.mono fun _ _ _ _ _ => trivial) fun s a (_ : True) => hf s a

/-! ## Programs that leave the protocol state as it is -/

def Still (R : Protocol Ans ε σ) (s : σ) (p : Prog Ans ε α) : Prop := p.Follows R (fun s' _ => s' = s) s

theorem Still.pure {a : α} : (Prog.pure a : Prog Ans ε α).Still R s := rfl

theorem Still.throw {e : ε} : (Prog.throw e : Prog Ans ε α).Still R s := rfl

theorem Still.follows {p : Prog Ans ε α} (h : p.Still R s) (hf : ∀ r, final s r) : p.Follows R final s :=
  Follows.mono h fun _ r hs => hs ▸ hf r

theorem Still.bind_follows {p : Prog Ans ε α} {f : α → Prog Ans ε β} {final : σ → Except ε β → Prop}
    (hp : p.Still R s) (hf : ∀ a, (f a).Follows R final s) (he : ∀ e, final s (.error e)) :
    (p.bind f).Follows R final s := by
  rw [follows_bind]
  refine hp.follows fun r => ?_
  cases r with
  | ok a => exact hf a
  | error e => exact he e

theorem Still.bind {p : Prog Ans ε α} {f : α → Prog Ans ε β} (hp : p.Still R s)
    (hf : ∀ a, (f a).Still R s) : (p.bind f).Still R s :=
  hp.bind_follows hf fun _ => rfl

theorem Still.orElse {p : Prog Ans ε α} {h : ε → Prog Ans ε α} (hp : p.Still R s)
    (hh : ∀ e, (h e).Still R s) : (p.orElse h).Still R s := by
  rw [Still, follows_orElse]
  refine hp.follows fun r => ?_
  cases r with
  | ok a => rfl
  | error e => exact hh e

theorem Still.perform {o : Op} (ha : R.allowed s o) (hn : ∀ r, R.next s ⟨o, r⟩ = s) :
    (perform o).Still R s :=
  follows_perform.mpr ⟨ha, fun r _ => hn r⟩

/-- What the allowed operations keep, such a program keeps. -/
theorem Still.spec {World Choice : Type} {exec : World → (o : Op) → Choice → Except ε (Ans o) × World}
    {I : World → List (Entry World Ans ε) → Prop} {p : Prog Ans ε α} (h : p.Still R s)
    (hans : ∀ w o c, R.answers o (exec w o c).1) (hnext : ∀ e, R.next s e = s)
    (hop : ∀ w t o c, R.allowed s o → I w t → I (exec w o c).2 (t ++ [⟨w, o, (exec w o c).1⟩])) :
    Spec exec I p fun _ => I := by
  intro env w t hI
  induction p generalizing w t with
  | pure a => exact hI
  | throw e => exact hI
  | op o k ih =>
      obtain ⟨ha, hk⟩ := h
      have hrest := hk _ (hans w o (env t))
      rw [hnext] at hrest
      exact ih _ hrest _ _ (hop w t o (env t) ha hI)

/-- An end that is `Q` with a result and leaves the state as it was with an error. -/
def orStill (s : σ) (Q : α → σ → Prop) (s' : σ) : Except ε α → Prop
  | .ok a => Q a s'
  | .error _ => s' = s

end Prog

end Lib
