import Mathlib.Data.List.Basic
import Mathlib.Logic.Function.Basic
import CoachingCalendar.Lib.Prog

/-!
# Concurrent calls

A pool holds the calls that have been made, each with the program it still has to run. A move admits
a new call, lets one call issue its next operation, or lets the world drift on its own. Any order of
moves is a run.

A run is taken under a guard, a condition on its calls and on its operations. The guard `Guard.any`
asks nothing.
-/

namespace Lib

variable {Op : Type} {Ans : Op → Type} {ε α World Choice Call Drift : Type}

/-- What a pool needs: what an operation does, the program of a call, what admitting a call does, and
what happens outside the calls. -/
structure System (Ans : Op → Type) (ε α World Choice Call Drift : Type) where
  exec : World → (o : Op) → Choice → Except ε (Ans o) × World
  body : Call → Prog Ans ε α
  accept : Call → World → Option World
  drift : Drift → World → World

structure Thread (Ans : Op → Type) (ε α Call : Type) where
  call : Call
  prog : Prog Ans ε α

/-- An event with the number of the call it belongs to. -/
structure Logged (Ans : Op → Type) (ε : Type) extends Event Ans ε where
  tid : Nat

structure Config (Ans : Op → Type) (ε α World Call : Type) where
  world : World
  threads : List (Thread Ans ε α Call)
  log : List (Logged Ans ε)

inductive Move (Choice Call Drift : Type) where
  | spawn (call : Call)
  | fire (i : Nat) (ch : Choice)
  | drift (d : Drift)

/-- A condition on the calls of a run, and on each operation with the configuration it is issued in. -/
structure Guard (Ans : Op → Type) (ε α World Call : Type) where
  call : Call → Prop
  event : Config Ans ε α World Call → Logged Ans ε → Prop

def Guard.any : Guard Ans ε α World Call := ⟨fun _ => True, fun _ _ => True⟩

instance (call : Call) : Decidable ((Guard.any : Guard Ans ε α World Call).call call) := .isTrue trivial

instance (c : Config Ans ε α World Call) (e : Logged Ans ε) : Decidable (Guard.any.event c e) :=
  .isTrue trivial

namespace Config

variable (c : Config Ans ε α World Call)

/-- Call `i` has ended with `r`. -/
def Ended (i : Nat) (call : Call) (r : Except ε α) : Prop :=
  c.threads[i]? = some ⟨call, match r with | .ok a => .pure a | .error e => .throw e⟩

/-- The events of call `i`, in order. -/
def past (i : Nat) : List (Event Ans ε) :=
  c.log.filterMap fun e => if e.tid = i then some e.toEvent else none

def start (w : World) : Config Ans ε α World Call := ⟨w, [], []⟩

/-- Every call has ended. -/
def Quiet : Prop := ∀ th ∈ c.threads, (∃ a, th.prog = .pure a) ∨ ∃ e, th.prog = .throw e

/-- What call `i` has returned. -/
def returned (i : Nat) : Option (Call × α) :=
  match c.threads[i]? with
  | some ⟨call, .pure a⟩ => some (call, a)
  | _ => none

/-- The call with a number. -/
def callOf (i : Nat) : Option Call := c.threads[i]?.map (·.call)

def isQuiet : Bool := c.threads.all fun th => match th.prog with | .op _ _ => false | _ => true

variable {c}

theorem ended_of_returned {i : Nat} {call : Call} {a : α} (h : c.returned i = some (call, a)) :
    c.Ended i call (.ok a) := by
  unfold returned at h
  split at h
  · rename_i hi
    cases h; exact hi
  · cases h

theorem quiet_of_isQuiet (h : c.isQuiet = true) : c.Quiet := by
  intro th hth
  have := List.all_eq_true.mp h th hth
  split at this
  · cases this
  · rename_i hp
    cases hq : th.prog with
    | pure a => exact .inl ⟨a, rfl⟩
    | throw e => exact .inr ⟨e, rfl⟩
    | op o k => exact (hp o k hq).elim

end Config

namespace System

variable (S : System Ans ε α World Choice Call Drift)

section Next

variable (G : Guard Ans ε α World Call) [∀ call, Decidable (G.call call)] [∀ c e, Decidable (G.event c e)]

/-- The configuration after a move that the guard allows. -/
def next (c : Config Ans ε α World Call) : Move Choice Call Drift → Option (Config Ans ε α World Call)
  | .spawn call =>
      if G.call call then
        (S.accept call c.world).map fun w => ⟨w, c.threads ++ [⟨call, S.body call⟩], c.log⟩
      else none
  | .fire i ch =>
      match c.threads[i]? with
      | some ⟨call, .op o k⟩ =>
          if G.event c ⟨⟨o, (S.exec c.world o ch).1⟩, i⟩ then
            some ⟨(S.exec c.world o ch).2, c.threads.set i ⟨call, k (S.exec c.world o ch).1⟩,
              c.log ++ [⟨⟨o, (S.exec c.world o ch).1⟩, i⟩]⟩
          else none
      | _ => none
  | .drift d => some ⟨S.drift d c.world, c.threads, c.log⟩

/-- Make the moves one after the other. -/
def play : List (Move Choice Call Drift) → Config Ans ε α World Call → Option (Config Ans ε α World Call)
  | [], c => some c
  | m :: ms, c => (next S G c m).bind (play ms)

end Next

/-- A step under a guard. -/
inductive Step (G : Guard Ans ε α World Call) :
    Config Ans ε α World Call → Config Ans ε α World Call → Prop
  | spawn {c call w} : G.call call → S.accept call c.world = some w →
      Step G c ⟨w, c.threads ++ [⟨call, S.body call⟩], c.log⟩
  | fire {c i call o k ch r w} : c.threads[i]? = some ⟨call, .op o k⟩ → S.exec c.world o ch = (r, w) →
      G.event c ⟨⟨o, r⟩, i⟩ →
      Step G c ⟨w, c.threads.set i ⟨call, k r⟩, c.log ++ [⟨⟨o, r⟩, i⟩]⟩
  | drift {c} (d : Drift) : Step G c ⟨S.drift d c.world, c.threads, c.log⟩

/-- Any number of steps under a guard. -/
inductive Run (G : Guard Ans ε α World Call) :
    Config Ans ε α World Call → Config Ans ε α World Call → Prop
  | refl {c} : Run G c c
  | tail {c c' c''} : Run G c c' → Step S G c' c'' → Run G c c''

variable {S} {G : Guard Ans ε α World Call} {c c' c'' : Config Ans ε α World Call}

theorem Run.trans (h : S.Run G c c') (h' : S.Run G c' c'') : S.Run G c c'' := by
  induction h' with
  | refl => exact h
  | tail _ hs ih => exact .tail ih hs

/-- What holds at the start and is kept by every step holds along the whole run. -/
theorem Run.invariant {I : Config Ans ε α World Call → Prop} (h : S.Run G c c') (h₀ : I c)
    (hstep : ∀ c c', I c → S.Step G c c' → I c') : I c' := by
  induction h with
  | refl => exact h₀
  | tail _ hs ih => exact hstep _ _ ih hs

/-- A condition on the world alone that operations, admissions and drift keep. -/
theorem Run.world_invariant {J : World → Prop} (h : S.Run G c c') (h₀ : J c.world)
    (hexec : ∀ w o ch, J w → J (S.exec w o ch).2)
    (haccept : ∀ call w w', J w → S.accept call w = some w' → J w')
    (hdrift : ∀ d w, J w → J (S.drift d w)) : J c'.world := by
  refine h.invariant (I := fun c => J c.world) h₀ fun c c' hc hs => ?_
  cases hs with
  | spawn _ ha => exact haccept _ _ _ hc ha
  | @fire _ _ o _ ch _ _ _ hx _ => have := hexec _ o ch hc; rwa [hx] at this
  | drift d => exact hdrift d _ hc

/-- A run is a run of every system that can drift in the same ways. -/
theorem Run.of_drift {Drift' : Type} {exec : World → (o : Op) → Choice → Except ε (Ans o) × World}
    {body : Call → Prog Ans ε α} {accept : Call → World → Option World} {drift : Drift → World → World}
    {drift' : Drift' → World → World} (hd : ∀ d w, ∃ d', drift' d' w = drift d w)
    (h : Run ⟨exec, body, accept, drift⟩ G c c') : Run ⟨exec, body, accept, drift'⟩ G c c' := by
  induction h with
  | refl => exact .refl
  | @tail c₁ _ _ hs ih =>
      refine .tail ih ?_
      cases hs with
      | spawn hc ha => exact .spawn hc ha
      | fire hi hx he => exact .fire hi hx he
      | drift d =>
          obtain ⟨d', hd'⟩ := hd d c₁.world
          change Step _ _ _ ⟨drift d c₁.world, _, _⟩
          rw [← hd']
          exact .drift d'

/-! ## Playing given moves -/

section Play

variable [∀ call, Decidable (G.call call)] [∀ c e, Decidable (G.event c e)]

theorem step_of_next {m : Move Choice Call Drift} (h : S.next G c m = some c') : S.Step G c c' := by
  cases m with
  | spawn call =>
      simp only [next] at h
      split at h
      · rename_i hc
        obtain ⟨w, hw, rfl⟩ := Option.map_eq_some_iff.mp h
        exact .spawn hc hw
      · cases h
  | fire i ch =>
      simp only [next] at h
      split at h
      · rename_i hi
        split at h
        · rename_i he
          cases h; exact .fire hi rfl he
        · cases h
      · cases h
  | drift d => cases h; exact .drift d

theorem play_run {ms : List (Move Choice Call Drift)} (h : S.play G ms c = some c') : S.Run G c c' := by
  induction ms generalizing c with
  | nil => cases h; exact .refl
  | cons m ms ih =>
      simp only [play, Option.bind_eq_some_iff] at h
      obtain ⟨c₁, h₁, h₂⟩ := h
      exact (Run.tail .refl (step_of_next h₁)).trans (ih h₂)

/-- A run to a configuration that passes a test. -/
theorem run_of_play (ms : List (Move Choice Call Drift)) (p : Config Ans ε α World Call → Bool)
    (h : (S.play G ms c).any p = true) : ∃ c', S.Run G c c' ∧ p c' = true := by
  obtain ⟨c', hc, hp⟩ := (Option.any_eq_true p _).mp h
  exact ⟨c', play_run hc, hp⟩

end Play

/-! ## The events of one call -/

theorem past_append (i : Nat) (w : World) (ths : List (Thread Ans ε α Call)) (e : Logged Ans ε) :
    (⟨w, ths, c.log ++ [e]⟩ : Config Ans ε α World Call).past i =
      c.past i ++ if e.tid = i then [e.toEvent] else [] := by
  simp only [Config.past, List.filterMap_append, List.filterMap_cons, List.filterMap_nil]
  split <;> simp_all

theorem mem_past {i : Nat} {e : Event Ans ε} :
    e ∈ c.past i ↔ ∃ l ∈ c.log, l.tid = i ∧ l.toEvent = e := by
  simp [Config.past, List.mem_filterMap]

theorem Run.log_tid (h : S.Run G (.start w) c) : ∀ e ∈ c.log, e.tid < c.threads.length := by
  refine h.invariant (I := fun c => ∀ e ∈ c.log, e.tid < c.threads.length) (by simp [Config.start])
    fun c c' hc hs e he => ?_
  cases hs with
  | spawn _ _ =>
      have := hc e he
      simp only [List.length_append, List.length_singleton]; omega
  | fire hi _ _ =>
      simp only [List.length_set]
      rcases List.mem_append.mp he with he | he
      · exact hc e he
      · rw [List.mem_singleton.mp he]
        exact (List.getElem?_eq_some_iff.mp hi).1
  | drift _ => exact hc e he

theorem Run.log_grows (h : S.Run G c c') : c.log <+: c'.log := by
  induction h with
  | refl => exact List.prefix_rfl
  | tail _ hs ih =>
      cases hs with
      | spawn _ _ => exact ih
      | fire _ _ _ => exact ih.trans (List.prefix_append ..)
      | drift _ => exact ih

/-- The step from `c` to `c'` issues `e`. -/
structure Issues (S : System Ans ε α World Choice Call Drift) (G : Guard Ans ε α World Call)
    (c : Config Ans ε α World Call) (e : Logged Ans ε) (c' : Config Ans ε α World Call) : Prop where
  thread : ∃ call k, c.threads[e.tid]? = some ⟨call, .op e.op k⟩
  exec : ∃ ch, S.exec c.world e.op ch = (e.res, c'.world)
  guard : G.event c e
  log : c'.log = c.log ++ [e]

theorem Step.issues (h : S.Step G c c') {e : Logged Ans ε} (hl : c'.log = c.log ++ [e]) : Issues S G c e c' := by
  cases h with
  | spawn _ _ => simp at hl
  | @fire _ call o k ch r _ hi hx hg =>
      obtain rfl : _ = e := by simpa using hl
      exact ⟨⟨call, k, hi⟩, ⟨ch, hx⟩, hg, hl⟩
  | drift _ => simp at hl

/-- `c'` comes from `c` by an operation of call `i`. -/
def Config.FiredBy (i : Nat) (c c' : Config Ans ε α World Call) : Prop :=
  ∃ e, c'.log = c.log ++ [e] ∧ e.tid = i

theorem firedBy_of_next [∀ call, Decidable (G.call call)] [∀ c e, Decidable (G.event c e)] {i : Nat} {ch : Choice}
    (h : S.next G c (.fire i ch) = some c') : Config.FiredBy i c c' := by
  simp only [next] at h
  split at h
  · split at h
    · cases h; exact ⟨_, rfl, rfl⟩
    · cases h
  · cases h

theorem Step.firedBy (h : S.Step G c c') {i : Nat} (hi : Config.FiredBy i c c') :
    ∃ e : Event Ans ε, ∃ ch, S.exec c.world e.op ch = (e.res, c'.world) ∧ c'.log = c.log ++ [⟨e, i⟩] := by
  obtain ⟨l, hl, rfl⟩ := hi
  cases h with
  | spawn _ _ => simp at hl
  | @fire _ _ o _ ch r _ _ hx _ =>
      obtain rfl : _ = l := by simpa using hl
      exact ⟨⟨o, r⟩, ch, hx, rfl⟩
  | drift _ => simp at hl

/-- `e` is issued in the step from `c₁` to `c₂` of a run from `c` to `c'`. -/
structure IssuedAt (S : System Ans ε α World Choice Call Drift) (G : Guard Ans ε α World Call)
    (c c' : Config Ans ε α World Call) (e : Logged Ans ε) (c₁ c₂ : Config Ans ε α World Call) : Prop where
  before : S.Run G c c₁
  step : S.Step G c₁ c₂
  after : S.Run G c₂ c'
  log : c₂.log = c₁.log ++ [e]

theorem IssuedAt.tail {e : Logged Ans ε} {c₁ c₂ : Config Ans ε α World Call} (h : IssuedAt S G c c' e c₁ c₂)
    (hs : S.Step G c' c'') : IssuedAt S G c c'' e c₁ c₂ :=
  ⟨h.before, h.step, h.after.tail hs, h.log⟩

theorem Run.issued (h : S.Run G c c') {t : List (Logged Ans ε)} (ht : c'.log = c.log ++ t) {e : Logged Ans ε}
    (he : e ∈ t) : ∃ c₁ c₂, IssuedAt S G c c' e c₁ c₂ := by
  induction h generalizing t with
  | refl => simp_all
  | @tail c₁ c₂ hrun hs ih =>
      have hs' := hs
      cases hs' with
      | spawn _ _ =>
          obtain ⟨d₁, d₂, hd⟩ := ih ht he
          exact ⟨d₁, d₂, hd.tail hs⟩
      | @fire i _ o _ _ r _ _ _ _ =>
          obtain ⟨t₁, ht₁⟩ := hrun.log_grows
          have hlog : t = t₁ ++ [⟨⟨o, r⟩, i⟩] := by simpa [← ht₁] using ht.symm
          rcases List.mem_append.mp (hlog ▸ he) with he | he
          · obtain ⟨d₁, d₂, hd⟩ := ih ht₁.symm he
            exact ⟨d₁, d₂, hd.tail hs⟩
          · rw [List.mem_singleton.mp he]
            exact ⟨c₁, _, hrun, hs, .refl, rfl⟩
      | drift _ =>
          obtain ⟨d₁, d₂, hd⟩ := ih ht he
          exact ⟨d₁, d₂, hd.tail hs⟩

theorem IssuedAt.log_before {e : Logged Ans ε} {c₁ c₂ : Config Ans ε α World Call} (h : IssuedAt S G c c' e c₁ c₂)
    {t : List (Logged Ans ε)} (ht : c'.log = c.log ++ t) : ∃ t₁, c₁.log = c.log ++ t₁ ∧ t₁ ⊆ t := by
  obtain ⟨t₁, ht₁⟩ := h.before.log_grows
  have hp : c₁.log <+: c'.log := (List.prefix_append _ _).trans (h.log ▸ h.after.log_grows)
  rw [ht, ← ht₁, List.prefix_append_right_inj] at hp
  exact ⟨t₁, ht₁.symm, hp.subset⟩

theorem Run.log_ended (h : S.Run G c c') {i : Nat} {call : Call} {r : Except ε α} (hi : c.Ended i call r) :
    c'.Ended i call r ∧ ∃ t, c'.log = c.log ++ t ∧ ∀ e ∈ t, e.tid ≠ i := by
  induction h with
  | refl => exact ⟨hi, [], by simp⟩
  | @tail c₁ c₂ hrun hs ih =>
      obtain ⟨hi₁, t, ht, hne⟩ := ih
      cases hs with
      | spawn _ _ =>
          have hlt := (List.getElem?_eq_some_iff.mp hi₁).1
          exact ⟨(List.getElem?_append_left hlt).trans hi₁, t, ht, hne⟩
      | @fire j _ o _ ch r' _ hj _ _ =>
          have hij : j ≠ i := by
            rintro rfl
            cases r <;> cases hj.symm.trans hi₁
          refine ⟨(List.getElem?_set_ne hij).trans hi₁, t ++ [⟨⟨o, r'⟩, j⟩], by simp [ht], fun e he => ?_⟩
          rcases List.mem_append.mp he with he | he
          · exact hne e he
          · rwa [List.mem_singleton.mp he]
      | drift _ => exact ⟨hi₁, t, ht, hne⟩

theorem Run.log_spawned (h : S.Run G (.start w) c) {t : List (Logged Ans ε)}
    (ht : c'.log = c.log ++ t) {i : Nat} (hi : c.threads.length ≤ i) {e : Event Ans ε} (he : e ∈ c'.past i) :
    ⟨e, i⟩ ∈ t := by
  obtain ⟨⟨l, _⟩, hl, rfl, rfl⟩ := mem_past.mp he
  rcases List.mem_append.mp (ht ▸ hl) with hl | hl
  · have : _ < _ := h.log_tid _ hl
    omega
  · exact hl

theorem callOf_set {w : World} {log : List (Logged Ans ε)} {i : Nat} {call : Call} {p p' : Prog Ans ε α}
    (hi : c.threads[i]? = some ⟨call, p⟩) (j : Nat) :
    (⟨w, c.threads.set i ⟨call, p'⟩, log⟩ : Config Ans ε α World Call).callOf j = c.callOf j := by
  by_cases hij : i = j
  · subst hij
    rw [Config.callOf, List.getElem?_set_self (List.getElem?_eq_some_iff.mp hi).1, Config.callOf, hi]
    rfl
  · rw [Config.callOf, List.getElem?_set_ne hij, Config.callOf]

theorem callOf_append {w : World} {log : List (Logged Ans ε)} {th : Thread Ans ε α Call} {j : Nat}
    (hj : j < c.threads.length) :
    (⟨w, c.threads ++ [th], log⟩ : Config Ans ε α World Call).callOf j = c.callOf j := by
  rw [Config.callOf, List.getElem?_append_left hj, Config.callOf]

theorem Step.callOf (h : S.Step G c c') {i : Nat} {call : Call} (hi : c.callOf i = some call) :
    c'.callOf i = some call := by
  obtain ⟨th, hth, rfl⟩ := Option.map_eq_some_iff.mp hi
  have hlt := (List.getElem?_eq_some_iff.mp hth).1
  cases h with
  | spawn _ _ => exact (callOf_append hlt).trans hi
  | fire hj _ _ => exact (callOf_set hj i).trans hi
  | drift _ => exact hi

/-! ## The entries since the last one of a kind -/

/-- The entries after the last one with `p`, newest first. -/
def since {α : Type} (p : α → Bool) (log : List α) : List α := log.reverse.takeWhile fun e => !p e

theorem since_append {α : Type} (p : α → Bool) (log : List α) (e : α) :
    since p (log ++ [e]) = if p e then [] else e :: since p log := by
  cases hp : p e <;> simp [since, hp]

theorem Run.past_nil (h : S.Run G (.start w) c) {i : Nat} (hi : c.threads.length ≤ i) : c.past i = [] := by
  refine List.filterMap_eq_nil_iff.mpr fun e he => if_neg ?_
  have := h.log_tid e he; omega

/-! ## Protocols in a pool -/

section Tracked

variable {σ : Type} (next : σ → Event Ans ε → σ) (init : σ)

/-- The protocol state that call `i` has reached. A call that has not been made is in state `init`. -/
def phase (c : Config Ans ε α World Call) (i : Nat) : σ := (c.past i).foldl next init

theorem Run.phase_init (h : S.Run G (.start w) c) {i : Nat} (hi : c.threads.length ≤ i) :
    phase next init c i = init := by
  rw [phase, h.past_nil hi]; rfl

theorem phase_record (i : Nat) : phase (Protocol.record : Protocol Ans ε _).next [] c i = c.past i := by
  have fold : ∀ l l' : List (Event Ans ε), l.foldl Protocol.record.next l' = l' ++ l := by
    intro l
    induction l with
    | nil => simp
    | cons e l ih => exact fun l' => (ih _).trans (List.append_assoc ..)
  exact fold _ _

theorem phase_fire (w : World) (ths : List (Thread Ans ε α Call)) (e : Event Ans ε) (i : Nat) :
    phase next init (⟨w, ths, c.log ++ [⟨e, i⟩]⟩ : Config Ans ε α World Call) =
      Function.update (phase next init c) i (next (phase next init c i) e) := by
  funext j
  rw [phase, past_append]
  by_cases hj : j = i
  · subst hj
    simp [phase]
  · simp [phase, hj, Ne.symm hj]

variable {next init} {R : Call → Protocol Ans ε σ} {final : Call → σ → Except ε α → Prop}

/-- When the program of every call follows its protocol, so does what is left of every call in a run,
from the state its own events have led to. -/
theorem Run.follows (h : S.Run G (.start w) c) (hnext : ∀ call, (R call).next = next)
    (hbody : ∀ call, (S.body call).Follows (R call) (final call) init)
    (hans : ∀ call w o ch, (R call).answers o (S.exec w o ch).1) :
    ∀ i (th : Thread Ans ε α Call), c.threads[i]? = some th →
      th.prog.Follows (R th.call) (final th.call) (phase next init c i) := by
  induction h with
  | refl => simp [Config.start]
  | @tail c c' hrun hs ih =>
      intro i th hi
      cases hs with
      | @spawn call _ _ _ =>
          by_cases hlt : i < c.threads.length
          · rw [List.getElem?_append_left hlt] at hi
            exact ih i th hi
          · rw [List.getElem?_append_right (by omega), List.getElem?_singleton] at hi
            split at hi
            · cases hi
              -- the new call has no events yet
              have hp : c.past i = [] := hrun.past_nil (by omega)
              show Prog.Follows _ _ ((c.past i).foldl next init) _
              rw [hp]; exact hbody call
            · cases hi
      | @fire j call o k ch r _ hj hx _ =>
          rw [phase_fire]
          by_cases hij : i = j
          · subst hij
            rw [List.getElem?_set_self (List.getElem?_eq_some_iff.mp hj).1] at hi
            cases hi
            have hf := ih i _ hj
            have hr : (R call).answers o r := by have := hans call c.world o ch; rwa [hx] at this
            have hk := hf.2 r hr
            rw [hnext] at hk
            rw [Function.update_self]
            exact hk
          · rw [List.getElem?_set_ne (Ne.symm hij)] at hi
            rw [Function.update_of_ne hij]
            exact ih i th hi
      | drift _ => exact ih i th hi

/-- A condition on the world, the log and the protocol states of the calls holds along every run when
admissions and drift keep it and so does every operation that the protocol allows. -/
theorem Run.tracked {I : World → List (Logged Ans ε) → (Nat → σ) → Prop} (h : S.Run G (.start w) c)
    (h' : S.Run G c c') (hnext : ∀ call, (R call).next = next)
    (hbody : ∀ call, (S.body call).Follows (R call) (final call) init)
    (hans : ∀ call w o ch, (R call).answers o (S.exec w o ch).1)
    (h₀ : I c.world c.log (phase next init c))
    (haccept : ∀ call w w' log φ, I w log φ → S.accept call w = some w' → I w' log φ)
    (hdrift : ∀ d w log φ, I w log φ → I (S.drift d w) log φ)
    (hfire : ∀ (c : Config Ans ε α World Call) i call o k ch r w', I c.world c.log (phase next init c) →
      c.threads[i]? = some ⟨call, .op o k⟩ → (R call).allowed (phase next init c i) o →
      S.exec c.world o ch = (r, w') → G.event c ⟨⟨o, r⟩, i⟩ →
      I w' (c.log ++ [⟨⟨o, r⟩, i⟩])
        (Function.update (phase next init c) i (next (phase next init c i) ⟨o, r⟩))) :
    I c'.world c'.log (phase next init c') := by
  induction h' with
  | refl => exact h₀
  | @tail c₁ c₂ hrun hs ih =>
      have hrun := h.trans hrun
      cases hs with
      | spawn _ ha => exact haccept _ _ _ _ _ ih ha
      | @fire i call o k ch r w' hi hx he =>
          rw [phase_fire]
          exact hfire c₁ i call o k ch r w' ih hi (Run.follows hrun hnext hbody hans i _ hi).1 hx he
      | drift d => exact hdrift d _ _ _ ih

/-- A condition on the world that the answers to operations depend on holds along every run when admissions and
drift keep it and so does every operation that the protocol allows. -/
theorem Run.assumed {J : World → Prop} (h : S.Run G (.start w) c) (h₀ : J w)
    (hbody : ∀ call w w', S.accept call w = some w' → (S.body call).Follows (R call) (final call) init)
    (hans : ∀ call w o ch, J w → (R call).answers o (S.exec w o ch).1)
    (haccept : ∀ call w w', J w → S.accept call w = some w' → J w') (hdrift : ∀ d w, J w → J (S.drift d w))
    (hexec : ∀ call s w o ch, J w → (R call).allowed s o → J (S.exec w o ch).2) : J c.world := by
  suffices hI : J c.world ∧ ∀ th ∈ c.threads, ∃ s, th.prog.Follows (R th.call) (final th.call) s from hI.1
  refine h.invariant (I := fun c => J c.world ∧ ∀ th ∈ c.threads, ∃ s, th.prog.Follows (R th.call) (final th.call) s)
    ⟨h₀, by simp [Config.start]⟩ fun c c' hc hs => ?_
  obtain ⟨hJ, hth⟩ := hc
  cases hs with
  | @spawn call w' _ ha =>
      refine ⟨haccept _ _ _ hJ ha, fun th hm => ?_⟩
      rcases List.mem_append.mp hm with hm | hm
      · exact hth th hm
      · rw [List.mem_singleton.mp hm]
        exact ⟨init, hbody call _ _ ha⟩
  | @fire i call o k ch r w' hi hx _ =>
      obtain ⟨s, ho, hk⟩ := hth _ (List.mem_of_getElem? hi)
      have hw := hexec call s c.world o ch hJ ho
      have hr := hans call c.world o ch hJ
      rw [hx] at hw hr
      refine ⟨hw, fun th hm => ?_⟩
      rcases List.mem_or_eq_of_mem_set hm with hm | rfl
      · exact hth th hm
      · exact ⟨_, hk r hr⟩
  | drift d => exact ⟨hdrift d _ hJ, hth⟩

end Tracked

/-! ## Protocols and configurations -/

/-- A condition on configurations and the protocol states of their calls holds along every run when admissions and
drift keep it and so does every operation that the protocol allows. -/
theorem Run.observed {σ : Type} {next : σ → Event Ans ε → σ} {init : σ} {R : Call → Protocol Ans ε σ}
    {final : Call → σ → Except ε α → Prop} {I : Config Ans ε α World Call → (Nat → σ) → Prop}
    (h : S.Run G (.start w) c) (hnext : ∀ call, (R call).next = next)
    (hbody : ∀ call, (S.body call).Follows (R call) (final call) init)
    (hans : ∀ call w o ch, (R call).answers o (S.exec w o ch).1) (h₀ : I (.start w) fun _ => init)
    (hspawn : ∀ (c : Config Ans ε α World Call) call w' φ, S.Run G (.start w) c → I c φ →
      S.accept call c.world = some w' → I ⟨w', c.threads ++ [⟨call, S.body call⟩], c.log⟩ φ)
    (hdrift : ∀ (c : Config Ans ε α World Call) d φ, I c φ → I ⟨S.drift d c.world, c.threads, c.log⟩ φ)
    (hfire : ∀ (c : Config Ans ε α World Call) i call o k ch r w', S.Run G (.start w) c →
      I c (phase next init c) → c.threads[i]? = some ⟨call, .op o k⟩ →
      (R call).allowed (phase next init c i) o → S.exec c.world o ch = (r, w') → (R call).answers o r →
      G.event c ⟨⟨o, r⟩, i⟩ → I ⟨w', c.threads.set i ⟨call, k r⟩, c.log ++ [⟨⟨o, r⟩, i⟩]⟩
        (Function.update (phase next init c) i (next (phase next init c i) ⟨o, r⟩))) :
    I c (phase next init c) := by
  induction h with
  | refl => exact h₀
  | @tail c₁ _ hrun hs ih =>
      cases hs with
      | spawn _ ha => exact hspawn _ _ _ _ hrun ih ha
      | @fire i call o k ch r w' hi hx he =>
          rw [phase_fire]
          have ha : (R call).answers o r := by have := hans call c₁.world o ch; rwa [hx] at this
          exact hfire _ i call o k ch r w' hrun ih hi (hrun.follows hnext hbody hans i _ hi).1 hx ha he
      | drift d => exact hdrift _ d _ ih

/-! ## Protocols that remember everything -/

section Recorded

variable {R : Call → Protocol Ans ε (List (Event Ans ε))}
variable {final : Call → List (Event Ans ε) → Except ε α → Prop}

theorem Run.follows_past (h : S.Run G (.start w) c) (hnext : ∀ call, (R call).next = Protocol.record.next)
    (hbody : ∀ call, (S.body call).Follows (R call) (final call) [])
    (hans : ∀ call w o ch, (R call).answers o (S.exec w o ch).1) {i : Nat} {th : Thread Ans ε α Call}
    (hi : c.threads[i]? = some th) : th.prog.Follows (R th.call) (final th.call) (c.past i) := by
  have := h.follows hnext hbody hans i th hi
  rwa [phase_record] at this

/-- A condition on configurations holds along every run when admissions and drift keep it and so does every
operation that a call may issue after its own events. -/
theorem Run.recorded {I : Config Ans ε α World Call → Prop} (h : S.Run G (.start w) c)
    (hnext : ∀ call, (R call).next = Protocol.record.next)
    (hbody : ∀ call, (S.body call).Follows (R call) (final call) [])
    (hans : ∀ call w o ch, (R call).answers o (S.exec w o ch).1) (h₀ : I (.start w))
    (hspawn : ∀ (c : Config Ans ε α World Call) call w', S.Run G (.start w) c → I c →
      S.accept call c.world = some w' → I ⟨w', c.threads ++ [⟨call, S.body call⟩], c.log⟩)
    (hdrift : ∀ (c : Config Ans ε α World Call) d, I c → I ⟨S.drift d c.world, c.threads, c.log⟩)
    (hfire : ∀ (c : Config Ans ε α World Call) i call o k ch r w', S.Run G (.start w) c → I c →
      c.threads[i]? = some ⟨call, .op o k⟩ → (R call).allowed (c.past i) o → S.exec c.world o ch = (r, w') →
      (R call).answers o r → G.event c ⟨⟨o, r⟩, i⟩ →
      I ⟨w', c.threads.set i ⟨call, k r⟩, c.log ++ [⟨⟨o, r⟩, i⟩]⟩) : I c := by
  induction h with
  | refl => exact h₀
  | @tail c₁ _ hrun hs ih =>
      cases hs with
      | spawn _ ha => exact hspawn _ _ _ hrun ih ha
      | @fire i call o k ch r w' hi hx he =>
          have hf := hrun.follows_past hnext hbody hans hi
          have ha : (R call).answers o r := by have := hans call c₁.world o ch; rwa [hx] at this
          exact hfire _ i call o k ch r w' hrun ih hi hf.1 hx ha he
      | drift d => exact hdrift _ d ih

end Recorded

end System

end Lib
