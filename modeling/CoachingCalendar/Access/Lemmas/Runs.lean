import CoachingCalendar.Access.Lemmas.Policy
import CoachingCalendar.Access.Lemmas.Steps

/-! # What runs of the routes keep -/

namespace CoachingCalendar.Access
open Lib Lib.Prog Lib.System

variable {S : Services} {G : AccessGuard} {w w' : World} {c : AccessConfig} {o : Op} {r : Except Failure (Ans o)}

/-- A condition on configurations that holds along every run. -/
theorem accessRun_recorded {I : AccessConfig → Prop} (h : (accessSystem S).Run G (.start w) c) (h₀ : I (.start w))
    (hspawn : ∀ (c : AccessConfig) call, (accessSystem S).Run G (.start w) c → I c →
      I ⟨c.world, c.threads ++ [⟨call, call.body S⟩], c.log⟩)
    (hdrift : ∀ (c : AccessConfig) (ms : Nat), I c → I ⟨c.world.pass ms, c.threads, c.log⟩)
    (hfire : ∀ (c : AccessConfig) i call o k ch r w', (accessSystem S).Run G (.start w) c → I c →
      c.threads[i]? = some ⟨call, .op o k⟩ → Permitted S (c.past i) call o → exec S c.world o ch = (r, w') →
      Answered S o r → G.event c ⟨⟨o, r⟩, i⟩ → I ⟨w', c.threads.set i ⟨call, k r⟩, c.log ++ [⟨⟨o, r⟩, i⟩]⟩) : I c := by
  refine h.recorded (R := (policy S).protocol) (fun _ => rfl) Call.body_follows (fun _ => exec_answered) h₀ ?_ hdrift hfire
  rintro c call _ hrun hI ⟨⟩
  exact hspawn c call hrun hI

/-! ## Who a coach is -/

/-- What no request changes: the address and the role. -/
def who (c : Coach) : String × CoachRole := (c.email, c.role)

theorem rewrites_who {id : String} {f : Coach → Coach} (h : o.rewrites = some (id, f)) (c : Coach) : who (f c) = who c := by
  rcases o with o | o | o
  · cases o with
    | coachUpdate _ _ => cases h; rfl
    | _ => cases h
  · cases h
  · cases o with
    | updateProfile _ _ => cases h; rfl
    | updateSite _ _ => cases h; rfl
    | _ => cases h

theorem exec_who {ch : Choice} (h : exec S w o ch = (r, w')) {id : String} {coach : Coach}
    (hf : w.coaches.find id = some coach) : ∃ row, w'.coaches.find id = some row ∧ who row = who coach := by
  rcases exec_row h hf with hf' | ⟨f, ho, hf'⟩
  · exact ⟨coach, hf', rfl⟩
  · exact ⟨f coach, hf', rewrites_who ho coach⟩

theorem toCoach_some {data : Auth.NewCoach} {id : String} {coach : Coach} (h : data.toCoach id = some coach) :
    data.email = some coach.email ∧ data.name = some coach.name ∧ data.frontendUrl = coach.frontendUrl ∧
      coach.role = data.role := by
  unfold Auth.NewCoach.toCoach at h
  split at h
  · rename_i he hn
    cases h; exact ⟨he, hn, rfl, rfl⟩
  · cases h

theorem created_role {past : Past} {call : Call} {data : Auth.NewCoach} {coach : Coach}
    (hp : Permitted S past call (.auth (.coachCreate data)))
    (ha : Answered S (.auth (.coachCreate data)) (.ok coach)) : coach.role = .coach := by
  cases hp with
  | read ho => cases ho
  | accept _ => exact (toCoach_some ha).2.2.2

/-- What is known of the coaches in a run from `w`. -/
structure Known (w : World) (c : AccessConfig) : Prop where
  kept : ∀ id coach₀, w.coaches.find id = some coach₀ →
    ∃ coach, c.world.coaches.find id = some coach ∧ who coach = who coach₀
  made : ∀ id coach, c.world.coaches.find id = some coach → w.coaches.find id = none → coach.role = .coach
  read : ∀ l ∈ c.log, ∀ coach, returnedCoach l.toEvent = some coach →
    ∃ row, c.world.coaches.find coach.id = some row ∧ who row = who coach

theorem run_known (h : (accessSystem S).Run G (.start w) c) : Known w c := by
  refine accessRun_recorded h ⟨fun _ coach₀ hf => ⟨coach₀, hf, rfl⟩, fun _ _ hf hn => ?_, fun _ hl => ?_⟩
    (fun _ _ _ hI => ⟨hI.kept, hI.made, hI.read⟩) (fun _ _ hI => ⟨hI.kept, hI.made, hI.read⟩) ?_
  · rw [show (Config.start w : AccessConfig).world = w from rfl, hn] at hf
    cases hf
  · exact absurd hl List.not_mem_nil
  · intro c i call o k ch r w' _ hI _ hp hx ha _
    refine ⟨fun id coach₀ hf => ?_, fun id coach hf hn => ?_, fun l hl coach hc => ?_⟩
    · obtain ⟨coach, hf₁, hw⟩ := hI.kept id coach₀ hf
      obtain ⟨row, hf₂, hw'⟩ := exec_who hx hf₁
      exact ⟨row, hf₂, hw'.trans hw⟩
    · cases hold : c.world.coaches.find id with
      | some coach₁ =>
          obtain ⟨row, hf', hw⟩ := exec_who hx hold
          cases hf.symm.trans hf'
          exact (congrArg Prod.snd hw).trans (hI.made id coach₁ hold hn)
      | none =>
          obtain ⟨data, he⟩ := exec_new hx hf hold
          cases he
          exact created_role hp ha
    · rcases List.mem_append.mp hl with hl | hl
      · obtain ⟨row, hf, hw⟩ := hI.read l hl coach hc
        obtain ⟨row', hf', hw'⟩ := exec_who hx hf
        exact ⟨row', hf', hw'.trans hw⟩
      · rw [List.mem_singleton.mp hl] at hc
        exact ⟨coach, exec_returned hx hc, rfl⟩

theorem Known.admin (h : Known w c) {id : String} {coach : Coach} (hf : c.world.coaches.find id = some coach)
    (hrole : coach.role = .admin) : ∃ admin ∈ w.coaches, admin.id = id ∧ who admin = who coach := by
  cases hold : w.coaches.find id with
  | none =>
      rw [h.made id coach hf hold] at hrole
      cases hrole
  | some admin =>
      obtain ⟨row, hf', hw⟩ := h.kept id admin hold
      cases hf.symm.trans hf'
      exact ⟨admin, Table.find_mem hold, Table.find_key hold, hw.symm⟩

theorem Known.administers (h : Known w c) {i : Nat} {authorization : Option String}
    (ha : Administers S.jwt (c.past i) authorization) : ∃ admin ∈ w.coaches, admin.role = .admin ∧
      ∃ row, row.id = admin.id ∧ Admitted S.jwt (c.past i) authorization row := by
  obtain ⟨row, ha, hrole⟩ := ha
  have ⟨_, _, hfound, _⟩ := ha
  obtain ⟨l, hl, _, he⟩ := mem_past.mp hfound
  obtain ⟨row', hf, hw⟩ := h.read l hl row (by rw [he]; rfl)
  obtain ⟨admin, hm, hid, hw'⟩ := h.admin hf ((congrArg Prod.snd hw).trans hrole)
  exact ⟨admin, hm, (congrArg Prod.snd (hw'.trans hw)).trans hrole, row, hid.symm, ha⟩

/-! ## Tokens that were signed -/

/-- A token that was not there at the start was signed by a call. -/
theorem run_minted (h : (accessSystem S).Run G (.start w) c) : ∀ m ∈ c.world.accounts.minted,
    m ∈ w.accounts.minted ∨
      ∃ i, Signed (c.past i) m.payload m.expiresIn (S.jwt.encode m.claims) := by
  refine accessRun_recorded (I := fun c => ∀ m ∈ c.world.accounts.minted, m ∈ w.accounts.minted ∨
    ∃ i, Signed (c.past i) m.payload m.expiresIn (S.jwt.encode m.claims)) h (fun _ hm => .inl hm)
    (fun _ _ _ hI => hI) (fun _ _ hI => hI) ?_
  intro c i call o k ch r w' _ hI _ _ hx _ _ m hm
  rcases exec_minted hx hm with hm | he
  · refine (hI m hm).imp id fun ⟨j, hs⟩ => ⟨j, ?_⟩
    obtain ⟨l, hl, htid, hop⟩ := mem_past.mp hs
    exact mem_past.mpr ⟨l, List.mem_append_left _ hl, htid, hop⟩
  · exact .inr ⟨i, mem_past.mpr ⟨_, List.mem_append_right _ (List.mem_singleton.mpr rfl), rfl, he⟩⟩

/-- It was signed in the run. -/
def SignedBetween (S : Services) (w w' : World) (payload : Auth.Claims) (expiresIn : Int) (token : String) : Prop :=
  ∃ signedAt, w.accounts.clock ≤ signedAt ∧ signedAt ≤ w'.accounts.clock ∧
    token = S.jwt.sign payload expiresIn signedAt

theorem SignedBetween.later {w₁ w₂ : World} {payload : Auth.Claims} {expiresIn : Int} {token : String}
    (h : SignedBetween S w w₁ payload expiresIn token) (hle : w₁.accounts.clock ≤ w₂.accounts.clock) :
    SignedBetween S w w₂ payload expiresIn token := by
  obtain ⟨signedAt, hfrom, hto, he⟩ := h
  exact ⟨signedAt, hfrom, Int.le_trans hto hle, he⟩

theorem run_signed (h : (accessSystem S).Run G (.start w) c) : w.accounts.clock ≤ c.world.accounts.clock ∧
    ∀ l ∈ c.log, ∀ payload expiresIn token, l.toEvent = ⟨.auth (.sign payload expiresIn), .ok token⟩ →
      SignedBetween S w c.world payload expiresIn token := by
  refine accessRun_recorded (I := fun c => w.accounts.clock ≤ c.world.accounts.clock ∧
    ∀ l ∈ c.log, ∀ payload expiresIn token, l.toEvent = ⟨.auth (.sign payload expiresIn), .ok token⟩ →
      SignedBetween S w c.world payload expiresIn token) h ⟨Int.le_refl _, fun _ hl => absurd hl List.not_mem_nil⟩
    (fun _ _ _ hI => hI) (fun c ms hI => ?_) ?_
  · have hle : c.world.accounts.clock ≤ (c.world.pass ms).accounts.clock :=
      Int.le_add_of_nonneg_right (Int.natCast_nonneg ms)
    exact ⟨Int.le_trans hI.1 hle,
      fun l hl payload expiresIn token he => (hI.2 l hl payload expiresIn token he).later hle⟩
  · intro c i call o k ch r w' _ hI _ _ hx _ _
    have hclock : w'.accounts.clock = c.world.accounts.clock := exec_clock hx
    refine ⟨hclock.symm ▸ hI.1, fun l hl payload expiresIn token he => ?_⟩
    rcases List.mem_append.mp hl with hl | hl
    · exact (hI.2 l hl payload expiresIn token he).later (Int.le_of_eq hclock.symm)
    · obtain rfl := List.mem_singleton.mp hl
      cases he
      exact ⟨_, hI.1, Int.le_of_eq hclock.symm, exec_signed hx⟩

/-! ## Runs in which no token is forged -/

/-- When a call reads the clock, the token that it presents is refused or has been signed. -/
def unforged (S : Services) (c : AccessConfig) (e : AccessEntry) : Bool :=
  match e.toEvent with
  | ⟨.auth .now, .ok now⟩ =>
      ((c.callOf e.tid).bind Call.token).all fun token =>
        (S.jwt.verify token now).all fun claims => c.world.accounts.minted.any fun m => m.claims = claims
  | _ => true

/-- No call presents a forged token. -/
def authentic (S : Services) : AccessGuard where
  call _ := True
  event c e := unforged S c e = true

instance (call : Call) : Decidable ((authentic S).call call) := .isTrue trivial

instance (c : AccessConfig) (e : AccessEntry) : Decidable ((authentic S).event c e) :=
  inferInstanceAs (Decidable (unforged S c e = true))

theorem run_genuine (h : (accessSystem S).Run (authentic S) (.start w) c) : ∀ l ∈ c.log, ∀ now : Int,
    l.toEvent = ⟨.auth .now, .ok now⟩ → ∀ call token claims, c.callOf l.tid = some call → call.token = some token →
      S.jwt.verify token now = some claims → ∃ m ∈ c.world.accounts.minted, m.claims = claims := by
  refine accessRun_recorded (I := fun c => ∀ l ∈ c.log, ∀ now : Int, l.toEvent = ⟨.auth .now, .ok now⟩ →
    ∀ call token claims, c.callOf l.tid = some call → call.token = some token →
      S.jwt.verify token now = some claims → ∃ m ∈ c.world.accounts.minted, m.claims = claims) h
    (fun _ hl => absurd hl List.not_mem_nil) ?_ (fun _ _ hI => hI) ?_
  · intro c call hrun hI l hl now hnow call' token claims hcall
    rw [callOf_append (hrun.log_tid l hl)] at hcall
    exact hI l hl now hnow call' token claims hcall
  · intro c i call o k ch r w' _ hI hi _ hx _ hg l hl now hnow call' token claims hcall ht hv
    rw [callOf_set hi] at hcall
    rcases List.mem_append.mp hl with hl | hl
    · obtain ⟨m, hm, hc⟩ := hI l hl now hnow call' token claims hcall ht hv
      exact ⟨m, exec_minted_subset hx hm, hc⟩
    · obtain rfl := List.mem_singleton.mp hl
      change unforged S c ⟨⟨o, r⟩, i⟩ = true at hg
      simp only at hnow
      simp only [unforged, hnow, hcall, Option.bind_some, ht, Option.all_some, hv, List.any_eq_true,
        decide_eq_true_eq] at hg
      obtain ⟨m, hm, hc⟩ := hg
      exact ⟨m, exec_minted_subset hx hm, hc⟩

end CoachingCalendar.Access
