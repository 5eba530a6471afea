import CoachingCalendar.Access.Policy
import CoachingCalendar.Auth.Lemmas.Steps

/-! # What one operation of the routes does -/

namespace CoachingCalendar.Access
open Lib Lib.Prog

variable {S : Services} {w w' : World} {o : Op} {ch : Choice} {r : Except Failure (Ans o)}

/-- The coach whose row it rewrites, and how. -/
def Op.rewrites : Op → Option (String × (Coach → Coach))
  | .auth (.coachUpdate id patch) => some (id, patch.apply)
  | .coaches (.updateProfile id dto) => some (id, dto.apply)
  | .coaches (.updateSite id frontendUrl) => some (id, withSite frontendUrl)
  | _ => none

theorem reads_rewrites (h : o.reads = true) : o.rewrites = none := by
  rcases o with o | o | o
  · cases o <;> first | rfl | cases h
  · rfl
  · cases o <;> first | rfl | cases h

/-- What an operation does to the world. -/
inductive Change (S : Services) (w : World) : Event Ans Failure → World → Prop
  | same {e} : Change S w e w
  | origins {o r os} : Change S w ⟨.origins o, r⟩ { w with origins := os }
  | sign {payload expiresIn} :
      Change S w ⟨.auth (.sign payload expiresIn), .ok (S.jwt.sign payload expiresIn w.accounts.clock)⟩
        { w with accounts := { w.accounts with
          minted := w.accounts.minted ++ [⟨payload, expiresIn, w.accounts.clock⟩] } }
  | reset {mail} : Change S w ⟨.auth (.sendReset mail), .ok ()⟩
      { w with accounts := { w.accounts with resets := w.accounts.resets ++ [mail] } }
  | invite {mail} : Change S w ⟨.coaches (.sendInvite mail), .ok ()⟩ { w with invites := w.invites ++ [mail] }
  | create {data coach coaches} : w.coaches.insert coach = some coaches →
      Change S w ⟨.auth (.coachCreate data), .ok coach⟩ (w.setCoaches coaches)
  | rewrite {e id f coach} (hf : ∀ c, (f c).id = c.id) : e.op.rewrites = some (id, f) →
      w.coaches.find id = some coach → Change S w e (w.setCoaches (w.coaches.update id f hf))
  | connect {coachId create update connectedAt connections} :
      (∀ id, id ≠ coachId → connections.find id = w.connections.find id) →
      (∀ g, connections.find coachId = some g → ∃ account, (account = create ∨ account = update) ∧
        g.refreshTokenEncrypted = account.refreshTokenEncrypted) →
      Change S w ⟨.coaches (.upsertConnection (some coachId) create update connectedAt), .ok ()⟩ { w with connections }

/-- A new coach has an id and an address of its own. -/
theorem accounts_fresh {w a : Auth.World} {data : Auth.NewCoach} {ch : Auth.Choice} {coach : Coach}
    (h : Auth.exec S.toServices w (.coachCreate data) ch = (.ok coach, a)) :
    w.coaches.find coach.id = none ∧ ∀ d ∈ w.coaches, d.email ≠ coach.email := by
  rcases mayFail_cases h with ⟨_, he, _⟩ | h
  · cases he
  · split at h
    · cases h
    · split at h
      · cases h
      · rename_i hclash
        split at h
        · cases h
        · rename_i hi
          cases h
          refine ⟨(Table.insert_some hi).1, fun d hd he => ?_⟩
          rw [Bool.not_eq_true, Option.isSome_eq_false_iff, Option.isNone_iff_eq_none] at hclash
          have := Table.findFirst_none.mp hclash d hd
          simp [Auth.Coach.clashes, he] at this

theorem create_fresh {data : Auth.NewCoach} {coach : Coach}
    (h : exec S w (.auth (.coachCreate data)) ch = (.ok coach, w')) :
    w.coaches.find coach.id = none ∧ ∀ d ∈ w.coaches, d.email ≠ coach.email := by
  generalize hx : Auth.exec S.toServices w.accounts (.coachCreate data) ⟨ch.fault, ch.newId, ch.salt⟩ = x
  obtain ⟨r', a⟩ := x
  obtain ⟨rfl, _⟩ : r' = .ok coach ∧ { w with accounts := a } = w' := by
    simpa [exec, hx] using h
  exact accounts_fresh hx

theorem exec_change (h : exec S w o ch = (r, w')) : Change S w ⟨o, r⟩ w' := by
  rcases o with o | o | o
  · generalize hx : Auth.exec S.toServices w.accounts o ⟨ch.fault, ch.newId, ch.salt⟩ = x at h
    obtain ⟨r', a⟩ := x
    obtain ⟨rfl, rfl⟩ : r' = r ∧ { w with accounts := a } = w' := by
      simpa [exec, hx] using h
    cases Auth.exec_change hx with
    | same _ => exact .same
    | sign => exact .sign
    | mail => exact .reset
    | create _ hi => exact .create hi
    | @update _ patch _ hf => exact .rewrite patch.apply_id rfl hf
  · cases h; exact .origins
  · change o.exec w ch = _ at h
    cases o with
    | findBySite _ => rw [mayFail_frame h]; exact .same
    | findMany => rw [mayFail_frame h]; exact .same
    | updateProfile id dto =>
        rcases mayFail_cases h with ⟨_, _, rfl⟩ | h
        · exact .same
        · split at h
          · cases h; exact .same
          · rename_i hf
            cases h; exact .rewrite dto.apply_id rfl hf
    | updateSite id frontendUrl =>
        rcases mayFail_cases h with ⟨_, _, rfl⟩ | h
        · exact .same
        · split at h
          · cases h; exact .same
          · rename_i hf
            split at h
            · cases h; exact .same
            · cases h; exact .rewrite (withSite_id frontendUrl) rfl hf
    | sendInvite mail =>
        rcases mayFail_cases h with ⟨_, _, rfl⟩ | h
        · exact .same
        · cases h; exact .invite
    | originFindMany => rw [mayFail_frame h]; exact .same
    | randomBytes _ => cases h; exact .same
    | getToken _ => rw [mayFail_frame h]; exact .same
    | userinfo _ => rw [mayFail_frame h]; exact .same
    | upsertConnection coachId create update connectedAt =>
        cases coachId with
        | none => cases h; exact .same
        | some coachId =>
            rcases mayFail_cases h with ⟨_, _, rfl⟩ | h
            · exact .same
            · split at h
              · rename_i g hf
                cases h
                refine .connect (fun id hne => Table.find_update_of_ne _ hne) fun g' hg' => ⟨update, .inr rfl, ?_⟩
                rw [Table.find_update, if_pos rfl, hf, Option.map_some] at hg'
                cases hg'
                rfl
              · split at h
                · cases h; exact .same
                · split at h
                  · cases h; exact .same
                  · rename_i hi
                    cases h
                    refine .connect (fun id hne => ?_) fun g' hg' => ⟨create, .inl rfl, ?_⟩
                    · rw [Table.find_insert hi, if_neg hne]
                    · rw [Table.find_insert hi, if_pos rfl] at hg'
                      cases hg'
                      rfl
    | findConnection _ => rw [mayFail_frame h]; exact .same

/-! ## Coaches -/

theorem exec_row (h : exec S w o ch = (r, w')) {id : String} {coach : Coach} (hf : w.coaches.find id = some coach) :
    w'.coaches.find id = some coach ∨
      ∃ f, o.rewrites = some (id, f) ∧ w'.coaches.find id = some (f coach) := by
  cases exec_change h with
  | create hi => exact .inl (Table.find_insert_of_some hi hf)
  | @rewrite _ id' f coach' hid ho hf' =>
      by_cases he : id = id'
      · subst he
        cases hf.symm.trans hf'
        exact .inr ⟨f, ho, by rw [World.coaches, World.setCoaches, Table.find_update_of_some _ hid hf, if_pos rfl]⟩
      · exact .inl (by rw [World.coaches, World.setCoaches, Table.find_update_of_ne hid he, hf])
  | same => exact .inl hf
  | origins => exact .inl hf
  | sign => exact .inl hf
  | reset => exact .inl hf
  | invite => exact .inl hf
  | connect _ _ => exact .inl hf

theorem exec_new (h : exec S w o ch = (r, w')) {id : String} {coach : Coach} (hf : w'.coaches.find id = some coach)
    (hn : w.coaches.find id = none) : ∃ data, (⟨o, r⟩ : Event Ans Failure) = ⟨.auth (.coachCreate data), .ok coach⟩ := by
  have old : w'.coaches = w.coaches → False := fun he => by rw [he, hn] at hf; cases hf
  generalize he : (⟨o, r⟩ : Event Ans Failure) = e
  cases he ▸ exec_change h with
  | @create data coach' _ hi =>
      rw [World.coaches, World.setCoaches, Table.find_insert hi] at hf
      split at hf
      · cases hf; exact ⟨data, rfl⟩
      · rw [hn] at hf; cases hf
  | @rewrite _ id' f coach' hid ho hf' =>
      rw [World.coaches, World.setCoaches, Table.find_update] at hf
      split at hf
      · rename_i heq
        rw [← heq, hn] at hf'; cases hf'
      · rw [hn] at hf; cases hf
  | same => exact (old rfl).elim
  | origins => exact (old rfl).elim
  | sign => exact (old rfl).elim
  | reset => exact (old rfl).elim
  | invite => exact (old rfl).elim
  | connect _ _ => exact (old rfl).elim

/-- The coach row that an operation of the accounts returned. -/
def returnedCoach : Event Ans Failure → Option Coach
  | ⟨.auth (.coachFindByEmail _), .ok coach⟩ => coach
  | ⟨.auth (.coachFindUnique _), .ok coach⟩ => coach
  | ⟨.auth (.coachCreate _), .ok coach⟩ => some coach
  | ⟨.auth (.coachUpdate _ _), .ok coach⟩ => some coach
  | _ => none

theorem exec_returned (h : exec S w o ch = (r, w')) {coach : Coach} (hc : returnedCoach ⟨o, r⟩ = some coach) :
    w'.coaches.find coach.id = some coach := by
  rcases o with o | o | o
  · generalize hx : Auth.exec S.toServices w.accounts o ⟨ch.fault, ch.newId, ch.salt⟩ = x at h
    obtain ⟨r', a⟩ := x
    obtain ⟨rfl, rfl⟩ : r' = r ∧ { w with accounts := a } = w' := by
      simpa [exec, hx] using h
    show a.coaches.find coach.id = some coach
    cases o with
    | coachFindByEmail email =>
        cases email with
        | none => cases hx; cases hc
        | some email =>
            rcases mayFail_cases hx with ⟨_, rfl, _⟩ | hx
            · cases hc
            · cases hx
              exact Table.find_some.mpr ⟨(Table.findFirst_some hc).1, rfl⟩
    | coachFindUnique id =>
        cases id with
        | none => cases hx; cases hc
        | some id =>
            rcases mayFail_cases hx with ⟨_, rfl, _⟩ | hx
            · cases hc
            · cases hx
              exact Table.find_self hc
    | coachCreate data =>
        cases Auth.exec_change hx with
        | same hw =>
            cases r' with
            | ok _ => cases hw
            | error _ => cases hc
        | create _ hi =>
            cases hc
            rw [Table.find_insert hi, if_pos rfl]
    | coachUpdate id patch =>
        cases Auth.exec_change hx with
        | same hw =>
            cases r' with
            | ok _ => cases hw
            | error _ => cases hc
        | @update _ _ row hf =>
            cases hc
            obtain rfl : row.id = id := Table.find_key hf
            exact Table.find_update_found patch.apply_id hf
    | _ => cases r' <;> cases hc
  · cases r <;> cases hc
  · cases r <;> cases hc

/-! ## Tokens and mails -/

theorem exec_minted (h : exec S w o ch = (r, w')) {m : Auth.Minted} (hm : m ∈ w'.accounts.minted) :
    m ∈ w.accounts.minted ∨
      (⟨o, r⟩ : Event Ans Failure) = ⟨.auth (.sign m.payload m.expiresIn), .ok (S.jwt.encode m.claims)⟩ := by
  generalize he : (⟨o, r⟩ : Event Ans Failure) = e
  cases he ▸ exec_change h with
  | sign =>
      rcases List.mem_append.mp hm with hm | hm
      · exact .inl hm
      · rw [List.mem_singleton.mp hm]
        exact .inr rfl
  | same => exact .inl hm
  | origins => exact .inl hm
  | reset => exact .inl hm
  | invite => exact .inl hm
  | create _ => exact .inl hm
  | rewrite _ _ _ => exact .inl hm
  | connect _ _ => exact .inl hm

theorem exec_minted_subset (h : exec S w o ch = (r, w')) : w.accounts.minted ⊆ w'.accounts.minted := by
  cases exec_change h with
  | sign => exact List.subset_append_left ..
  | _ => exact List.Subset.refl _

theorem exec_signed {payload : Auth.Claims} {expiresIn : Int} {token : String}
    (h : exec S w (.auth (.sign payload expiresIn)) ch = (.ok token, w')) :
    token = S.jwt.sign payload expiresIn w.accounts.clock := by
  cases h
  rfl

theorem exec_clock (h : exec S w o ch = (r, w')) : w'.accounts.clock = w.accounts.clock := by
  cases exec_change h <;> rfl

theorem exec_resets (h : exec S w o ch = (r, w')) {mail : Auth.ResetMail} (hm : mail ∈ w'.accounts.resets) :
    mail ∈ w.accounts.resets ∨ o = .auth (.sendReset mail) := by
  generalize he : (⟨o, r⟩ : Event Ans Failure) = e
  cases he ▸ exec_change h with
  | reset =>
      rcases List.mem_append.mp hm with hm | hm
      · exact .inl hm
      · rw [List.mem_singleton.mp hm]
        exact .inr (congrArg Event.op he)
  | same => exact .inl hm
  | origins => exact .inl hm
  | sign => exact .inl hm
  | invite => exact .inl hm
  | create _ => exact .inl hm
  | rewrite _ _ _ => exact .inl hm
  | connect _ _ => exact .inl hm

theorem exec_invites (h : exec S w o ch = (r, w')) {mail : InviteMail} (hm : mail ∈ w'.invites) :
    mail ∈ w.invites ∨ o = .coaches (.sendInvite mail) := by
  generalize he : (⟨o, r⟩ : Event Ans Failure) = e
  cases he ▸ exec_change h with
  | invite =>
      rcases List.mem_append.mp hm with hm | hm
      · exact .inl hm
      · rw [List.mem_singleton.mp hm]
        exact .inr (congrArg Event.op he)
  | same => exact .inl hm
  | origins => exact .inl hm
  | sign => exact .inl hm
  | reset => exact .inl hm
  | create _ => exact .inl hm
  | rewrite _ _ _ => exact .inl hm
  | connect _ _ => exact .inl hm

/-! ## Google accounts -/

/-- A connection changes only where the operation puts one, and then it holds what the operation brings. -/
theorem exec_connection (h : exec S w o ch = (r, w')) (id : String) :
    w'.connections.find id = w.connections.find id ∨
      ∃ create update connectedAt, o = .coaches (.upsertConnection (some id) create update connectedAt) ∧
        ∀ g, w'.connections.find id = some g → ∃ account, (account = create ∨ account = update) ∧
          g.refreshTokenEncrypted = account.refreshTokenEncrypted := by
  generalize he : (⟨o, r⟩ : Event Ans Failure) = e
  cases he ▸ exec_change h with
  | @connect coachId create update connectedAt connections hother hself =>
      by_cases hid : id = coachId
      · subst hid
        exact .inr ⟨create, update, connectedAt, congrArg Event.op he, hself⟩
      · exact .inl (hother id hid)
  | same => exact .inl rfl
  | origins => exact .inl rfl
  | sign => exact .inl rfl
  | reset => exact .inl rfl
  | invite => exact .inl rfl
  | create _ => exact .inl rfl
  | rewrite _ _ _ => exact .inl rfl

end CoachingCalendar.Access
