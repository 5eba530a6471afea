import CoachingCalendar.Access.Policy
import CoachingCalendar.Auth.Lemmas.Tokens

/-! # The routes keep to the policy -/

namespace CoachingCalendar.Access
open Lib Lib.Prog Lib.System

variable {S : Services} {call : Call} {past : Past}

/-! ## Answers -/

theorem accounts_answered (w : Auth.World) (o : Auth.Op) (ch : Auth.Choice) :
    Answered S (.auth o) (Auth.exec S.toServices w o ch).1 := by
  generalize hx : Auth.exec S.toServices w o ch = x
  obtain ⟨r, w'⟩ := x
  cases o with
  | now => cases hx; trivial
  | sign _ _ => cases hx; exact ⟨_, rfl⟩
  | coachFindByEmail email =>
      cases email with
      | none => cases hx; trivial
      | some email =>
          rcases mayFail_cases hx with ⟨_, rfl, _⟩ | hx
          · trivial
          · cases hx
            cases hf : w.coaches.findFirst fun c => c.email = email with
            | none => trivial
            | some coach => exact congrArg some (of_decide_eq_true (Table.findFirst_some hf).2).symm
  | coachFindUnique id =>
      cases id with
      | none => cases hx; trivial
      | some id =>
          rcases mayFail_cases hx with ⟨_, rfl, _⟩ | hx
          · trivial
          · cases hx
            cases hf : w.coaches.find id with
            | none => trivial
            | some coach => exact congrArg some (Table.find_key hf).symm
  | coachCreate data =>
      rcases mayFail_cases hx with ⟨_, rfl, _⟩ | hx
      · trivial
      · split at hx
        · cases hx; trivial
        · rename_i coach hc
          have hid : data.toCoach coach.id = some coach := by
            unfold Auth.NewCoach.toCoach at hc ⊢
            split at hc
            · cases hc; rfl
            · cases hc
          split at hx
          · cases hx; trivial
          · split at hx
            · cases hx; trivial
            · cases hx; exact hid
  | coachUpdate id patch =>
      rcases mayFail_cases hx with ⟨_, rfl, _⟩ | hx
      · trivial
      · split at hx
        · cases hx; trivial
        · rename_i coach hf
          cases hx; exact (Table.find_key hf : coach.id = id)
  | compare _ _ =>
      rcases mayFail_cases hx with ⟨_, rfl, _⟩ | hx
      · trivial
      · cases hx; rfl
  | hash _ => trivial
  | sendReset _ => trivial

theorem exec_answered (w : World) (o : Op) (ch : Choice) : Answered S o (exec S w o ch).1 := by
  rcases o with o | o | o
  · exact accounts_answered w.accounts o _
  · trivial
  · cases o with
    | randomBytes n => simp only [Answered, exec, CoachOp.exec, List.length_take, List.length_rightpad]; omega
    | _ => trivial

/-! ## What a request returns -/

/-- How a call ends. -/
def Call.final (S : Services) : Call → Past → Except Failure Reply → Prop
  | .acceptInvite _ _, past, .ok (.session session) =>
      ∃ data, ⟨Op.auth (.coachCreate data), .ok session.coach⟩ ∈ past
  | .getClient coachId, past, .ok (.client refreshToken) =>
      ∃ g, ⟨Op.coaches (.findConnection coachId), .ok (some g)⟩ ∈ past ∧
        decrypt S.crypto g.refreshTokenEncrypted S.encryptionKey = .ok refreshToken
  | _, _, _ => True

/-! ## The guards -/

section Guards

variable {β : Type} {authorization : Option String} {f : Coach → AccessProg β} {final : Past → Except Failure β → Prop}

theorem canActivate_follows
    (hok : ∀ past' coach, past ⊆ past' → Admitted S.jwt past' authorization coach →
      (f coach).Follows ((policy S).protocol call) final past')
    (herr : ∀ past' e, final past' (.error e)) :
    ((JwtAuthGuard.canActivate S.jwt authorization).bind f).Follows ((policy S).protocol call) final past := by
  unfold JwtAuthGuard.canActivate
  split
  · exact herr _ _
  · rename_i token ht
    split
    · exact herr _ _
    · rename_i hne
      simp only [bind_eq, bind_assoc]
      rw [follows_bind, accounts, follows_inl]
      unfold Auth.atPresent
      simp only [bind_eq]
      refine .perform_bind (.read rfl) (fun now _ => ?_) fun e he => he.elim
      cases hv : Auth.TokenService.verify S.jwt token now with
      | error e => exact herr _ _
      | ok payload =>
          refine .perform_bind (.read rfl) (fun found hfound => ?_) fun e _ => herr _ _
          cases found with
          | none => exact herr _ _
          | some coach =>
              have hsub : payload.sub = some coach.id := hfound
              dsimp only
              split
              · exact herr _ _
              · rename_i hnew
                refine hok _ coach (fun e he => by simp [Protocol.left, he]) ⟨now, ?_, ?_, ?_⟩
                · simp [Protocol.left]
                · simp [hsub]
                · have hfind : (⟨[coach], List.nodup_singleton _⟩ : Table Coach.id).find coach.id = some coach :=
                    Table.find_some.mpr ⟨List.mem_singleton.mpr rfl, rfl⟩
                  simp only [Auth.canActivate, ht, if_neg hne, hv, bind_ok, hsub, hfind]
                  rw [if_neg hnew]
                  rfl

theorem adminOnly_follows
    (hok : ∀ past', past ⊆ past' → Administers S.jwt past' authorization → ∀ admin,
      (f admin).Follows ((policy S).protocol call) final past')
    (herr : ∀ past' e, final past' (.error e)) :
    ((adminOnly S.jwt authorization).bind f).Follows ((policy S).protocol call) final past := by
  unfold adminOnly
  simp only [bind_eq, bind_assoc]
  refine canActivate_follows (fun past' admin hp ha => ?_) herr
  unfold RolesGuard.canActivate
  cases hrole : admin.role with
  | admin =>
      simp only [List.isEmpty_cons, Bool.false_eq_true, if_false, hrole]
      exact hok past' hp ⟨admin, ha, hrole⟩ admin
  | coach =>
      simp only [List.isEmpty_cons, Bool.false_eq_true, if_false, hrole]
      exact herr _ _

end Guards

/-! ## The public routes -/

theorem login_follows (email password : String) :
    ((Call.login email password).body S).Follows ((policy S).protocol (.login email password))
      ((Call.login email password).final S) [] := by
  simp only [Call.body, Auth.AuthService.login, Auth.signAccessToken, bind_eq]
  rw [follows_bind, accounts, follows_inl]
  refine .perform_bind (.read rfl) (fun found hfound => ?_) fun e _ => trivial
  cases found with
  | none => exact trivial
  | some coach =>
      refine .perform_bind (.read rfl) (fun matched hmatched => ?_) fun e _ => trivial
      cases matched with
      | false => exact trivial
      | true =>
          refine .perform_bind (.login (?_ : FoundByEmail _ email coach) ?_) (fun token _ => trivial)
            fun e _ => trivial
          · simp [Protocol.left, FoundByEmail]
          · simp [Protocol.left, Matched]

theorem acceptInvite_follows (token password : String) :
    ((Call.acceptInvite token password).body S).Follows ((policy S).protocol (.acceptInvite token password))
      ((Call.acceptInvite token password).final S) [] := by
  simp only [Call.body, Auth.CoachesService.acceptInvite, Auth.signAccessToken, Auth.atPresent, bind_eq, bind_assoc]
  rw [follows_bind, accounts, follows_inl]
  refine .perform_bind (.read rfl) (fun now _ => ?_) fun e _ => trivial
  cases hv : Auth.TokenService.verifyCoachInviteToken S.jwt token now with
  | error e => exact trivial
  | ok invite =>
      refine .perform_bind (.read rfl) (fun existing _ => ?_) fun e _ => trivial
      cases existing with
      | some _ => exact trivial
      | none =>
          refine .perform_bind (.read rfl) (fun hash _ => ?_) fun e _ => trivial
          refine .perform_bind (.accept ⟨now, by simp [Protocol.left], hv⟩) (fun coach _ => ?_) fun e _ => trivial
          refine .perform_bind (.accepted (by simp [Protocol.left]; rfl)) (fun session _ => ?_) fun e _ => trivial
          exact ⟨_, by simp [Protocol.left]; rfl⟩

theorem forgotPassword_follows (email : String) (requestOrigin : Option String) :
    ((Call.forgotPassword email requestOrigin).body S).Follows
      ((policy S).protocol (.forgotPassword email requestOrigin))
      ((Call.forgotPassword email requestOrigin).final S) [] := by
  simp only [Call.body, Auth.AuthService.forgotPassword, bind_eq]
  rw [follows_bind, accounts, follows_inl]
  refine .perform_bind (.read rfl) (fun found _ => ?_) fun e _ => trivial
  cases found with
  | none => exact trivial
  | some coach =>
      have hfound : FoundByEmail [⟨.auth (.coachFindByEmail (some email)), .ok (some coach)⟩] email coach :=
        List.mem_singleton.mpr rfl
      dsimp only
      split
      · exact trivial
      · split
        · exact trivial
        · refine .perform_bind (.forgot hfound) (fun token _ => ?_) fun e _ => trivial
          exact follows_perform.mpr ⟨.resetMail (by simp [Protocol.left, FoundByEmail])
            (by simp [Protocol.left, Signed]), fun r _ => by cases r <;> trivial⟩

theorem resetPassword_follows (token newPassword : String) :
    ((Call.resetPassword token newPassword).body S).Follows ((policy S).protocol (.resetPassword token newPassword))
      ((Call.resetPassword token newPassword).final S) [] := by
  simp only [Call.body, Auth.AuthService.resetPassword, Auth.signAccessToken, Auth.atPresent, bind_eq, bind_assoc]
  rw [follows_bind, accounts, follows_inl]
  refine .perform_bind (.read rfl) (fun now _ => ?_) fun e _ => trivial
  cases hv : Auth.TokenService.verifyPasswordResetToken S.jwt token now with
  | error e => exact trivial
  | ok reset =>
      refine .perform_bind (.read rfl) (fun found hfound => ?_) fun e _ => trivial
      cases found with
      | none => exact trivial
      | some coach =>
          have hid : reset.coachId = some coach.id := hfound
          dsimp only
          split
          · exact trivial
          · rename_i hnew
            have hr : MayReset S.jwt [⟨.auth .now, .ok now⟩, ⟨.auth (.coachFindUnique reset.coachId), .ok (some coach)⟩]
                token coach := by
              refine ⟨reset, ⟨now, by simp, hv⟩, hid, by simp [hid], fun R hR => ?_⟩
              simpa [hR] using hnew
            refine .perform_bind (.read rfl) (fun hash _ => ?_) fun e _ => trivial
            refine .perform_bind (.read rfl) (fun revokedAt _ => ?_) fun e _ => trivial
            refine .perform_bind (.reset (hr.mono (by simp [Protocol.left]))) (fun updated hupdated => ?_)
              fun e _ => trivial
            have hid' : updated.id = coach.id := hupdated
            refine .perform_bind (.resetSession (hr.mono (by simp [Protocol.left])) hid') (fun session _ => trivial)
              fun e _ => trivial

/-! ## The routes of a coach -/

section Guarded

variable {authorization : Option String} {coach : Coach}

theorem changePassword_follows {dto : ChangePasswordDto} (ha : Admitted S.jwt past authorization coach) :
    ((CoachesService.changePassword coach dto).bind fun _ => .pure Reply.nothing).Follows
      ((policy S).protocol (.changePassword authorization dto)) (fun _ _ => True) past := by
  simp only [CoachesService.changePassword, bind_eq, bind_assoc]
  refine .perform_bind (.read rfl) (fun matched _ => ?_) fun e _ => trivial
  cases matched with
  | false => exact trivial
  | true =>
      simp only [Bool.not_true, Bool.false_eq_true, if_false, bind_assoc]
      refine .perform_bind (.read rfl) (fun hash _ => ?_) fun e _ => trivial
      refine .perform_bind (.changePassword (ha.mono ?_) ?_) (fun updated _ => trivial) fun e _ => trivial
      · exact fun e he => by simp [he]
      · simp [Matched]

theorem invite_follows {dto : InviteCoachDto} (ha : Administers S.jwt past authorization) :
    ((CoachesService.invite dto).bind fun _ => .pure Reply.nothing).Follows
      ((policy S).protocol (.invite authorization dto)) (fun _ _ => True) past := by
  simp only [CoachesService.invite, bind_eq, bind_assoc]
  refine .perform_bind (.read rfl) (fun existing _ => ?_) fun e _ => trivial
  cases existing with
  | some _ => exact trivial
  | none =>
      simp only [Option.isSome_none, Bool.false_eq_true, if_false, bind_assoc]
      refine .perform_bind (.read rfl) (fun allowed _ => ?_) fun e _ => trivial
      cases allowed with
      | none => exact trivial
      | some row =>
          simp only [Option.isNone_some, Bool.false_eq_true, if_false, bind_assoc]
          refine .perform_bind (.read rfl) (fun taken _ => ?_) fun e _ => trivial
          cases taken with
          | some _ => exact trivial
          | none =>
              simp only [Option.isSome_none, Bool.false_eq_true, if_false, bind_assoc]
              refine .perform_bind (.invite (ha.mono fun e he => by simp [he]) ⟨row, by simp⟩) (fun token _ => ?_)
                fun e _ => trivial
              refine .perform_bind (.inviteMail (ha.mono fun e he => by simp [he]) (by simp [Signed]))
                (fun _ _ => trivial) fun e _ => trivial

theorem setFrontendUrl_follows {id frontendUrl : String} (ha : Administers S.jwt past authorization) :
    ((CoachesService.setFrontendUrl id frontendUrl).bind fun coach => .pure (Reply.coach coach)).Follows
      ((policy S).protocol (.setFrontendUrl authorization id frontendUrl)) (fun _ _ => True) past := by
  simp only [CoachesService.setFrontendUrl, bind_eq, bind_assoc]
  refine .perform_bind (.read rfl) (fun allowed _ => ?_) fun e _ => trivial
  cases allowed with
  | none => exact trivial
  | some row =>
      simp only [Option.isNone_some, Bool.false_eq_true, if_false, bind_assoc]
      refine .perform_bind (.read rfl) (fun taken _ => ?_) fun e _ => trivial
      split
      · exact trivial
      · refine .perform_bind (.setSite (ha.mono fun e he => by simp [he]) ⟨row, by simp⟩) (fun _ _ => trivial)
          fun e _ => trivial

theorem revokeSessions_follows {id : String} (ha : Administers S.jwt past authorization) :
    ((accounts (Auth.CoachesService.revokeSessions id)).bind fun session => .pure (Reply.coach session.coach)).Follows
      ((policy S).protocol (.revokeSessions authorization id)) (fun _ _ => True) past := by
  rw [follows_bind, accounts, follows_inl]
  refine .perform_bind (.read rfl) (fun revokedAt _ => ?_) fun e _ => trivial
  exact .perform_bind (.revoke (ha.mono fun e he => by simp [Protocol.left, he])) (fun _ _ => trivial) fun e _ => trivial

theorem addOrigin_follows {k : Nat} {dto : Origins.CreateAllowedOriginDto}
    (ha : Administers S.jwt past authorization) :
    ((origins (Origins.AllowedOriginsService.add k dto)).bind fun row => .pure (Reply.origin row)).Follows
      ((policy S).protocol (.addOrigin authorization k dto)) (fun _ _ => True) past := by
  rw [follows_bind, origins, follows_inr, follows_inl]
  simp only [Origins.AllowedOriginsService.add, bind_eq]
  refine .perform_bind (.read rfl) (fun existing _ => ?_) fun e _ => trivial
  split
  · exact trivial
  · refine .perform_bind (.addOrigin (ha.mono fun e he => by simp [Protocol.left, Protocol.right, he]))
      (fun row _ => ?_) fun e _ => trivial
    exact .perform_bind (.read rfl) (fun _ _ => trivial) fun e _ => trivial

theorem removeOrigin_follows {k : Nat} {id : String} (ha : Administers S.jwt past authorization) :
    ((origins (Origins.AllowedOriginsService.remove k id)).bind fun _ => .pure Reply.nothing).Follows
      ((policy S).protocol (.removeOrigin authorization k id)) (fun _ _ => True) past := by
  rw [follows_bind, origins, follows_inr, follows_inl]
  simp only [Origins.AllowedOriginsService.remove, bind_eq]
  refine .perform_bind (.removeOrigin ha) (fun _ _ => ?_) fun e _ => trivial
  refine follows_perform.mpr ⟨.read rfl, fun r _ => ?_⟩
  cases r <;> trivial

end Guarded

/-! ## The Google account -/

theorem encryptSecret_follows {secret : String} {β : Type} {f : String → AccessProg β}
    {final : Past → Except Failure β → Prop}
    (hok : ∀ past' payload iv, past ⊆ past' → iv.length = IV_LENGTH →
      encrypt S.crypto secret S.encryptionKey iv = .ok payload → (f payload).Follows ((policy S).protocol call) final past')
    (herr : ∀ past' e, final past' (.error e)) :
    ((GoogleOAuthService.encryptSecret S secret).bind f).Follows ((policy S).protocol call) final past := by
  simp only [GoogleOAuthService.encryptSecret, bind_eq, bind_assoc]
  refine .perform_bind (.read rfl) (fun iv hiv => ?_) fun e _ => herr _ _
  cases he : encrypt S.crypto secret S.encryptionKey iv with
  | ok payload => exact hok _ payload iv (fun e he => by simp [he]) hiv he
  | error e => exact herr _ _

theorem callback_follows (code : Option String) (state : String) :
    ((Call.callback code state).body S).Follows ((policy S).protocol (.callback code state))
      ((Call.callback code state).final S) [] := by
  simp only [Call.body, GoogleController.callback, bind_eq, bind_assoc]
  rw [follows_bind, accounts, follows_inl]
  simp only [Auth.atPresent, bind_eq]
  refine .perform_bind (.read rfl) (fun now _ => ?_) fun e _ => trivial
  cases hv : Auth.TokenService.verifyGoogleConnectState S.jwt state now with
  | error e => exact trivial
  | ok coachId =>
      have hverified : Verified [⟨Op.auth .now, .ok now⟩] (Auth.TokenService.verifyGoogleConnectState S.jwt state)
          coachId := ⟨now, List.mem_singleton.mpr rfl, hv⟩
      show Follows _ _ _ (Prog.bind (GoogleOAuthService.handleCallback S code coachId) _)
      unfold GoogleOAuthService.handleCallback
      split
      · exact trivial
      · rename_i code' hcode
        obtain ⟨rfl, _⟩ := Option.filter_eq_some_iff.mp hcode
        simp only [bind_eq, bind_assoc]
        refine .perform_bind (.read rfl) (fun refreshToken _ => ?_) fun e _ => trivial
        split
        · exact trivial
        · rename_i refreshToken hrefresh
          obtain ⟨rfl, _⟩ := Option.filter_eq_some_iff.mp hrefresh
          simp only [bind_assoc]
          refine .perform_bind (.read rfl) (fun email _ => ?_) fun e _ => trivial
          refine encryptSecret_follows (fun past₁ created iv₁ hp₁ hiv₁ he₁ => ?_) fun _ _ => trivial
          have htoken : ⟨Op.coaches (.getToken code'), .ok (some refreshToken)⟩ ∈ past₁ := hp₁ (by simp)
          have hverified : Verified past₁ _ coachId := hverified.mono fun e he => hp₁ (by
            simp [Protocol.left, List.mem_singleton.mp he])
          refine encryptSecret_follows (fun past₂ updated iv₂ hp₂ hiv₂ he₂ => ?_) fun _ _ => trivial
          refine .perform_bind (.read rfl) (fun connectedAt _ => ?_) fun e _ => trivial
          have hp : past₁ ⊆ past₂ ++ [⟨.auth .now, .ok connectedAt⟩] := fun e he => List.mem_append_left _ (hp₂ he)
          refine .perform_bind (.callback (hverified.mono hp) ?_ ?_) (fun _ _ => trivial) fun e _ => trivial
          · exact ⟨code', refreshToken, iv₁, rfl, hiv₁, hp htoken, he₁⟩
          · exact ⟨code', refreshToken, iv₂, rfl, hiv₂, hp htoken, he₂⟩

theorem getClient_follows (coachId : String) :
    ((Call.getClient coachId).body S).Follows ((policy S).protocol (.getClient coachId))
      ((Call.getClient coachId).final S) [] := by
  simp only [Call.body, GoogleOAuthService.getAuthenticatedClient, bind_eq, bind_assoc]
  refine .perform_bind (.read rfl) (fun connection _ => ?_) fun e _ => trivial
  cases connection with
  | none => exact trivial
  | some g =>
      dsimp only
      cases hd : decrypt S.crypto g.refreshTokenEncrypted S.encryptionKey with
      | error e => exact trivial
      | ok refreshToken => exact ⟨g, by simp, hd⟩

/-! ## Every route -/

theorem Call.body_follows (call : Call) : (call.body S).Follows ((policy S).protocol call) (call.final S) [] := by
  cases call with
  | login email password => exact login_follows email password
  | acceptInvite token password => exact acceptInvite_follows token password
  | forgotPassword email requestOrigin => exact forgotPassword_follows email requestOrigin
  | resetPassword token newPassword => exact resetPassword_follows token newPassword
  | findAll authorization =>
      exact adminOnly_follows (fun past' _ _ _ => .perform_bind (.read rfl) (fun _ _ => trivial) fun _ _ => trivial)
        fun _ _ => trivial
  | me authorization => exact canActivate_follows (fun _ _ _ _ => trivial) fun _ _ => trivial
  | updateMe authorization dto =>
      exact canActivate_follows (fun _ _ _ ha => .perform_bind (.updateMe ha) (fun _ _ => trivial) fun _ _ => trivial)
        fun _ _ => trivial
  | changePassword authorization dto =>
      exact canActivate_follows (fun _ _ _ ha => changePassword_follows ha) fun _ _ => trivial
  | invite authorization dto => exact adminOnly_follows (fun _ _ ha _ => invite_follows ha) fun _ _ => trivial
  | revokeSessions authorization id =>
      exact adminOnly_follows (fun _ _ ha _ => revokeSessions_follows ha) fun _ _ => trivial
  | setFrontendUrl authorization id frontendUrl =>
      exact adminOnly_follows (fun _ _ ha _ => setFrontendUrl_follows ha) fun _ _ => trivial
  | listOrigins authorization =>
      exact adminOnly_follows (fun past' _ _ _ => .perform_bind (.read rfl) (fun _ _ => trivial) fun _ _ => trivial)
        fun _ _ => trivial
  | addOrigin authorization k dto => exact adminOnly_follows (fun _ _ ha _ => addOrigin_follows ha) fun _ _ => trivial
  | removeOrigin authorization k id =>
      exact adminOnly_follows (fun _ _ ha _ => removeOrigin_follows ha) fun _ _ => trivial
  | connectToken authorization =>
      exact canActivate_follows
        (fun _ _ _ ha => .perform_bind (.connectToken ha) (fun _ _ => trivial) fun _ _ => trivial) fun _ _ => trivial
  | connect state =>
      simp only [Call.body, GoogleController.connect, Auth.atPresent, bind_eq, bind_assoc]
      rw [follows_bind, accounts, follows_inl]
      refine .perform_bind (.read rfl) (fun now _ => ?_) fun e _ => trivial
      cases Auth.TokenService.verifyGoogleConnectState S.jwt state now <;> exact trivial
  | callback code state => exact callback_follows code state
  | status authorization =>
      refine canActivate_follows (fun _ coach _ _ => ?_) fun _ _ => trivial
      simp only [GoogleOAuthService.status, bind_eq, bind_assoc]
      refine .perform_bind (.read rfl) (fun connection _ => ?_) fun e _ => trivial
      cases connection <;> exact trivial
  | getClient coachId => exact getClient_follows coachId

theorem access_licensed : (accessSystem S).Licensed (policy S) (Call.final S) :=
  ⟨Call.body_follows, exec_answered⟩

end CoachingCalendar.Access
