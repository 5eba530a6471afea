import CoachingCalendar.Access.Lemmas.Tokens

/-!
# Google accounts

The calendar of a coach is the one that somebody connected with a link signed for this coach, and the token in the
database reads back as Google gave it.
-/

namespace CoachingCalendar.Access
open Lib Lib.Prog Lib.System

variable {S : Services} {G : AccessGuard} {w w' : World} {c : AccessConfig} {past : Past} {call : Call}

/-! ## Where a connection comes from -/

/-- The connection was there at the start, or a callback has put it there. -/
def Stored (w : World) (log : List AccessEntry) (id : String) (g : GoogleConnection) : Prop :=
  w.connections.find id = some g ∨ ∃ l ∈ log, ∃ create update connectedAt account,
    l.op = .coaches (.upsertConnection (some id) create update connectedAt) ∧ (account = create ∨ account = update) ∧
      g.refreshTokenEncrypted = account.refreshTokenEncrypted

theorem Stored.append {log t : List AccessEntry} {id : String} {g : GoogleConnection} (h : Stored w log id g) :
    Stored w (log ++ t) id g :=
  h.imp_right fun ⟨l, hl, hrest⟩ => ⟨l, List.mem_append_left _ hl, hrest⟩

theorem exec_findConnection {id : String} {g : GoogleConnection} {ch : Choice}
    (h : exec S w (.coaches (.findConnection id)) ch = (.ok (some g), w')) : w.connections.find id = some g := by
  rcases mayFail_cases h with ⟨_, he, _⟩ | h
  · cases he
  · exact Except.ok.inj (congrArg Prod.fst h)

/-- Connections that are in the table, and those that were read. -/
structure Traced (w : World) (c : AccessConfig) : Prop where
  table : ∀ id g, c.world.connections.find id = some g → Stored w c.log id g
  read : ∀ l ∈ c.log, ∀ id g, l.toEvent = ⟨.coaches (.findConnection id), .ok (some g)⟩ → Stored w c.log id g

theorem run_traced (h : (accessSystem S).Run G (.start w) c) : Traced w c := by
  refine accessRun_recorded h ⟨fun _ _ hf => .inl hf, fun _ hl => absurd hl List.not_mem_nil⟩
    (fun _ _ _ hI => ⟨hI.table, hI.read⟩) (fun _ _ hI => ⟨hI.table, hI.read⟩) ?_
  intro c i call o k ch r w' _ hI _ _ hx _ _
  refine ⟨fun id g hf => ?_, fun l hl id g he => ?_⟩
  · rcases exec_connection hx id with he | ⟨create, update, connectedAt, ho, hself⟩
    · rw [he] at hf
      exact (hI.table id g hf).append
    · obtain ⟨account, haccount, hg⟩ := hself g hf
      exact .inr ⟨_, List.mem_append_right _ (List.mem_singleton.mpr rfl), create, update, connectedAt, account, ho,
        haccount, hg⟩
  · rcases List.mem_append.mp hl with hl | hl
    · exact (hI.read l hl id g he).append
    · obtain rfl := List.mem_singleton.mp hl
      cases he
      exact (hI.table id g (exec_findConnection hx)).append

theorem Permitted.connects {payload : Auth.Claims} {expiresIn : Int}
    (h : Permitted S past call (.auth (.sign payload expiresIn)))
    (hp : payload.purpose = some Auth.GOOGLE_CONNECT_STATE_PURPOSE) : ∃ authorization coach,
      call = .connectToken authorization ∧ payload = Auth.TokenService.connectStateClaims coach.id ∧
      expiresIn = Auth.GOOGLE_CONNECT_STATE_TTL ∧ Admitted S.jwt past authorization coach := by
  cases h with
  | read hr => cases hr
  | connectToken ha => exact ⟨_, _, rfl, rfl, rfl, ha⟩
  | _ => simp [Auth.AccessTokenPayload.claims, Auth.TokenService.resetClaims, Auth.TokenService.inviteClaims,
      Auth.COACH_INVITE_PURPOSE, Auth.PASSWORD_RESET_PURPOSE, Auth.GOOGLE_CONNECT_STATE_PURPOSE] at hp

/-- Without forged tokens the client of a coach works with the token that Google gave to a callback. Its link read back
as what was signed for this coach, at the request of someone let through as this coach. -/
theorem client_of_own_account (hk : S.crypto.Accepts (Base64.decode S.encryptionKey))
    (h : (accessSystem S).Run (authentic S) (.start w) c) {coachId refreshToken : String}
    (hw : w.connections.find coachId = none) {i : Nat}
    (hi : c.Ended i (.getClient coachId) (.ok (.client refreshToken))) :
    ∃ j code state, ∃ now : Int, ∃ m : Auth.Minted, c.callOf j = some (.callback (some code) state) ∧
      ⟨Op.coaches (.getToken code), .ok (some refreshToken)⟩ ∈ c.past j ∧ ⟨Op.auth .now, .ok now⟩ ∈ c.past j ∧
      Auth.TokenService.verifyGoogleConnectState S.jwt state now = .ok (some coachId) ∧
      S.jwt.verify state now = some m.claims ∧
      (m ∈ w.accounts.minted ∨ ∃ j' authorization coach, c.callOf j' = some (.connectToken authorization) ∧
        coach.id = coachId ∧ Admitted S.jwt (c.past j') authorization coach ∧
        Signed (c.past j') (Auth.TokenService.connectStateClaims coachId) Auth.GOOGLE_CONNECT_STATE_TTL
          (S.jwt.encode m.claims)) := by
  obtain ⟨g, hg, hd⟩ := access_licensed.ended h hi
  obtain ⟨l, hl, _, he⟩ := mem_past.mp hg
  obtain hf | ⟨l', hl', create, update, connectedAt, account, hop, haccount, hsecret⟩ :=
    (run_traced h).read l hl coachId g he
  · rw [hw] at hf; cases hf
  · obtain ⟨call, hcall, hp, _⟩ := access_licensed.log h l' hl'
    rw [hop] at hp
    cases hp with
    | read hr => cases hr
    | @callback code state _ _ _ _ hv hc hu =>
        have hencrypted : Encrypted S (c.past l'.tid) code account := by
          rcases haccount with rfl | rfl
          · exact hc
          · exact hu
        obtain ⟨code, refreshToken', iv, rfl, hiv, htoken, henc⟩ := hencrypted
        obtain ⟨payload, hpayload, hback⟩ := @decrypt_encrypt S.crypto S.encryptionKey refreshToken' hk iv hiv
        cases henc.symm.trans hpayload
        rw [hsecret, hback] at hd
        cases hd
        obtain ⟨m, hm, hpurpose, hsub, now, hnow, hok, hread⟩ := connect_genuine h hcall rfl hv
        refine ⟨l'.tid, code, state, now, m, hcall, htoken, hnow, hok, hread, (run_minted h m hm).imp_right ?_⟩
        rintro ⟨j', hs⟩
        obtain ⟨l₂, hl₂, rfl, he₂⟩ := mem_past.mp hs
        obtain ⟨call₂, hcall₂, hp₂, _⟩ := access_licensed.log h l₂ hl₂
        rw [show l₂.op = _ from congrArg Event.op he₂] at hp₂
        obtain ⟨authorization, coach, rfl, hpayload, hexpires, ha⟩ := hp₂.connects hpurpose
        have hid : coach.id = coachId := by
          rw [hpayload] at hsub
          exact Option.some.inj hsub
        rw [hpayload, hid, hexpires] at hs
        exact ⟨l₂.tid, authorization, coach, hcall₂, hid, ha, hs⟩

/-- The sample coach connects an account, and the calendar service takes it. -/
theorem client_of_own_account_sample : ∃ c, (accessSystem .sample).Run (authentic .sample) (.start .sample) c ∧
    ∃ j code state, ∃ now : Int, ∃ m : Auth.Minted, c.callOf j = some (.callback (some code) state) ∧
      ⟨Op.coaches (.getToken code), .ok (some "refresh")⟩ ∈ c.past j ∧
      Services.sample.jwt.verify state now = some m.claims ∧
      (m ∈ World.sample.accounts.minted ∨ ∃ j' authorization coach, c.callOf j' = some (.connectToken authorization) ∧
        coach.id = "c1" ∧ Admitted Services.sample.jwt (c.past j') authorization coach ∧
        Signed (c.past j') (Auth.TokenService.connectStateClaims "c1") Auth.GOOGLE_CONNECT_STATE_TTL
          (Services.sample.jwt.encode m.claims)) := by
  obtain ⟨c, h, hp⟩ := run_of_play (S := accessSystem .sample) (G := authentic .sample) (c := .start .sample)
    ([.spawn (.login "coach@example.com" "hash")] ++ fires 0 3 ++
      [.spawn (.connectToken (some "Bearer coach"))] ++ fires 1 3 ++
      [.spawn (.callback (some "code") "state")] ++ fires 2 7 { google := some "refresh", bytes := NodeCrypto.sampleIv } ++
      [.spawn (.getClient "c1")] ++ fires 3 1)
    (fun c => c.returned 3 = some (.getClient "c1", .client "refresh")) (by decide +kernel)
  obtain ⟨j, code, state, now, m, hcall, htoken, _, _, hread, hsigned⟩ := client_of_own_account
    (NodeCrypto.sample_accepts (by decide +kernel)) h rfl (Config.ended_of_returned (of_decide_eq_true hp))
  exact ⟨c, h, j, code, state, now, m, hcall, htoken, hread, hsigned⟩

end CoachingCalendar.Access
