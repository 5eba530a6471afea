import CoachingCalendar.Access.Invites
import CoachingCalendar.Notifications.Calendar
import Mathlib.Data.List.TakeWhile

/-!
# Mailed links

`CoachInviteEmailService.sendInvite`, and what a browser that follows the link of an invite or of a reset mail hands
back: the token that was signed, for as long as it is good.
-/

namespace CoachingCalendar.Access
open Lib Lib.Prog Lib.System

/-! ## The invite mail -/

namespace InviteMail

variable (mail : InviteMail)

def acceptUrl : String := mail.frontendUrl ++ "/accept-invite?token=" ++ Auth.encodeURIComponent mail.token

def subject : String := "Meghívó a fiókod beállításához"

def html : String := "
      <div style=\"font-family: sans-serif; max-width: 480px; margin: 0 auto;\">
        <h1 style=\"font-size: 20px;\">Meghívó</h1>
        <p>Szia " ++ Auth.escapeHtml mail.name ++ "!</p>
        <p>Létrehoztunk neked egy fiókot. A jelszavad beállításához kattints az alábbi linkre:</p>
        <p>
          " ++ "<a href=\"" ++ mail.acceptUrl ++ "\"" ++ " style=\"display: inline-block; padding: 10px 20px; background: #1a1a1f; color: #fff; text-decoration: none; border-radius: 6px;\">
            Jelszó beállítása
          </a>
        </p>
        <p style=\"color: #666; font-size: 13px;\">
          Ha a gomb nem működik, másold be ezt a linket a böngésződbe: " ++ mail.acceptUrl ++ "
        </p>
        <p style=\"color: #666; font-size: 13px;\">A link 7 napig érvényes.</p>
      </div>
    "

end InviteMail

/-- The text has a link to the url, which ends no attribute and has nothing to decode in it. -/
def LinksTo (html url : String) : Prop :=
  (∀ c ∈ url.toList, c ≠ '"' ∧ c ≠ '&') ∧ ∃ before after, html = before ++ "<a href=\"" ++ url ++ "\"" ++ after

/-! ## Encoded tokens -/

section Query

/-- What `encodeURIComponent` makes of one character. -/
def encodeChar (c : Char) : List Char :=
  if Auth.isUnescaped c then [c] else (String.utf8EncodeChar c).flatMap Auth.percentEncode

theorem toList_encodeURIComponent (s : String) : (Auth.encodeURIComponent s).toList = s.toList.flatMap encodeChar :=
  String.toList_ofList

/-- It separates nothing in a query, and is only itself in an attribute. -/
def Inert (c : Char) : Prop := c ≠ '&' ∧ c ≠ '=' ∧ c ≠ '#' ∧ c ≠ '"'

instance (c : Char) : Decidable (Inert c) := inferInstanceAs (Decidable (_ ∧ _))

theorem unescaped_inert {c : Char} (h : Auth.isUnescaped c = true) : Inert c ∧ c ≠ '+' ∧ c ≠ '%' := by
  refine ⟨⟨?_, ?_, ?_, ?_⟩, ?_, ?_⟩ <;> (rintro rfl; revert h; decide)

theorem upperHex_inert : ∀ n < 16, Inert (FormUrlencoded.upperHex n) := by decide

theorem percentEncode_inert {b : UInt8} {c : Char} (h : c ∈ Auth.percentEncode b) : Inert c := by
  have hb := b.toNat_lt
  simp only [Auth.percentEncode, List.mem_cons, List.not_mem_nil, or_false] at h
  rcases h with rfl | rfl | rfl
  · decide
  · exact upperHex_inert _ (by omega)
  · exact upperHex_inert _ (by omega)

theorem encodeURIComponent_inert {s : String} {c : Char} (h : c ∈ (Auth.encodeURIComponent s).toList) : Inert c := by
  rw [toList_encodeURIComponent] at h
  obtain ⟨x, -, hc⟩ := List.mem_flatMap.mp h
  unfold encodeChar at hc
  split at hc
  · rename_i hx
    obtain rfl := List.mem_singleton.mp hc
    exact (unescaped_inert hx).1
  · obtain ⟨b, -, hb⟩ := List.mem_flatMap.mp hc
    exact percentEncode_inert hb

theorem decodeBytes_percentEncode (bytes : List UInt8) (l : List Char) :
    FormUrlencoded.decodeBytes (bytes.flatMap Auth.percentEncode ++ l) = bytes ++ FormUrlencoded.decodeBytes l := by
  induction bytes with
  | nil => rfl
  | cons b bytes ih =>
      rw [List.flatMap_cons, List.append_assoc, List.cons_append, ← ih]
      exact FormUrlencoded.decodeBytes_hex b _

theorem decodeBytes_encodeChar (c : Char) (l : List Char) :
    FormUrlencoded.decodeBytes (encodeChar c ++ l) = String.utf8EncodeChar c ++ FormUrlencoded.decodeBytes l := by
  unfold encodeChar
  split
  · rename_i hc
    exact FormUrlencoded.decodeBytes_cons l (unescaped_inert hc).2.1 (unescaped_inert hc).2.2
  · exact decodeBytes_percentEncode _ l

theorem utf8_eq (s : String) : FormUrlencoded.utf8 s = s.toList.flatMap String.utf8EncodeChar := by
  rw [FormUrlencoded.utf8, String.toUTF8, ← String.utf8Encode_toList, List.utf8Encode]
  simp

theorem decode_encodeURIComponent (s : String) :
    FormUrlencoded.decode (Auth.encodeURIComponent s).toList = some s := by
  have decoded : ∀ l : List Char, FormUrlencoded.decodeBytes (l.flatMap encodeChar) =
      l.flatMap String.utf8EncodeChar := by
    intro l
    induction l with
    | nil => rfl
    | cons c l ih => rw [List.flatMap_cons, decodeBytes_encodeChar, ih, List.flatMap_cons]
  rw [toList_encodeURIComponent, FormUrlencoded.decode, decoded, ← utf8_eq, FormUrlencoded.ofUtf8_utf8]

/-! ## Links -/

/-- `new URL(url).searchParams.get(name)`, for a url that `new URL` leaves as it is. -/
def searchParam (name url : String) : Option String :=
  queryParam name (String.ofList (url.toList.takeWhile (· ≠ '#')))

/-- It begins no query and no fragment, and is only itself in an attribute. -/
def Bare (site : String) : Prop := ∀ c ∈ site.toList, (c ≠ '?' ∧ c ≠ '#') ∧ c ≠ '"' ∧ c ≠ '&'

instance (site : String) : Decidable (Bare site) := List.decidableBAll _ site.toList

theorem query_link {before query : List Char} (hbefore : ∀ c ∈ before, c ≠ '?' ∧ c ≠ '#') (hquery : '#' ∉ query) :
    (((before ++ '?' :: query).takeWhile (· ≠ '#')).dropWhile (· ≠ '?')).drop 1 = query := by
  have hhash : ∀ c ∈ before ++ '?' :: query, decide (c ≠ '#') = true := by
    intro c hc
    refine decide_eq_true ?_
    rcases List.mem_append.mp hc with hc | hc
    · exact (hbefore c hc).2
    · rcases List.mem_cons.mp hc with rfl | hc
      · decide
      · exact fun he => hquery (he ▸ hc)
  rw [List.takeWhile_eq_self_iff.mpr hhash,
    List.dropWhile_append_of_pos fun c hc => decide_eq_true (hbefore c hc).1]
  rfl

/-- A link to a page of a bare site hands back the token that it was made with. -/
theorem searchParam_link {site path token : String} (hsite : Bare site) (hpath : Bare path) :
    searchParam "token" (site ++ (path ++ "?token=") ++ Auth.encodeURIComponent token) = some token := by
  have apart : ∀ {x : Char}, x ∉ "token=".toList → ¬ Inert x →
      x ∉ "token=".toList ++ (Auth.encodeURIComponent token).toList := by
    intro x hx hinert hmem
    rcases List.mem_append.mp hmem with h | h
    · exact hx h
    · exact hinert (encodeURIComponent_inert h)
  have hurl : (site ++ (path ++ "?token=") ++ Auth.encodeURIComponent token).toList =
      (site.toList ++ path.toList) ++ '?' :: ("token=".toList ++ (Auth.encodeURIComponent token).toList) := by simp
  have hname : FormUrlencoded.decode ['t', 'o', 'k', 'e', 'n'] = some "token" := by decide
  have hpair : FormUrlencoded.parsePair ("token=".toList ++ (Auth.encodeURIComponent token).toList) =
      some ("token", token) := by
    simp [FormUrlencoded.parsePair, guard, hname, decode_encodeURIComponent]
  rw [searchParam, queryParam, String.toList_ofList, hurl,
    query_link (List.forall_mem_append.mpr ⟨fun c hc => (hsite c hc).1, fun c hc => (hpath c hc).1⟩)
      (apart (by decide) (by decide)), FormUrlencoded.parse,
    List.splitOn_eq_singleton (apart (by decide) (by decide)), List.filterMap_cons, hpair]
  rfl

theorem link_plain {site path token : String} (hsite : Bare site) (hpath : Bare path) :
    ∀ c ∈ (site ++ (path ++ "?token=") ++ Auth.encodeURIComponent token).toList, c ≠ '"' ∧ c ≠ '&' := by
  intro c hc
  simp only [String.toList_append, List.mem_append] at hc
  rcases hc with (hc | hc | hc) | hc
  · exact (hsite c hc).2
  · exact (hpath c hc).2
  · rw [show "?token=".toList = ['?', 't', 'o', 'k', 'e', 'n', '='] from rfl] at hc
    simp only [List.mem_cons, List.not_mem_nil, or_false] at hc
    rcases hc with rfl | rfl | rfl | rfl | rfl | rfl | rfl <;> decide
  · exact ⟨(encodeURIComponent_inert hc).2.2.2, (encodeURIComponent_inert hc).1⟩

theorem bare_accept : Bare "/accept-invite" := by decide +kernel

theorem bare_reset : Bare "/reset-password" := by decide +kernel

theorem acceptUrl_followed {mail : InviteMail} (h : Bare mail.frontendUrl) :
    LinksTo mail.html mail.acceptUrl ∧ searchParam "token" mail.acceptUrl = some mail.token := by
  refine ⟨⟨@link_plain mail.frontendUrl "/accept-invite" mail.token h bare_accept, ?_⟩,
    @searchParam_link mail.frontendUrl "/accept-invite" mail.token h bare_accept⟩
  unfold InviteMail.html
  exact ⟨_, _, (congrArg (· ++ _) String.append_assoc).trans String.append_assoc⟩

theorem resetUrl_followed {mail : Auth.ResetMail} (h : Bare mail.frontendUrl) :
    LinksTo mail.html mail.resetUrl ∧ searchParam "token" mail.resetUrl = some mail.token :=
  ⟨⟨@link_plain mail.frontendUrl "/reset-password" mail.token h bare_reset, mail.leadsTo_frontendUrl⟩,
    @searchParam_link mail.frontendUrl "/reset-password" mail.token h bare_reset⟩

end Query

/-! ## Tokens that are followed -/

section Followed

variable {J : Auth.Jwt} {signedAt t : Int}

/-- A token that was signed for a purpose is accepted for it until it expires. -/
theorem verifyPurpose_sign {payload : Auth.Claims} {purpose message : String} {expiresIn : Int}
    (hJ : J.ReadsBack (payload.stamped expiresIn signedAt)) (hp : payload.purpose = some purpose)
    (hi : payload.iat = none) :
    Auth.TokenService.verifyPurpose J purpose message (J.sign payload expiresIn signedAt) t =
      if t / 1000 < signedAt / 1000 + expiresIn then .ok (payload.stamped expiresIn signedAt)
      else .error (.unauthorized (.text message)) := by
  rw [Auth.TokenService.verifyPurpose, Auth.Jwt.sign, hJ.verify, Auth.Claims.expired_stamped, hi, Option.getD_none]
  by_cases ht : t / 1000 < signedAt / 1000 + expiresIn
  · rw [if_pos ht, decide_eq_false (Int.not_le.mpr ht)]
    exact if_neg (not_not_intro hp)
  · rw [if_neg ht, decide_eq_true (Int.not_lt.mp ht)]
    rfl

theorem verifyCoachInviteToken_sign {invite : Auth.CoachInvitePayload}
    (hJ : J.ReadsBack ((Auth.TokenService.inviteClaims invite).stamped Auth.COACH_INVITE_TTL signedAt)) :
    Auth.TokenService.verifyCoachInviteToken J
        (J.sign (Auth.TokenService.inviteClaims invite) Auth.COACH_INVITE_TTL signedAt) t =
      if t / 1000 < signedAt / 1000 + Auth.COACH_INVITE_TTL then .ok invite
      else .error (.unauthorized (.text "Invalid or expired invite link")) := by
  rw [Auth.TokenService.verifyCoachInviteToken, verifyPurpose_sign hJ rfl rfl]
  split <;> rfl

theorem verifyPasswordResetToken_sign {coachId : String}
    (hJ : J.ReadsBack ((Auth.TokenService.resetClaims coachId).stamped Auth.PASSWORD_RESET_TTL signedAt)) :
    Auth.TokenService.verifyPasswordResetToken J
        (J.sign (Auth.TokenService.resetClaims coachId) Auth.PASSWORD_RESET_TTL signedAt) t =
      if t / 1000 < signedAt / 1000 + Auth.PASSWORD_RESET_TTL then .ok ⟨some coachId, signedAt / 1000⟩
      else .error (.unauthorized (.text "Invalid or expired reset link")) := by
  rw [Auth.TokenService.verifyPasswordResetToken, verifyPurpose_sign hJ rfl rfl]
  split <;> rfl

end Followed

/-! ## The result -/

variable {S : Services} {G : AccessGuard} {w : World} {c : AccessConfig}

/-- The link of a mail leads to a page of the site with a token that is accepted until it expires, and not after: that
of an invite for what the invite says, that of a reset for the coach with the address. -/
theorem links_followed (h : (accessSystem S).Run G (.start w) c) :
    (∀ mail ∈ c.world.invites, mail ∉ w.invites → Bare mail.frontendUrl → LinksTo mail.html mail.acceptUrl ∧
      ∃ token signedAt, searchParam "token" mail.acceptUrl = some token ∧
        w.accounts.clock ≤ signedAt ∧ signedAt ≤ c.world.accounts.clock ∧
        (S.jwt.ReadsBack ((Auth.TokenService.inviteClaims ⟨mail.address, mail.name, mail.frontendUrl⟩).stamped
            Auth.COACH_INVITE_TTL signedAt) →
          ∀ t, Auth.TokenService.verifyCoachInviteToken S.jwt token t =
            if t / 1000 < signedAt / 1000 + Auth.COACH_INVITE_TTL then .ok ⟨mail.address, mail.name, mail.frontendUrl⟩
            else .error (.unauthorized (.text "Invalid or expired invite link")))) ∧
    ∀ mail ∈ c.world.accounts.resets, mail ∉ w.accounts.resets → Bare mail.frontendUrl →
      LinksTo mail.html mail.resetUrl ∧ ∃ coach ∈ c.world.coaches, coach.email = mail.address ∧
        ∃ token signedAt, searchParam "token" mail.resetUrl = some token ∧
          w.accounts.clock ≤ signedAt ∧ signedAt ≤ c.world.accounts.clock ∧
          (S.jwt.ReadsBack ((Auth.TokenService.resetClaims coach.id).stamped Auth.PASSWORD_RESET_TTL signedAt) →
            ∀ t, Auth.TokenService.verifyPasswordResetToken S.jwt token t =
              if t / 1000 < signedAt / 1000 + Auth.PASSWORD_RESET_TTL then .ok ⟨some coach.id, signedAt / 1000⟩
              else .error (.unauthorized (.text "Invalid or expired reset link"))) := by
  refine ⟨fun mail hm hnew hsite => ⟨(acceptUrl_followed hsite).1, ?_⟩,
    fun mail hm hnew hsite => ⟨(resetUrl_followed hsite).1, ?_⟩⟩
  · obtain ⟨signedAt, hfrom, hto, htoken⟩ := (run_invites_signed h mail hm).resolve_left hnew
    refine ⟨_, signedAt, (acceptUrl_followed hsite).2, hfrom, hto, fun hJ t => ?_⟩
    rw [htoken]
    exact verifyCoachInviteToken_sign hJ
  · obtain ⟨coach, hcoach, hemail, signedAt, hfrom, hto, htoken⟩ := (run_resets_signed h mail hm).resolve_left hnew
    refine ⟨coach, hcoach, hemail, _, signedAt, (resetUrl_followed hsite).2, hfrom, hto, fun hJ t => ?_⟩
    rw [htoken]
    exact verifyPasswordResetToken_sign hJ

/-- Eva follows the link of her invite in the second that it was signed in. -/
theorem links_followed_eva : ∃ c, (accessSystem .sample).Run .any (.start .sample) c ∧ ∃ mail ∈ c.world.invites,
    mail.address = "eva@example.com" ∧ ∃ token, searchParam "token" mail.acceptUrl = some token ∧
      Auth.TokenService.verifyCoachInviteToken Services.sample.jwt token 1000000 =
        .ok ⟨"eva@example.com", "Eva", "https://eva.example.com"⟩ := by
  obtain ⟨c, h, hp⟩ := run_of_play (S := accessSystem .sample) (G := .any) (c := .start .sample)
    (.spawn (.invite (some "Bearer admin") ⟨"eva@example.com", "Eva", "https://eva.example.com"⟩) :: fires 0 7)
    (fun c => decide (c.world.accounts.clock = 1000000) && c.world.invites.any fun mail =>
      mail = ⟨"eva@example.com", "Eva", "https://eva.example.com", mail.token⟩) (by decide +kernel)
  obtain ⟨hclock, hmail⟩ := Bool.and_eq_true_iff.mp hp
  obtain ⟨⟨address, name, frontendUrl, signed⟩, hm, ha⟩ := List.any_eq_true.mp hmail
  cases of_decide_eq_true ha
  obtain ⟨_, token, signedAt, hparam, hfrom, hto, hok⟩ := (links_followed h).1 _ hm List.not_mem_nil
    (show Bare "https://eva.example.com" by decide +kernel)
  rw [of_decide_eq_true hclock] at hto
  obtain rfl : signedAt = 1000000 := Int.le_antisymm hto hfrom
  exact ⟨c, h, _, hm, rfl, token, hparam, hok (Auth.Jwt.sample_readsBack "invite" rfl rfl (by decide)) 1000000⟩

end CoachingCalendar.Access
