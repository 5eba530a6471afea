import CoachingCalendar.Auth.Service
import CoachingCalendar.Lib.FormUrlencoded

/-!
# The reset mail

`PasswordResetEmailService.sendReset`, and `AuthController.forgotPassword` with the origin that it takes from
the headers. `new URL` is a parameter.
-/

namespace CoachingCalendar.Auth
open Lib

/-! ## Origins of requests -/

/-- What the code reads of a `URL`. -/
structure Url where
  hostname : String
  origin : String
  deriving DecidableEq, Repr

section Origin

-- `new URL` of a string, when it does not throw
variable (newUrl : String → Option Url)

def LOCAL_HOSTNAMES : List String := ["localhost", "127.0.0.1", "[::1]", "::1"]

def isLocalhostOrigin (origin : String) : Bool := (newUrl origin).any fun url => LOCAL_HOSTNAMES.contains url.hostname

/-- The origin of the caller. An empty header counts as none. -/
def resolveRequestOrigin (originHeader refererHeader : Option String) : Option String :=
  match originHeader.filter (· ≠ "") with
  | some originHeader => some originHeader
  | none =>
      match refererHeader.filter (· ≠ "") with
      | some refererHeader => (newUrl refererHeader).map (·.origin)
      | none => none

def AuthController.forgotPassword (email : String) (origin referer : Option String) : AuthProg Unit :=
  AuthService.forgotPassword email (resolveRequestOrigin newUrl origin referer)

end Origin

/-! ## The text -/

def escapeHtml (value : String) : String :=
  (((value.replace "&" "&amp;").replace "<" "&lt;").replace ">" "&gt;").replace "\"" "&quot;"

/-- The characters that `encodeURIComponent` leaves as they are. -/
def isUnescaped (c : Char) : Bool := c.isAlphanum || "-_.!~*'()".toList.contains c

def percentEncode (b : UInt8) : List Char :=
  ['%', FormUrlencoded.upperHex (b.toNat / 16), FormUrlencoded.upperHex (b.toNat % 16)]

def encodeURIComponent (s : String) : String :=
  String.ofList <| s.toList.flatMap fun c =>
    if isUnescaped c then [c] else (String.utf8EncodeChar c).flatMap percentEncode

namespace ResetMail

variable (mail : ResetMail)

def resetUrl : String := mail.frontendUrl ++ "/reset-password?token=" ++ encodeURIComponent mail.token

def subject : String := "Jelszó visszaállítása"

def html : String := "
      <div style=\"font-family: sans-serif; max-width: 480px; margin: 0 auto;\">
        <h1 style=\"font-size: 20px;\">Jelszó visszaállítása</h1>
        <p>Szia " ++ escapeHtml mail.name ++ "!</p>
        <p>Új jelszót kértél a fiókodhoz. Az alábbi linkre kattintva állíthatsz be egy újat:</p>
        <p>
          " ++ "<a href=\"" ++ mail.resetUrl ++ "\"" ++ " style=\"display: inline-block; padding: 10px 20px; background: #1a1a1f; color: #fff; text-decoration: none; border-radius: 6px;\">
            Új jelszó beállítása
          </a>
        </p>
        <p style=\"color: #666; font-size: 13px;\">
          Ha a gomb nem működik, másold be ezt a linket a böngésződbe: " ++ mail.resetUrl ++ "
        </p>
        <p style=\"color: #666; font-size: 13px;\">A link 1 óráig érvényes. Ha nem te kérted, nyugodtan hagyd figyelmen kívül ezt az emailt.</p>
      </div>
    "

/-- The text has a link with the token, on the site `base`. -/
def LeadsTo (base : String) : Prop :=
  ∃ before after, mail.html =
    before ++ "<a href=\"" ++ (base ++ "/reset-password?token=" ++ encodeURIComponent mail.token) ++ "\"" ++ after

theorem leadsTo_frontendUrl : mail.LeadsTo mail.frontendUrl := by
  unfold LeadsTo html resetUrl
  exact ⟨_, _, (congrArg (· ++ _) String.append_assoc).trans String.append_assoc⟩

end ResetMail

end CoachingCalendar.Auth
