import Mes.Common.Validation
import Mes.Server

/-!
The request bodies of `POST /auth/signup`, `POST /auth/login` and
`POST /invitations/redeem`: the decorated classes of the backend, and the schemas of the
shared package for the first and the last.

A validated string goes to the services as the text that its code units encode, with a
replacement character for a surrogate that stands alone: this is what the database driver
and the hash functions make of it.
-/

namespace Mes

open Js ClassValidator

variable (lib : Validators)

/-- `value.trim().toLowerCase()` for strings. -/
def normalised : Json → Json
  | .string s => .string (lib.toLowerCase (trim s))
  | v => v

/-- A property as the services read it. -/
def Fields.text (fields : Fields) (name : String) : Option String :=
  match fields (Js.text name) with
  | some (.string s) => some (decode s)
  | _ => none

/-- A string that a service reads has passed the checks of its property. -/
theorem Fields.text_checked {properties : List Property} {body : Members} {fields : Fields}
    (haccepted : validationPipe lib properties body = .ok fields) (property : Property)
    (hfirst : properties.find? (fun other => other.name == property.name) = some property)
    {name value : String} (hname : property.name = Js.text name)
    (hvalue : fields.text name = some value) :
    ∃ s, fields (Js.text name) = some (.string s) ∧ decode s = value ∧
      ∀ d ∈ property.decorators, d.holds (.string s) = true := by
  unfold Fields.text at hvalue
  split at hvalue
  · rename_i s hfield
    refine ⟨s, hfield, Option.some.inj hvalue, fun d hd => ?_⟩
    have hchecked := validationPipe_checked lib haccepted hfirst
    rw [hname, hfield] at hchecked
    rcases hchecked with ⟨-, hnull⟩ | hchecks
    · cases hnull _ rfl
    · exact hchecks d hd
  · cases hvalue

/-! ### The classes of the backend -/

namespace RedeemInvitationDto

def tokenProperty : Property where
  name := text "token"
  decorators := [isString, minLength lib 1 none]

def firstNameProperty : Property where
  name := text "firstName"
  optional := true
  decorators := [isString, minLength lib 1 none, maxLength lib 80 none]

def lastNameProperty : Property where
  name := text "lastName"
  optional := true
  decorators := [isString, minLength lib 1 none, maxLength lib 80 none]

def dateOfBirthProperty : Property where
  name := text "dateOfBirth"
  optional := true
  decorators := [isString, matching isIsoDate "dateOfBirth must be in YYYY-MM-DD format"]

def passwordProperty : Property where
  name := text "password"
  decorators :=
    [isString, minLength lib 8 none,
      matching hasUpperCase "password must contain at least one uppercase letter",
      matching hasLowerCase "password must contain at least one lowercase letter",
      matching hasDigit "password must contain at least one digit"]

def properties : List Property :=
  [tokenProperty lib, firstNameProperty lib, lastNameProperty lib, dateOfBirthProperty,
    passwordProperty lib]

/-- The validated body as the service reads it. -/
def ofFields (fields : Fields) : RedeemInvitationDto where
  token := (fields.text "token").getD ""
  firstName := fields.text "firstName"
  lastName := fields.text "lastName"
  dateOfBirth := fields.text "dateOfBirth"
  password := (fields.text "password").getD ""

end RedeemInvitationDto

namespace SignupDto

def emailProperty : Property where
  name := text "email"
  transform := normalised lib
  decorators := [isEmail lib, maxLength lib 255 none]

def passwordProperty : Property where
  name := text "password"
  decorators :=
    [isString, minLength lib 12 (some "Password must be at least 12 characters"),
      maxLength lib 128 (some "Password must be at most 128 characters"),
      matching hasLetter "Password must contain at least one letter",
      matching hasDigit "Password must contain at least one digit"]

def firstNameProperty : Property where
  name := text "firstName"
  optional := true
  decorators := [isString, maxLength lib 80 none]

def lastNameProperty : Property where
  name := text "lastName"
  optional := true
  decorators := [isString, maxLength lib 80 none]

def properties : List Property :=
  [emailProperty lib, passwordProperty lib, firstNameProperty lib, lastNameProperty lib]

def ofFields (fields : Fields) : SignupDto where
  email := (fields.text "email").getD ""
  password := (fields.text "password").getD ""
  firstName := fields.text "firstName"
  lastName := fields.text "lastName"

end SignupDto

namespace LoginDto

def emailProperty : Property where
  name := text "email"
  transform := normalised lib
  decorators := [isEmail lib, maxLength lib 255 none]

def passwordProperty : Property where
  name := text "password"
  decorators := [isString, minLength lib 1 none, maxLength lib 128 none]

def properties : List Property :=
  [emailProperty lib, passwordProperty lib]

def ofFields (fields : Fields) : LoginDto where
  email := (fields.text "email").getD ""
  password := (fields.text "password").getD ""

end LoginDto

/-! ### The schemas of the shared package -/

def redeemInvitationSchema : List Zod.Field :=
  [{ key := text "token", checks := [.min 1 none] },
    { key := text "firstName", optional := true, checks := [.trim, .min 1 none, .max 80 none] },
    { key := text "lastName", optional := true, checks := [.trim, .min 1 none, .max 80 none] },
    { key := text "dateOfBirth", optional := true, checks := [.regex isIsoDate none] },
    { key := text "password"
      checks :=
        [.min 8 none,
          .regex hasUpperCase (some "password must contain at least one uppercase letter"),
          .regex hasLowerCase (some "password must contain at least one lowercase letter"),
          .regex hasDigit (some "password must contain at least one digit")] }]

def signupSchema : List Zod.Field :=
  [{ key := text "email", checks := [.trim, .toLowerCase, .email, .max 255 none] },
    { key := text "password"
      checks :=
        [.min 12 (some "Password must be at least 12 characters"),
          .max 128 (some "Password must be at most 128 characters"),
          .regex hasLetter (some "Password must contain at least one letter"),
          .regex hasDigit (some "Password must contain at least one digit")] },
    { key := text "firstName", optional := true, checks := [.trim, .min 1 none, .max 80 none] },
    { key := text "lastName", optional := true, checks := [.trim, .min 1 none, .max 80 none] }]

end Mes
