import Mes.Js.Json

/-!
Validation of the JSON object in a request body. The backend declares a class with
decorators, which Nest's `ValidationPipe` checks; the shared package declares a zod
schema. Both answer the validated object, or what is wrong with the body.

`Validators` collects what the libraries do on single strings and on the members that
the pipe drops. Where the source gives no message, the library's own text is left out.
-/

namespace Mes

open Js

/-- The properties that the validated classes declare. -/
def DECLARED : List JsString :=
  [text "email", text "password", text "firstName", text "lastName", text "token",
    text "dateOfBirth"]

structure Validators where
  /-- The length of a string for the decorators, which count characters. -/
  count : JsString → Nat
  isEmail : JsString → Bool
  toLowerCase : JsString → JsString
  /-- Whether the pipe drops this member before it looks at the body. It does so where every
  object inherits something under the key, as under `__proto__` or `toString`. -/
  stripped : JsString → Json → Bool
  stripped_undeclared : ∀ k v, stripped k v = true → k ∉ DECLARED

/-- What is wrong with the value at `path`, or with the object itself. -/
structure Issue where
  path : Option JsString
  message : Option String := none
  deriving DecidableEq

/-- The properties of an object that has been validated. -/
abbrev Fields := JsString → Option Json

variable (lib : Validators)

/-! ### Patterns -/

def inRange (low high : Char) (c : UInt16) : Bool :=
  decide (unit low ≤ c ∧ c ≤ unit high)

/-- `/[A-Z]/` -/
def hasUpperCase (s : JsString) : Bool :=
  s.any (inRange 'A' 'Z')

/-- `/[a-z]/` -/
def hasLowerCase (s : JsString) : Bool :=
  s.any (inRange 'a' 'z')

/-- `/[A-Za-z]/` -/
def hasLetter (s : JsString) : Bool :=
  s.any fun c => inRange 'A' 'Z' c || inRange 'a' 'z' c

/-- `/\d/` and `/[0-9]/` -/
def hasDigit (s : JsString) : Bool :=
  s.any isDigit

/-- `/^\d{4}-\d{2}-\d{2}$/` -/
def isIsoDate : JsString → Bool
  | [y₁, y₂, y₃, y₄, h₁, m₁, m₂, h₂, d₁, d₂] =>
      [y₁, y₂, y₃, y₄, m₁, m₂, d₁, d₂].all isDigit && h₁ == unit '-' && h₂ == unit '-'
  | _ => false

/-! ### class-validator -/

namespace ClassValidator

/-- A check of a property, with the message of the source. -/
structure Decorator where
  holds : Json → Bool
  message : Option String := none

/-- A check of strings; other values fail it. -/
def onString (test : JsString → Bool) : Json → Bool
  | .string s => test s
  | _ => false

def isString : Decorator where
  holds := onString fun _ => true

def isEmail : Decorator where
  holds := onString lib.isEmail

def minLength (n : Nat) (message : Option String) : Decorator where
  holds := onString fun s => decide (n ≤ lib.count s)
  message := message

def maxLength (n : Nat) (message : Option String) : Decorator where
  holds := onString fun s => decide (lib.count s ≤ n)
  message := message

def matching (pattern : JsString → Bool) (message : String) : Decorator where
  holds := onString pattern
  message := some message

structure Property where
  name : JsString
  /-- `@IsOptional`: nothing is checked when the value is absent or `null`. -/
  optional : Bool := false
  /-- `@Transform` -/
  transform : Json → Json := id
  decorators : List Decorator

/-- The decorators see `undefined` when the property is absent. -/
def Property.issues (property : Property) (value : Option Json) : List Issue :=
  let transformed := value.map property.transform
  if property.optional && (transformed.all fun v => v matches .null) then []
  else
    (property.decorators.filter fun d => !transformed.any d.holds).map fun d =>
      { path := some property.name, message := d.message }

theorem Property.issues_eq_nil_iff (property : Property) (value : Option Json) :
    property.issues value = [] ↔
      (property.optional = true ∧ ∀ v, value.map property.transform = some v → v = .null) ∨
        ∀ d ∈ property.decorators, (value.map property.transform).any d.holds = true := by
  have hnull (v : Json) : (v matches .null) = true ↔ v = .null := by
    cases v <;> simp
  rw [Property.issues]
  split
  · rename_i hskipped
    simp only [Bool.and_eq_true, Option.all_eq_true, hnull] at hskipped
    simp only [true_iff]
    exact Or.inl ⟨hskipped.1, fun v hv => hskipped.2 v hv⟩
  · rename_i hchecked
    rw [Bool.and_eq_true, Option.all_eq_true, not_and] at hchecked
    rw [List.map_eq_nil_iff, List.filter_eq_nil_iff]
    simp only [Bool.not_eq_true', Bool.not_eq_false]
    constructor
    · exact fun hall => Or.inr hall
    · rintro (⟨hoptional, hskipped⟩ | hall)
      · exact absurd (fun v hv => (hnull v).mpr (hskipped v hv)) (hchecked hoptional)
      · exact hall

def issues (properties : List Property) (body : Members) : List Issue :=
  ((body.filter fun m => !(properties.map Property.name).contains m.1).map fun m =>
      { path := some m.1 }) ++
    properties.flatMap fun property => property.issues (body.lookup property.name)

/-- The members that the pipe looks at. -/
def kept (body : Members) : Members :=
  body.filter fun m => !lib.stripped m.1 m.2

/-- `ValidationPipe` with `whitelist`, `forbidNonWhitelisted` and `transform`. -/
def validationPipe (properties : List Property) (body : Members) :
    Except (List Issue) Fields :=
  if (issues properties (kept lib body)).isEmpty then
    .ok fun k => (properties.find? fun property => property.name == k).bind fun property =>
      ((kept lib body).lookup k).map property.transform
  else .error (issues properties (kept lib body))

/-- A property of a body that the pipe accepts was optional and absent, or has passed
its checks. -/
theorem validationPipe_checked {properties : List Property} {body : Members} {fields : Fields}
    (haccepted : validationPipe lib properties body = .ok fields) {property : Property}
    (hfirst : properties.find? (fun other => other.name == property.name) = some property) :
    (property.optional = true ∧ ∀ v, fields property.name = some v → v = .null) ∨
      ∀ d ∈ property.decorators, (fields property.name).any d.holds = true := by
  unfold validationPipe at haccepted
  split at haccepted
  · rename_i hclean
    obtain rfl := Except.ok.inj haccepted
    obtain ⟨-, hissues⟩ := List.append_eq_nil_iff.mp (List.isEmpty_iff.mp hclean)
    have hmem := List.mem_of_find?_eq_some hfirst
    have hnone := List.flatMap_eq_nil_iff.mp hissues property hmem
    dsimp only
    rw [hfirst]
    exact (Property.issues_eq_nil_iff property _).mp hnone
  · cases haccepted

end ClassValidator

/-! ### zod -/

namespace Zod

/-- One call in the chain behind `z.string()`. -/
inductive Check where
  | trim
  | toLowerCase
  | email
  | min (n : Nat) (message : Option String)
  | max (n : Nat) (message : Option String)
  | regex (pattern : JsString → Bool) (message : Option String)

/-- What the call makes of a string. -/
def Check.value (s : JsString) : Check → JsString
  | .trim => Js.trim s
  | .toLowerCase => lib.toLowerCase s
  | .email | .min _ _ | .max _ _ | .regex _ _ => s

def Check.holds (s : JsString) : Check → Bool
  | .trim | .toLowerCase => true
  | .email => lib.isEmail s
  | .min n _ => decide (n ≤ s.length)
  | .max n _ => decide (s.length ≤ n)
  | .regex pattern _ => pattern s

def Check.message : Check → Option String
  | .trim | .toLowerCase | .email => none
  | .min _ message | .max _ message | .regex _ message => message

/-- What the calls so far have made of the string, and the messages of the failed ones. -/
abbrev Progress := JsString × List (Option String)

def Check.run (progress : Progress) (check : Check) : Progress :=
  (check.value lib progress.1,
    if check.holds lib progress.1 then progress.2 else progress.2 ++ [check.message])

/-- What the chain makes of a string, if no call objects. -/
def chain : List Check → JsString → Option JsString
  | [], s => some s
  | check :: rest, s => if check.holds lib s then chain rest (check.value lib s) else none

/-- A chain of checks that change nothing. -/
theorem chain_of_keeps {checks : List Check} {s : JsString}
    (hkeeps : ∀ check ∈ checks, check.value lib s = s) :
    chain lib checks s = if checks.all (fun check => check.holds lib s) then some s else none := by
  induction checks with
  | nil => rfl
  | cons check checks ih =>
      rw [chain, hkeeps check List.mem_cons_self, List.all_cons,
        ih fun later hlater => hkeeps later (List.mem_cons_of_mem _ hlater)]
      cases check.holds lib s <;> simp

/-- A call that fails does not stop the later ones, but its message stays. -/
theorem foldl_run (checks : List Check) (s : JsString) (messages : List (Option String)) :
    (chain lib checks s = some (checks.foldl (Check.run lib) (s, messages)).1 ∧
        (checks.foldl (Check.run lib) (s, messages)).2 = messages) ∨
      chain lib checks s = none ∧ (checks.foldl (Check.run lib) (s, messages)).2 ≠ [] := by
  induction checks generalizing s messages with
  | nil => exact Or.inl ⟨rfl, rfl⟩
  | cons check checks ih =>
      rw [List.foldl_cons, Check.run, chain]
      by_cases hholds : check.holds lib s = true
      · rw [if_pos hholds, if_pos hholds]
        exact ih _ _
      · rw [if_neg hholds, if_neg hholds]
        refine Or.inr ⟨rfl, ?_⟩
        rcases ih (check.value lib s) (messages ++ [check.message]) with ⟨-, hkept⟩ | ⟨-, hfails⟩
        · rw [hkept]
          simp
        · exact hfails

structure Field where
  key : JsString
  optional : Bool := false
  checks : List Check

/-- `optional()` accepts an absent value; `null` is none. -/
def Field.parse (field : Field) : Option Json → Except (List Issue) (Option Json)
  | none => if field.optional then .ok none else .error [{ path := some field.key }]
  | some (.string s) =>
      let progress := field.checks.foldl (Check.run lib) (s, [])
      if progress.2.isEmpty then .ok (some (.string progress.1))
      else .error (progress.2.map fun message => { path := some field.key, message := message })
  | some _ => .error [{ path := some field.key }]

def Field.issues (field : Field) (value : Option Json) : List Issue :=
  match field.parse lib value with
  | .ok _ => []
  | .error found => found

theorem Field.parse_string (field : Field) (s : JsString) :
    (field.issues lib (some (.string s)) = [] ↔ (chain lib field.checks s).isSome = true) ∧
      ∀ t, chain lib field.checks s = some t →
        field.parse lib (some (.string s)) = .ok (some (.string t)) := by
  rw [Field.issues, Field.parse]
  rcases foldl_run lib field.checks s [] with ⟨hchain, hnone⟩ | ⟨hchain, hsome⟩
  · rw [hchain, hnone]
    simp
  · rw [hchain, if_neg (by simpa using hsome)]
    simpa using hsome

/-- `z.object({ ... }).strict()`: all unknown keys make one issue. -/
def issues (shape : List Field) (body : Members) : List Issue :=
  (shape.flatMap fun field => field.issues lib (body.lookup field.key)) ++
    if body.all fun m => (shape.map Field.key).contains m.1 then [] else [{ path := none }]

def safeParse (shape : List Field) (body : Members) : Except (List Issue) Fields :=
  if (issues lib shape body).isEmpty then
    .ok fun k => (shape.find? fun field => field.key == k).bind fun field =>
      (field.parse lib (body.lookup k)).toOption.join
  else .error (issues lib shape body)

end Zod

end Mes
