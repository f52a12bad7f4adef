import Mes.Common.RequestBodies

/-!
The shared schemas against the classes of the backend. Each value of a field stands in
one of four ways: both sides accept it, neither does, or only one of them. A body is
treated alike when both sides refuse it, for one reason or for two different ones, or
when both accept every field of it and no name has white space at an end, which the
schema cuts off and the class keeps.
-/

namespace Mes

open Js ClassValidator

variable (lib : Validators)

inductive Standing where
  | both
  | neither
  | schemaOnly
  | dtoOnly
  deriving DecidableEq, Repr

namespace Standing

def of (schema dto : Bool) : Standing :=
  match schema, dto with
  | true, true => .both
  | false, false => .neither
  | true, false => .schemaOnly
  | false, true => .dtoOnly

def schema : Standing → Bool
  | .both | .schemaOnly => true
  | .neither | .dtoOnly => false

def dto : Standing → Bool
  | .both | .dtoOnly => true
  | .neither | .schemaOnly => false

@[simp]
theorem schema_of (s d : Bool) : (of s d).schema = s := by
  cases s <;> cases d <;> rfl

@[simp]
theorem dto_of (s d : Bool) : (of s d).dto = d := by
  cases s <;> cases d <;> rfl

theorem schema_eq_false_iff (x : Standing) : x.schema = false ↔ x = .neither ∨ x = .dtoOnly := by
  cases x <;> simp [schema]

theorem dto_eq_false_iff (x : Standing) : x.dto = false ↔ x = .neither ∨ x = .schemaOnly := by
  cases x <;> simp [dto]

theorem both_iff (x : Standing) : x = .both ↔ x.schema = true ∧ x.dto = true := by
  cases x <;> simp [schema, dto]

end Standing

/-- Both sides accept the body and make the same object of it, or both refuse it. -/
def Agree (schema dto : Except (List Issue) Fields) : Prop :=
  match schema, dto with
  | .ok parsed, .ok validated => parsed = validated
  | .error _, .error _ => True
  | .ok _, .error _ | .error _, .ok _ => False

/-- The fields of a body stand so that both sides treat it alike. `Intact` says that
nothing is cut off. -/
def InStep (standings : List Standing) (Intact : Prop) : Prop :=
  .neither ∈ standings ∨ (.schemaOnly ∈ standings ∧ .dtoOnly ∈ standings) ∨
    (∀ x ∈ standings, x = .both) ∧ Intact

/-! ### Where a field stands -/

/-- A field of strings. Only the decorators let a `null` pass for an absent value. -/
def textStanding (optional : Bool) (schema dto : JsString → Bool) : Option Json → Standing
  | none => if optional then .both else .neither
  | some .null => if optional then .dtoOnly else .neither
  | some (.string s) => .of (schema s) (dto s)
  | some _ => .neither

/-- A field on both sides, and where they stand on a value of it. -/
structure Twin where
  field : Zod.Field
  property : Property
  standing : Option Json → Standing

structure Twin.Sound (twin : Twin) : Prop where
  key : twin.property.name = twin.field.key
  declared : twin.field.key ∈ DECLARED
  stands : ∀ v, twin.standing v =
    .of (twin.field.issues lib v).isEmpty (twin.property.issues v).isEmpty

/-- The same value is made of what both sides accept. -/
def Twin.Keeps (twin : Twin) (v : Option Json) : Prop :=
  (twin.field.parse lib v).toOption.join = v.map twin.property.transform

/-- An unknown key is refused, unless the pipe drops it. -/
def unknownStanding (m : JsString × Json) : Standing :=
  if lib.stripped m.1 m.2 then .dtoOnly else .neither

def unknownStandings (known : List JsString) (body : Members) : List Standing :=
  (body.filter fun m => !known.contains m.1).map (unknownStanding lib)

def standings (twins : List Twin) (body : Members) : List Standing :=
  unknownStandings lib (twins.map (·.field.key)) body ++
    twins.map fun twin => twin.standing (body.lookup twin.field.key)

/-! ### Both sides of a body -/

section Bodies

variable {lib} {twins : List Twin} {body : Members}

/-- The pipe drops no declared key. -/
theorem lookup_kept {k : JsString} (hdeclared : k ∈ DECLARED) (body : Members) :
    (kept lib body).lookup k = body.lookup k := by
  induction body with
  | nil => rfl
  | cons m body ih =>
      obtain ⟨key, v⟩ := m
      rw [List.lookup_cons]
      cases hstripped : lib.stripped key v with
      | false =>
          rw [kept, List.filter_cons_of_pos (by simp [hstripped]), List.lookup_cons]
          split
          · rfl
          · exact ih
      | true =>
          have hother : k ≠ key := by
            rintro rfl
            exact lib.stripped_undeclared k v hstripped hdeclared
          rw [kept, List.filter_cons_of_neg (by simp [hstripped]), beq_false_of_ne hother]
          exact ih

theorem names_eq (hsound : ∀ twin ∈ twins, twin.Sound lib) :
    (twins.map (·.property)).map Property.name = twins.map (·.field.key) := by
  rw [List.map_map]
  exact List.map_congr_left fun twin htwin => (hsound twin htwin).key

theorem unknown_schema (m : JsString × Json) : (unknownStanding lib m).schema = false := by
  unfold unknownStanding
  split <;> rfl

theorem unknown_dto (m : JsString × Json) :
    (unknownStanding lib m).dto = lib.stripped m.1 m.2 := by
  unfold unknownStanding
  split
  · rename_i hstripped
    exact hstripped.symm
  · rename_i hkept
    exact (Bool.eq_false_of_not_eq_true hkept).symm

/-- What one of the two sides says about a body. -/
theorem standings_all (side : Standing → Bool) : (∀ x ∈ standings lib twins body, side x = true) ↔
    (∀ m ∈ body, m.1 ∉ twins.map (·.field.key) → side (unknownStanding lib m) = true) ∧
      ∀ twin ∈ twins, side (twin.standing (body.lookup twin.field.key)) = true := by
  simp only [standings, unknownStandings, List.mem_append, List.mem_map, List.mem_filter,
    Bool.not_eq_true', List.contains_eq_mem, decide_eq_false_iff_not]
  constructor
  · intro hall
    refine ⟨fun m hm hunknown => hall _ (Or.inl ⟨m, ⟨hm, ?_⟩, rfl⟩), fun twin htwin =>
      hall _ (Or.inr ⟨twin, htwin, rfl⟩)⟩
    simpa using hunknown
  · rintro ⟨hunknown, htwins⟩ x (⟨m, ⟨hm, hkey⟩, rfl⟩ | ⟨twin, htwin, rfl⟩)
    · exact hunknown m hm (by simpa using hkey)
    · exact htwins twin htwin

theorem schema_accepts (hsound : ∀ twin ∈ twins, twin.Sound lib) (body : Members) :
    Zod.issues lib (twins.map (·.field)) body = [] ↔
      ∀ x ∈ standings lib twins body, x.schema = true := by
  rw [standings_all, Zod.issues, List.append_eq_nil_iff, List.flatMap_eq_nil_iff,
    List.forall_mem_map, and_comm]
  refine and_congr ?_ (forall₂_congr fun twin htwin => ?_)
  · simp only [unknown_schema, List.map_map, ite_eq_left_iff, List.all_eq_true, reduceCtorEq,
      imp_false, not_not, List.contains_eq_mem, decide_eq_true_eq, Bool.false_eq_true]
    rfl
  · rw [(hsound twin htwin).stands, Standing.schema_of, List.isEmpty_iff]

theorem pipe_accepts (hsound : ∀ twin ∈ twins, twin.Sound lib) (body : Members) :
    issues (twins.map (·.property)) (kept lib body) = [] ↔
      ∀ x ∈ standings lib twins body, x.dto = true := by
  rw [standings_all, issues, List.append_eq_nil_iff, List.flatMap_eq_nil_iff,
    List.forall_mem_map, names_eq hsound]
  refine and_congr ?_ (forall₂_congr fun twin htwin => ?_)
  · rw [List.map_eq_nil_iff, List.filter_eq_nil_iff]
    simp only [kept, List.mem_filter, unknown_dto, Bool.not_eq_true', List.contains_eq_mem,
      decide_eq_false_iff_not, not_not, and_imp]
    refine forall₂_congr fun m _ => ?_
    cases lib.stripped m.1 m.2 <;> simp
  · rw [(hsound twin htwin).stands, Standing.dto_of, List.isEmpty_iff, (hsound twin htwin).key,
      lookup_kept (hsound twin htwin).declared]

/-- Either side, in terms of where the fields stand. -/
theorem refusals_iff (L : List Standing) :
    ((∃ x ∈ L, x.schema = false) ∧ ∃ x ∈ L, x.dto = false) ↔
      .neither ∈ L ∨ (.schemaOnly ∈ L ∧ .dtoOnly ∈ L) := by
  simp only [Standing.schema_eq_false_iff, Standing.dto_eq_false_iff]
  constructor
  · rintro ⟨⟨x, hx, rfl | rfl⟩, y, hy, rfl | rfl⟩
    · exact Or.inl hx
    · exact Or.inl hx
    · exact Or.inl hy
    · exact Or.inr ⟨hy, hx⟩
  · rintro (hneither | ⟨hschema, hdto⟩)
    · exact ⟨⟨_, hneither, Or.inl rfl⟩, _, hneither, Or.inl rfl⟩
    · exact ⟨⟨_, hdto, Or.inr rfl⟩, _, hschema, Or.inr rfl⟩

theorem find_twin (hkeys : (twins.map (·.field.key)).Nodup) {twin : Twin}
    (htwin : twin ∈ twins) :
    twins.find? (fun t => t.field.key == twin.field.key) = some twin := by
  induction twins with
  | nil => cases htwin
  | cons first rest ih =>
      obtain ⟨hnew, hrest⟩ := List.nodup_cons.mp hkeys
      rcases List.mem_cons.mp htwin with rfl | hlater
      · simp
      · have hother : first.field.key ≠ twin.field.key := by
          intro hsame
          exact hnew (List.mem_map.mpr ⟨twin, hlater, hsame.symm⟩)
        rw [List.find?_cons_of_neg (by simpa using hother)]
        exact ih hrest hlater

/-- What both sides make of a body that they accept. -/
theorem values_eq_iff (hsound : ∀ twin ∈ twins, twin.Sound lib)
    (hkeys : (twins.map (·.field.key)).Nodup) :
    ((fun k => ((twins.map (·.field)).find? fun field => field.key == k).bind fun field =>
        (field.parse lib (body.lookup k)).toOption.join) =
      (fun k => ((twins.map (·.property)).find? fun property => property.name == k).bind
        fun property => ((kept lib body).lookup k).map property.transform)) ↔
      ∀ twin ∈ twins, twin.Keeps lib (body.lookup twin.field.key) := by
  have hproperty (k : JsString) :
      twins.find? (fun twin => twin.property.name == k) =
        twins.find? fun twin => twin.field.key == k :=
    List.find?_congr fun twin htwin => by rw [(hsound twin htwin).key]
  simp only [List.find?_map, Function.comp_def, hproperty]
  constructor
  · intro hsame twin htwin
    have hvalue := congrFun hsame twin.field.key
    rw [find_twin hkeys htwin] at hvalue
    simpa [lookup_kept (hsound twin htwin).declared, Twin.Keeps] using hvalue
  · intro hkeeps
    funext k
    cases hfound : twins.find? fun twin => twin.field.key == k with
    | none => rfl
    | some twin =>
        have htwin := List.mem_of_find?_eq_some hfound
        have hkey : twin.field.key = k := by simpa using List.find?_some hfound
        subst hkey
        have hvalue : (twin.field.parse lib _).toOption.join = _ := hkeeps twin htwin
        simpa [lookup_kept (hsound twin htwin).declared] using hvalue

/-- The two sides treat a body alike exactly when its fields stand in step. -/
theorem agree_iff (hsound : ∀ twin ∈ twins, twin.Sound lib)
    (hkeys : (twins.map (·.field.key)).Nodup) :
    Agree (Zod.safeParse lib (twins.map (·.field)) body)
        (validationPipe lib (twins.map (·.property)) body) ↔
      InStep (standings lib twins body)
        (∀ twin ∈ twins, twin.Keeps lib (body.lookup twin.field.key)) := by
  have hschema := schema_accepts hsound body
  have hdto := pipe_accepts hsound body
  have hrefused (side : Standing → Bool) : ¬ (∀ x ∈ standings lib twins body, side x = true) ↔
      ∃ x ∈ standings lib twins body, side x = false := by
    simp only [not_forall, Bool.not_eq_true, exists_prop]
  rw [InStep, ← or_assoc, ← refusals_iff, ← hrefused, ← hrefused, ← hschema, ← hdto]
  have hboth : (∀ x ∈ standings lib twins body, x = .both) ↔
      Zod.issues lib (twins.map (·.field)) body = [] ∧
        issues (twins.map (·.property)) (kept lib body) = [] := by
    rw [hschema, hdto]
    simp only [Standing.both_iff]
    exact ⟨fun hall => ⟨fun x hx => (hall x hx).1, fun x hx => (hall x hx).2⟩,
      fun hall x hx => ⟨hall.1 x hx, hall.2 x hx⟩⟩
  rw [hboth]
  unfold Zod.safeParse validationPipe
  simp only [List.isEmpty_iff]
  by_cases hparsed : Zod.issues lib (twins.map (·.field)) body = []
  · by_cases hvalid : issues (twins.map (·.property)) (kept lib body) = []
    · rw [if_pos hparsed, if_pos hvalid, Agree, values_eq_iff hsound hkeys]
      simp [hparsed, hvalid]
    · rw [if_pos hparsed, if_neg hvalid, Agree]
      simp [hparsed, hvalid]
  · by_cases hvalid : issues (twins.map (·.property)) (kept lib body) = []
    · rw [if_neg hparsed, if_pos hvalid, Agree]
      simp [hparsed, hvalid]
    · rw [if_neg hparsed, if_neg hvalid, Agree]
      simp [hparsed, hvalid]

end Bodies

/-! ### The fields of the two bodies -/

/-- A field of strings on both sides, in terms of the strings that they accept. -/
theorem text_sound {field : Zod.Field} {property : Property} {schema dto : JsString → Bool}
    (hkey : property.name = field.key) (hdeclared : field.key ∈ DECLARED)
    (hoptional : property.optional = field.optional)
    (hnull : ∀ v, property.transform v = .null ↔ v = .null)
    (hchain : ∀ s, (Zod.chain lib field.checks s).isSome = schema s)
    (hstring : ∀ s, (property.decorators.all fun d => d.holds (property.transform (.string s))) =
      dto s)
    (hother : ∀ v, (∀ s, v ≠ .string s) → ∃ d ∈ property.decorators,
      d.holds (property.transform v) = false) :
    (Twin.mk field property (textStanding field.optional schema dto)).Sound lib := by
  refine ⟨hkey, hdeclared, fun v => ?_⟩
  -- the decorators pass a value that is no string only by skipping it
  have hskipped (v : Json) (hv : ∀ s, v ≠ .string s) :
      property.issues (some v) = [] ↔ field.optional = true ∧ v = .null := by
    obtain ⟨d, hd, hfails⟩ := hother v hv
    rw [Property.issues_eq_nil_iff, hoptional]
    constructor
    · rintro (⟨hskips, htransformed⟩ | hall)
      · exact ⟨hskips, (hnull v).mp (htransformed _ rfl)⟩
      · have hholds : d.holds (property.transform v) = true := hall d hd
        rw [hfails] at hholds
        cases hholds
    · rintro ⟨hskips, rfl⟩
      refine Or.inl ⟨hskips, fun w hw => ?_⟩
      rw [← Option.some.inj hw]
      exact (hnull .null).mpr rfl
  have hrefused (v : Json) (hv : ∀ s, v ≠ .string s) (hplain : v ≠ .null) :
      (property.issues (some v)).isEmpty = false := by
    rw [← Bool.not_eq_true, List.isEmpty_iff, hskipped v hv]
    exact fun hskips => hplain hskips.2
  match v with
  | none =>
      obtain ⟨d, hd, -⟩ := hother .null fun _ => Json.noConfusion
      have habsent : property.issues none = [] ↔ field.optional = true := by
        rw [Property.issues_eq_nil_iff, hoptional]
        refine ⟨fun hpasses => ?_, fun hskips => Or.inl ⟨hskips, fun v hv => by cases hv⟩⟩
        rcases hpasses with ⟨hskips, -⟩ | hall
        · exact hskips
        · cases hall d hd
      cases hfield : field.optional with
      | true =>
          have hempty := habsent.mpr hfield
          simp [textStanding, Zod.Field.issues, Zod.Field.parse, hfield, hempty, Standing.of]
      | false =>
          have hnonempty : (property.issues none).isEmpty = false := by
            rw [← Bool.not_eq_true, List.isEmpty_iff, habsent, hfield]
            exact Bool.false_ne_true
          simp [textStanding, Zod.Field.issues, Zod.Field.parse, hfield, hnonempty, Standing.of]
  | some (.string s) =>
      have hfield := (Zod.Field.parse_string lib field s).1
      have hproperty : property.issues (some (.string s)) = [] ↔ dto s = true := by
        rw [Property.issues_eq_nil_iff, ← hstring, List.all_eq_true]
        refine ⟨fun hpasses => ?_, fun hall => Or.inr hall⟩
        rcases hpasses with ⟨-, hskips⟩ | hall
        · cases (hnull _).mp (hskips _ rfl)
        · exact hall
      rw [hchain, ← List.isEmpty_iff, ← Bool.eq_iff_iff] at hfield
      rw [← List.isEmpty_iff, ← Bool.eq_iff_iff] at hproperty
      rw [hfield, hproperty]
      rfl
  | some .null =>
      have hnull' := hskipped .null fun _ => Json.noConfusion
      cases hfield : field.optional with
      | true =>
          have hempty := hnull'.mpr ⟨hfield, rfl⟩
          simp [textStanding, Zod.Field.issues, Zod.Field.parse, hempty, Standing.of]
      | false =>
          have hnonempty : (property.issues (some .null)).isEmpty = false := by
            rw [← Bool.not_eq_true, List.isEmpty_iff, hnull', hfield]
            exact fun hskips => Bool.false_ne_true hskips.1
          simp [textStanding, Zod.Field.issues, Zod.Field.parse, hnonempty, Standing.of]
  | some (.bool b) =>
      rw [hrefused _ (fun _ => Json.noConfusion) Json.noConfusion]
      rfl
  | some (.number n) =>
      rw [hrefused _ (fun _ => Json.noConfusion) Json.noConfusion]
      rfl
  | some (.array xs) =>
      rw [hrefused _ (fun _ => Json.noConfusion) Json.noConfusion]
      rfl
  | some (.object ms) =>
      rw [hrefused _ (fun _ => Json.noConfusion) Json.noConfusion]
      rfl

def within (low high n : Nat) : Bool :=
  decide (low ≤ n) && decide (n ≤ high)

/-- A name is measured without the white space around it by the schema only. -/
def nameStanding (low : Nat) : Option Json → Standing :=
  textStanding true (fun s => within 1 80 (trim s).length) fun s => within low 80 (lib.count s)

def tokenStanding : Option Json → Standing :=
  textStanding false (fun s => decide (1 ≤ s.length)) fun s => decide (1 ≤ lib.count s)

def dateStanding : Option Json → Standing :=
  textStanding true isIsoDate isIsoDate

/-- The classes of characters that a redeem password needs. -/
def mixed (s : JsString) : Bool :=
  hasUpperCase s && hasLowerCase s && hasDigit s

def redeemPasswordStanding : Option Json → Standing :=
  textStanding false (fun s => decide (8 ≤ s.length) && mixed s) fun s =>
    decide (8 ≤ lib.count s) && mixed s

def signupPasswordStanding : Option Json → Standing :=
  textStanding false (fun s => within 12 128 s.length && (hasLetter s && hasDigit s)) fun s =>
    within 12 128 (lib.count s) && (hasLetter s && hasDigit s)

def emailStanding : Option Json → Standing :=
  textStanding false
    (fun s => lib.isEmail (lib.toLowerCase (trim s)) &&
      decide ((lib.toLowerCase (trim s)).length ≤ 255))
    fun s => lib.isEmail (lib.toLowerCase (trim s)) &&
      decide (lib.count (lib.toLowerCase (trim s)) ≤ 255)

def redeemTwins : List Twin :=
  List.zipWith3 Twin.mk redeemInvitationSchema (RedeemInvitationDto.properties lib)
    [tokenStanding lib, nameStanding lib 1, nameStanding lib 1, dateStanding,
      redeemPasswordStanding lib]

def signupTwins : List Twin :=
  List.zipWith3 Twin.mk signupSchema (SignupDto.properties lib)
    [emailStanding lib, signupPasswordStanding lib, nameStanding lib 0, nameStanding lib 0]

/-- No name in the body has white space at an end. -/
def NamesIntact (body : Members) : Prop :=
  ∀ key ∈ [text "firstName", text "lastName"], ∀ s, body.lookup key = some (.string s) →
    ¬ Padded s

theorem normalised_eq_null_iff (v : Json) : normalised lib v = .null ↔ v = .null := by
  cases v <;> simp [normalised]

/-- A property that starts with `@IsString` and is not transformed. -/
theorem isString_refuses {property : Property} (hstring : isString ∈ property.decorators)
    (htransform : property.transform = id) (v : Json) (hv : ∀ s, v ≠ .string s) :
    ∃ d ∈ property.decorators, d.holds (property.transform v) = false := by
  refine ⟨isString, hstring, ?_⟩
  rw [htransform]
  cases v with
  | string s => exact absurd rfl (hv s)
  | null | bool | number | array | object => rfl

theorem isEmail_refuses {property : Property} (hemail : isEmail lib ∈ property.decorators)
    (htransform : property.transform = normalised lib) (v : Json) (hv : ∀ s, v ≠ .string s) :
    ∃ d ∈ property.decorators, d.holds (property.transform v) = false := by
  refine ⟨isEmail lib, hemail, ?_⟩
  rw [htransform]
  cases v with
  | string s => exact absurd rfl (hv s)
  | null | bool | number | array | object => rfl

theorem isSome_guard (holds : Bool) (s : JsString) :
    (if holds then some s else none).isSome = holds := by
  cases holds <;> rfl

theorem chain_name (s : JsString) :
    Zod.chain lib [.trim, .min 1 none, .max 80 none] s =
      if within 1 80 (trim s).length then some (trim s) else none := by
  show Zod.chain lib [.min 1 none, .max 80 none] (trim s) = _
  rw [Zod.chain_of_keeps lib (by simp [Zod.Check.value])]
  simp [Zod.Check.holds, within]

theorem chain_email (s : JsString) :
    Zod.chain lib [.trim, .toLowerCase, .email, .max 255 none] s =
      if lib.isEmail (lib.toLowerCase (trim s)) &&
          decide ((lib.toLowerCase (trim s)).length ≤ 255) then
        some (lib.toLowerCase (trim s)) else none := by
  show Zod.chain lib [.email, .max 255 none] (lib.toLowerCase (trim s)) = _
  rw [Zod.chain_of_keeps lib (by simp [Zod.Check.value])]
  simp [Zod.Check.holds]

theorem redeemTwins_sound : ∀ twin ∈ redeemTwins lib, twin.Sound lib := by
  intro twin htwin
  simp only [redeemTwins, redeemInvitationSchema, RedeemInvitationDto.properties,
    List.zipWith3, List.mem_cons, List.not_mem_nil, or_false] at htwin
  rcases htwin with rfl | rfl | rfl | rfl | rfl
  · refine text_sound lib rfl (by decide) rfl (fun _ => Iff.rfl) (fun s => ?_) (fun s => ?_)
      (isString_refuses (by simp [RedeemInvitationDto.tokenProperty]) rfl)
    · rw [Zod.chain_of_keeps lib (by simp [Zod.Check.value]), isSome_guard]
      simp [Zod.Check.holds]
    · simp [RedeemInvitationDto.tokenProperty, isString, minLength, onString]
  · refine text_sound lib rfl (by decide) rfl (fun _ => Iff.rfl) (fun s => ?_) (fun s => ?_)
      (isString_refuses (by simp [RedeemInvitationDto.firstNameProperty]) rfl)
    · rw [chain_name, isSome_guard]
    · simp [RedeemInvitationDto.firstNameProperty, isString, minLength, maxLength, onString,
        within]
  · refine text_sound lib rfl (by decide) rfl (fun _ => Iff.rfl) (fun s => ?_) (fun s => ?_)
      (isString_refuses (by simp [RedeemInvitationDto.lastNameProperty]) rfl)
    · rw [chain_name, isSome_guard]
    · simp [RedeemInvitationDto.lastNameProperty, isString, minLength, maxLength, onString,
        within]
  · refine text_sound lib rfl (by decide) rfl (fun _ => Iff.rfl) (fun s => ?_) (fun s => ?_)
      (isString_refuses (by simp [RedeemInvitationDto.dateOfBirthProperty]) rfl)
    · rw [Zod.chain_of_keeps lib (by simp [Zod.Check.value]), isSome_guard]
      simp [Zod.Check.holds]
    · simp [RedeemInvitationDto.dateOfBirthProperty, isString, matching, onString]
  · refine text_sound lib rfl (by decide) rfl (fun _ => Iff.rfl) (fun s => ?_) (fun s => ?_)
      (isString_refuses (by simp [RedeemInvitationDto.passwordProperty]) rfl)
    · rw [Zod.chain_of_keeps lib (by simp [Zod.Check.value]), isSome_guard]
      simp [Zod.Check.holds, mixed, Bool.and_assoc]
    · simp [RedeemInvitationDto.passwordProperty, isString, minLength, matching, onString, mixed,
        Bool.and_assoc]

theorem signupTwins_sound : ∀ twin ∈ signupTwins lib, twin.Sound lib := by
  intro twin htwin
  simp only [signupTwins, signupSchema, SignupDto.properties,
    List.zipWith3, List.mem_cons, List.not_mem_nil, or_false] at htwin
  rcases htwin with rfl | rfl | rfl | rfl
  · refine text_sound lib rfl (by decide) rfl (normalised_eq_null_iff lib) (fun s => ?_)
      (fun s => ?_) (isEmail_refuses lib (by simp [SignupDto.emailProperty]) rfl)
    · rw [chain_email, isSome_guard]
    · simp [SignupDto.emailProperty, isEmail, maxLength, onString, normalised]
  · refine text_sound lib rfl (by decide) rfl (fun _ => Iff.rfl) (fun s => ?_) (fun s => ?_)
      (isString_refuses (by simp [SignupDto.passwordProperty]) rfl)
    · rw [Zod.chain_of_keeps lib (by simp [Zod.Check.value]), isSome_guard]
      simp [Zod.Check.holds, within, Bool.and_assoc]
    · simp [SignupDto.passwordProperty, isString, minLength, maxLength, matching, onString,
        within, Bool.and_assoc]
  · refine text_sound lib rfl (by decide) rfl (fun _ => Iff.rfl) (fun s => ?_) (fun s => ?_)
      (isString_refuses (by simp [SignupDto.firstNameProperty]) rfl)
    · rw [chain_name, isSome_guard]
    · simp [SignupDto.firstNameProperty, isString, maxLength, onString, within]
  · refine text_sound lib rfl (by decide) rfl (fun _ => Iff.rfl) (fun s => ?_) (fun s => ?_)
      (isString_refuses (by simp [SignupDto.lastNameProperty]) rfl)
    · rw [chain_name, isSome_guard]
    · simp [SignupDto.lastNameProperty, isString, maxLength, onString, within]

/-- What both sides make of an accepted value, when they make the same of it. -/
theorem text_keeps {field : Zod.Field} {property : Property} {schema dto : JsString → Bool}
    {parsed : JsString → JsString} {v : Option Json}
    (hchain : ∀ s, schema s = true → Zod.chain lib field.checks s = some (parsed s))
    (hboth : textStanding field.optional schema dto v = .both) :
    (Twin.mk field property (textStanding field.optional schema dto)).Keeps lib v ↔
      ∀ s, v = some (.string s) → property.transform (.string s) = .string (parsed s) := by
  match v with
  | none =>
      have hoptional : field.optional = true := by
        by_contra hrequired
        rw [Bool.not_eq_true] at hrequired
        rw [textStanding, hrequired] at hboth
        cases hboth
      simp [Twin.Keeps, Zod.Field.parse, hoptional, Except.toOption]
  | some (.string s) =>
      have hschema : schema s = true := by
        have hside := congrArg Standing.schema hboth
        rwa [textStanding, Standing.schema_of] at hside
      rw [Twin.Keeps, (Zod.Field.parse_string lib field s).2 _ (hchain s hschema)]
      simp [eq_comm, Except.toOption]
  | some .null =>
      rw [textStanding] at hboth
      split at hboth <;> cases hboth
  | some (.bool b) => cases hboth
  | some (.number n) => cases hboth
  | some (.array xs) => cases hboth
  | some (.object ms) => cases hboth

theorem keeps_string {field : Zod.Field} {property : Property} {schema dto : JsString → Bool}
    {v : Option Json} (htransform : property.transform = id)
    (hchain : ∀ s, schema s = true → Zod.chain lib field.checks s = some s)
    (hboth : textStanding field.optional schema dto v = .both) :
    (Twin.mk field property (textStanding field.optional schema dto)).Keeps lib v := by
  rw [text_keeps lib hchain hboth, htransform]
  exact fun _ _ => rfl

/-- The body's names, in step. -/
theorem keeps_name {field : Zod.Field} {property : Property} {low : Nat} {v : Option Json}
    (hchecks : field.checks = [.trim, .min 1 none, .max 80 none])
    (hoptional : field.optional = true) (htransform : property.transform = id)
    (hboth : nameStanding lib low v = .both) :
    (Twin.mk field property (nameStanding lib low)).Keeps lib v ↔
      ∀ s, v = some (.string s) → ¬ Padded s := by
  unfold nameStanding at hboth ⊢
  rw [← hoptional] at hboth ⊢
  rw [text_keeps lib (fun s hfits => ?_) hboth, htransform]
  · refine forall₂_congr fun s _ => ?_
    rw [← trim_eq_self_iff, id_eq, Json.string.injEq, eq_comm]
  · rw [hchecks, chain_name, if_pos hfits]

/-! ### The two bodies -/

def redeemStandings (body : Members) : List Standing :=
  unknownStandings lib (redeemInvitationSchema.map Zod.Field.key) body ++
    [tokenStanding lib (body.lookup (text "token")),
      nameStanding lib 1 (body.lookup (text "firstName")),
      nameStanding lib 1 (body.lookup (text "lastName")),
      dateStanding (body.lookup (text "dateOfBirth")),
      redeemPasswordStanding lib (body.lookup (text "password"))]

def signupStandings (body : Members) : List Standing :=
  unknownStandings lib (signupSchema.map Zod.Field.key) body ++
    [emailStanding lib (body.lookup (text "email")),
      signupPasswordStanding lib (body.lookup (text "password")),
      nameStanding lib 0 (body.lookup (text "firstName")),
      nameStanding lib 0 (body.lookup (text "lastName"))]

theorem InStep.congr {standings : List Standing} {Intact Intact' : Prop}
    (hintact : (∀ x ∈ standings, x = .both) → (Intact ↔ Intact')) :
    InStep standings Intact ↔ InStep standings Intact' :=
  or_congr_right (or_congr_right (and_congr_right hintact))

theorem redeem_agree_iff (body : Members) :
    Agree (Zod.safeParse lib redeemInvitationSchema body)
        (validationPipe lib (RedeemInvitationDto.properties lib) body) ↔
      InStep (redeemStandings lib body) (NamesIntact body) := by
  have hkeys : ((redeemTwins lib).map (·.field.key)).Nodup := by
    show [text "token", text "firstName", text "lastName", text "dateOfBirth",
      text "password"].Nodup
    decide
  refine (agree_iff (redeemTwins_sound lib) hkeys).trans (InStep.congr fun hboth => ?_)
  have hstands (twin : Twin) (htwin : twin ∈ redeemTwins lib) :
      twin.standing (body.lookup twin.field.key) = .both :=
    hboth _ (List.mem_append.mpr (Or.inr (List.mem_map.mpr ⟨twin, htwin, rfl⟩)))
  simp only [redeemTwins, redeemInvitationSchema, RedeemInvitationDto.properties,
    List.zipWith3, List.forall_mem_cons, List.not_mem_nil, false_imp_iff, implies_true,
    and_true] at hstands ⊢
  obtain ⟨htoken, hfirst, hlast, hdate, hpassword⟩ := hstands
  rw [keeps_name lib rfl rfl rfl hfirst, keeps_name lib rfl rfl rfl hlast]
  have hkept {checks : List Zod.Check} {s : JsString}
      (hvalue : ∀ check ∈ checks, check.value lib s = s)
      (hholds : (checks.all fun check => check.holds lib s) = true) :
      Zod.chain lib checks s = some s := by
    rw [Zod.chain_of_keeps lib hvalue, if_pos hholds]
  refine ⟨fun hall => ?_, fun hnames => ⟨?_, ?_, ?_, ?_, ?_⟩⟩
  · exact List.forall_mem_cons.mpr ⟨hall.2.1, List.forall_mem_singleton.mpr hall.2.2.1⟩
  · refine keeps_string lib rfl (fun s hfits => hkept (by simp [Zod.Check.value]) ?_) htoken
    simpa [Zod.Check.holds] using hfits
  · exact hnames _ List.mem_cons_self
  · exact hnames _ (List.mem_cons_of_mem _ List.mem_cons_self)
  · refine keeps_string lib rfl (fun s hfits => hkept (by simp [Zod.Check.value]) ?_) hdate
    simpa [Zod.Check.holds] using hfits
  · refine keeps_string lib rfl (fun s hfits => hkept (by simp [Zod.Check.value]) ?_) hpassword
    simpa [Zod.Check.holds, mixed, and_assoc] using hfits

theorem signup_agree_iff (body : Members) :
    Agree (Zod.safeParse lib signupSchema body)
        (validationPipe lib (SignupDto.properties lib) body) ↔
      InStep (signupStandings lib body) (NamesIntact body) := by
  have hkeys : ((signupTwins lib).map (·.field.key)).Nodup := by
    show [text "email", text "password", text "firstName", text "lastName"].Nodup
    decide
  refine (agree_iff (signupTwins_sound lib) hkeys).trans (InStep.congr fun hboth => ?_)
  have hstands (twin : Twin) (htwin : twin ∈ signupTwins lib) :
      twin.standing (body.lookup twin.field.key) = .both :=
    hboth _ (List.mem_append.mpr (Or.inr (List.mem_map.mpr ⟨twin, htwin, rfl⟩)))
  simp only [signupTwins, signupSchema, SignupDto.properties,
    List.zipWith3, List.forall_mem_cons, List.not_mem_nil, false_imp_iff, implies_true,
    and_true] at hstands ⊢
  obtain ⟨hemail, hpassword, hfirst, hlast⟩ := hstands
  rw [keeps_name lib rfl rfl rfl hfirst, keeps_name lib rfl rfl rfl hlast]
  refine ⟨fun hall => ?_, fun hnames => ⟨?_, ?_, ?_, ?_⟩⟩
  · exact List.forall_mem_cons.mpr ⟨hall.2.2.1, List.forall_mem_singleton.mpr hall.2.2.2⟩
  · unfold emailStanding at hemail ⊢
    refine (text_keeps lib (fun s hfits => ?_) hemail).mpr fun s _ => rfl
    rw [chain_email, if_pos hfits]
  · refine keeps_string lib rfl (fun s hfits => ?_) hpassword
    rw [Zod.chain_of_keeps lib (by simp [Zod.Check.value]), if_pos]
    simpa [Zod.Check.holds, within, and_assoc] using hfits
  · exact hnames _ List.mem_cons_self
  · exact hnames _ (List.mem_cons_of_mem _ List.mem_cons_self)

/-- When the shared schemas and the classes of the backend agree on a body. -/
theorem schemas_agree_iff (body : Members) :
    (Agree (Zod.safeParse lib redeemInvitationSchema body)
        (validationPipe lib (RedeemInvitationDto.properties lib) body) ↔
      InStep (redeemStandings lib body) (NamesIntact body)) ∧
    (Agree (Zod.safeParse lib signupSchema body)
        (validationPipe lib (SignupDto.properties lib) body) ↔
      InStep (signupStandings lib body) (NamesIntact body)) :=
  ⟨redeem_agree_iff lib body, signup_agree_iff lib body⟩

/-- The variation selectors for text and for emoji. -/
def isSelector (c : UInt16) : Bool :=
  c == 0xFE0E || c == 0xFE0F

/-- Two code units make one character: a surrogate pair, or a selector after what it
selects a form of. -/
def joins (c d : UInt16) : Bool :=
  isLead c && isTrail d || !isSelector c && isSelector d

def sampleCount (s : JsString) : Nat :=
  s.length - ((s.zip s.tail).filter fun pair => joins pair.1 pair.2).length

/-- What class-transformer drops: the prototype, and the methods that every object has. -/
def INHERITED : List JsString :=
  [text "__proto__", text "constructor", text "hasOwnProperty", text "isPrototypeOf",
    text "propertyIsEnumerable", text "toLocaleString", text "toString", text "valueOf",
    text "__defineGetter__", text "__defineSetter__", text "__lookupGetter__",
    text "__lookupSetter__"]

def sampleValidators : Validators where
  count := sampleCount
  isEmail := fun s => s.contains (unit '@')
  toLowerCase := List.map fun c => if inRange 'A' 'Z' c then c + 32 else c
  stripped := fun k _ => INHERITED.contains k
  stripped_undeclared := by
    have hapart : ∀ k ∈ INHERITED, k ∉ DECLARED := by decide
    exact fun k _ hk => hapart k (List.contains_iff_mem.mp hk)

/-- A new student without a first name, whose form sends `null` for it. -/
def nullName : Members :=
  [(text "token", .string (text "t")), (text "firstName", .null),
    (text "password", .string (text "Abcdefg1"))]

theorem redeem_schema_refuses_null :
    ¬ Agree (Zod.safeParse sampleValidators redeemInvitationSchema nullName)
      (validationPipe sampleValidators (RedeemInvitationDto.properties sampleValidators)
        nullName) := by
  have hschema : (Zod.issues sampleValidators redeemInvitationSchema nullName).isEmpty = false := by
    decide
  have hdto : (issues (RedeemInvitationDto.properties sampleValidators)
      (kept sampleValidators nullName)).isEmpty = true := by
    decide
  rw [Zod.safeParse, validationPipe, if_pos hdto, hschema]
  exact id

end Mes
