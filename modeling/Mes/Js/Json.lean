import Mes.Js.Number

/-!
JSON values as `JSON.parse` makes them, their equality up to the order of members,
and `JSON.stringify`. The members of an object stand in the order of its own
properties.

`stringify` loses the sign of a zero and writes `null` for a number that is not
finite. Nothing else is lost.
-/

namespace Js

inductive Json where
  | null
  | bool (value : Bool)
  | number (value : Number)
  | string (value : JsString)
  | array (items : List Json)
  | object (members : List (JsString × Json))

abbrev Members := List (JsString × Json)

namespace Json

def keys (ms : Members) : List JsString :=
  ms.map Prod.fst

/-- A property holds of every value if each constructor passes it on. -/
theorem induct {P : Json → Prop} (null : P .null) (bool : ∀ b, P (.bool b))
    (number : ∀ n, P (.number n)) (string : ∀ s, P (.string s))
    (array : ∀ xs, (∀ x ∈ xs, P x) → P (.array xs))
    (object : ∀ ms, (∀ m ∈ ms, P m.2) → P (.object ms)) (v : Json) : P v :=
  Json.rec (motive_1 := P) (motive_2 := fun xs => ∀ x ∈ xs, P x)
    (motive_3 := fun ms => ∀ m ∈ ms, P m.2) (motive_4 := fun m => P m.2)
    null bool number string array object
    (fun _ hx => absurd hx List.not_mem_nil)
    (fun _ _ hx hxs => List.forall_mem_cons.mpr ⟨hx, hxs⟩)
    (fun _ hm => absurd hm List.not_mem_nil)
    (fun _ _ hm hms => List.forall_mem_cons.mpr ⟨hm, hms⟩)
    (fun _ _ hv => hv) v

/-! ### Changes at every depth -/

section Deep

variable (f : Number → Json) (g : Members → Members)

mutual

/-- Replace every number by `f` and the members of every object by `g`. -/
def deep : Json → Json
  | .null => .null
  | .bool b => .bool b
  | .number n => f n
  | .string s => .string s
  | .array xs => .array (deepItems xs)
  | .object ms => .object (g (deepMembers ms))

def deepItems : List Json → List Json
  | [] => []
  | x :: xs => deep x :: deepItems xs

def deepMembers : Members → Members
  | [] => []
  | (k, v) :: ms => (k, deep v) :: deepMembers ms

end

/-- The members with their values changed. -/
def onValues (h : Json → Json) (ms : Members) : Members :=
  ms.map fun m => (m.1, h m.2)

theorem deepItems_eq (xs : List Json) : deepItems f g xs = xs.map (deep f g) := by
  induction xs with
  | nil => rfl
  | cons x xs ih => exact congrArg (deep f g x :: ·) ih

theorem deepMembers_eq (ms : Members) : deepMembers f g ms = onValues (deep f g) ms := by
  induction ms with
  | nil => rfl
  | cons m ms ih => exact congrArg ((m.1, deep f g m.2) :: ·) ih

@[simp]
theorem deep_array (xs : List Json) : deep f g (.array xs) = .array (xs.map (deep f g)) :=
  congrArg Json.array (deepItems_eq f g xs)

@[simp]
theorem deep_object (ms : Members) :
    deep f g (.object ms) = .object (g (onValues (deep f g) ms)) :=
  congrArg (fun l => Json.object (g l)) (deepMembers_eq f g ms)

end Deep

@[simp]
theorem keys_onValues (h : Json → Json) (ms : Members) : keys (onValues h ms) = keys ms := by
  unfold keys onValues
  rw [List.map_map]
  rfl

theorem mem_onValues {h : Json → Json} {ms : Members} {k : JsString} {v : Json} :
    (k, v) ∈ onValues h ms ↔ ∃ u, (k, u) ∈ ms ∧ h u = v := by
  constructor
  · intro hmem
    obtain ⟨m, hm, heq⟩ := List.mem_map.mp hmem
    obtain ⟨rfl, rfl⟩ := Prod.mk.inj heq
    exact ⟨m.2, hm, rfl⟩
  · rintro ⟨u, hu, rfl⟩
    exact List.mem_map.mpr ⟨(k, u), hu, rfl⟩

/-! ### Equality up to the order of members -/

mutual

/-- The same value: arrays item by item, objects by what stands under each key, and
zero with either sign. -/
def Same : Json → Json → Prop
  | .null, .null => True
  | .bool b, .bool b' => b = b'
  | .number n, .number n' => n.unsigned = n'.unsigned
  | .string s, .string s' => s = s'
  | .array xs, .array ys => SameItems xs ys
  | .object ms, .object ns => SameMembers ms ns ∧ keys ns ⊆ keys ms
  | _, _ => False

def SameItems : List Json → List Json → Prop
  | [], [] => True
  | x :: xs, y :: ys => Same x y ∧ SameItems xs ys
  | _, _ => False

/-- Each of the first members is one of the second. -/
def SameMembers : Members → Members → Prop
  | [], _ => True
  | (k, v) :: ms, ns => (∃ n ∈ ns, n.1 = k ∧ Same v n.2) ∧ SameMembers ms ns

end

theorem sameItems_iff (xs ys : List Json) : SameItems xs ys ↔ List.Forall₂ Same xs ys := by
  induction xs generalizing ys with
  | nil => cases ys <;> simp [SameItems]
  | cons x xs ih =>
      cases ys with
      | nil => simp [SameItems]
      | cons y ys => rw [SameItems, ih, List.forall₂_cons]

theorem sameMembers_iff (ms ns : Members) :
    SameMembers ms ns ↔ ∀ m ∈ ms, ∃ n ∈ ns, n.1 = m.1 ∧ Same m.2 n.2 := by
  induction ms with
  | nil => simp [SameMembers]
  | cons m ms ih => rw [SameMembers, ih, List.forall_mem_cons]

/-! ### Properties of every part -/

/-- The numbers in a value are all `p`, and the objects have members that are `q`. -/
inductive Each (p : Number → Prop) (q : Members → Prop) : Json → Prop where
  | null : Each p q .null
  | bool (b : Bool) : Each p q (.bool b)
  | number {n : Number} (hn : p n) : Each p q (.number n)
  | string (s : JsString) : Each p q (.string s)
  | array {xs : List Json} (hxs : ∀ x ∈ xs, Each p q x) : Each p q (.array xs)
  | object {ms : Members} (hms : q ms) (hvalues : ∀ m ∈ ms, Each p q m.2) :
      Each p q (.object ms)

/-- No object has two members of one name, as in everything that is parsed. -/
def Parsed : Json → Prop :=
  Each (fun _ => True) fun ms => (keys ms).Nodup

/-! ### `JSON.stringify` -/

def COMMA : UInt16 := unit ','
def COLON : UInt16 := unit ':'
def OPEN_ARRAY : UInt16 := unit '['
def CLOSE_ARRAY : UInt16 := unit ']'
def OPEN_OBJECT : UInt16 := unit '\x7b'
def CLOSE_OBJECT : UInt16 := unit '\x7d'

def stringifyNumber : Number → JsString
  | .finite negative bits => (Number.finite negative bits).toString
  | .infinite _ => text "null"

mutual

def stringify : Json → JsString
  | .null => text "null"
  | .bool b => text (if b then "true" else "false")
  | .number n => stringifyNumber n
  | .string s => quote s
  | .array xs => OPEN_ARRAY :: [COMMA].intercalate (stringifyItems xs) ++ [CLOSE_ARRAY]
  | .object ms => OPEN_OBJECT :: [COMMA].intercalate (stringifyMembers ms) ++ [CLOSE_OBJECT]

def stringifyItems : List Json → List JsString
  | [] => []
  | x :: xs => stringify x :: stringifyItems xs

def stringifyMembers : Members → List JsString
  | [] => []
  | (k, v) :: ms => (quote k ++ COLON :: stringify v) :: stringifyMembers ms

end

def stringifyMember (m : JsString × Json) : JsString :=
  quote m.1 ++ COLON :: stringify m.2

theorem stringifyItems_eq (xs : List Json) : stringifyItems xs = xs.map stringify := by
  induction xs with
  | nil => rfl
  | cons x xs ih => exact congrArg (stringify x :: ·) ih

theorem stringifyMembers_eq (ms : Members) : stringifyMembers ms = ms.map stringifyMember := by
  induction ms with
  | nil => rfl
  | cons m ms ih => exact congrArg (stringifyMember m :: ·) ih

theorem stringify_array (xs : List Json) :
    stringify (.array xs) =
      OPEN_ARRAY :: [COMMA].intercalate (xs.map stringify) ++ [CLOSE_ARRAY] := by
  rw [stringify, stringifyItems_eq]

theorem stringify_object (ms : Members) :
    stringify (.object ms) =
      OPEN_OBJECT :: [COMMA].intercalate (ms.map stringifyMember) ++ [CLOSE_OBJECT] := by
  rw [stringify, stringifyMembers_eq]

/-- What `stringify` makes of a number. -/
def plainNumber : Number → Json
  | .finite negative bits => .number (Number.finite negative bits).unsigned
  | .infinite _ => .null

/-- What remains of a value in its text. -/
def plain : Json → Json :=
  deep plainNumber id

theorem plain_array (xs : List Json) : plain (.array xs) = .array (xs.map plain) :=
  deep_array _ _ xs

theorem plain_object (ms : Members) : plain (.object ms) = .object (onValues plain ms) :=
  deep_object _ _ ms

theorem stringifyNumber_plain (n : Number) : stringify (plainNumber n) = stringifyNumber n := by
  cases n with
  | infinite negative => rfl
  | finite negative bits =>
      show (Number.finite (negative && decide (bits.val ≠ 0)) bits).toString = _
      rw [stringifyNumber, Number.toString_finite, Number.toString_finite]
      split
      · rfl
      · rename_i hbits
        rw [decide_eq_true hbits, Bool.and_true]

/-- Only what remains matters to the text. -/
theorem stringify_plain (v : Json) : stringify (plain v) = stringify v := by
  induction v using Json.induct with
  | null | bool | string => rfl
  | number n => exact stringifyNumber_plain n
  | array xs ih =>
      have hitems : xs.map (stringify ∘ plain) = xs.map stringify := List.map_congr_left ih
      rw [plain_array, stringify_array, stringify_array, List.map_map, hitems]
  | object ms ih =>
      have hmembers : (onValues plain ms).map stringifyMember = ms.map stringifyMember := by
        rw [onValues, List.map_map]
        refine List.map_congr_left fun m hm => ?_
        show quote m.1 ++ COLON :: stringify (plain m.2) = _
        rw [ih m hm]
        rfl
      rw [plain_object, stringify_object, stringify_object, hmembers]

/-! ### Reading a text back -/

/-- What may follow a value in a text. -/
def Ended (r : JsString) : Prop :=
  ∀ c ∈ r.head?, c ∈ [COMMA, CLOSE_ARRAY, CLOSE_OBJECT]

theorem ended_nil : Ended [] := by
  intro c hc
  cases hc

theorem ended_cons {c : UInt16} (hc : c ∈ [COMMA, CLOSE_ARRAY, CLOSE_OBJECT]) (r : JsString) :
    Ended (c :: r) := by
  intro d hd
  cases hd
  exact hc

section Join

variable {α β : Type} {f : α → JsString} {g : α → β} {close : UInt16}

theorem intercalate_cons (x : α) (xs : List α) :
    [COMMA].intercalate ((x :: xs).map f) = f x ++ xs.flatMap fun y => COMMA :: f y := by
  induction xs generalizing x with
  | nil => simp
  | cons y xs ih =>
      rw [List.map_cons, List.map_cons, List.intercalate_cons_cons, ← List.map_cons, ih,
        List.flatMap_cons]
      simp

/-- The value `x` is read back from a text that begins with it. -/
def ReadBack (f : α → JsString) (g : α → β) (x : α) : Prop :=
  ∀ y r r', Ended r → Ended r' → f x ++ r = f y ++ r' → g x = g y ∧ r = r'

theorem tail_inj (hclose : close ∈ [CLOSE_ARRAY, CLOSE_OBJECT]) {xs ys : List α}
    {r r' : JsString} (hread : ∀ x ∈ xs, ReadBack f g x)
    (heq : (xs.flatMap fun y => COMMA :: f y) ++ close :: r =
      (ys.flatMap fun y => COMMA :: f y) ++ close :: r') :
    xs.map g = ys.map g ∧ r = r' := by
  have hne : close ≠ COMMA := by
    rintro rfl
    revert hclose
    decide
  have hended (zs : List α) (t : JsString) :
      Ended ((zs.flatMap fun y => COMMA :: f y) ++ close :: t) := by
    cases zs with
    | nil => exact ended_cons (List.mem_cons_of_mem COMMA hclose) t
    | cons z zs => exact ended_cons List.mem_cons_self _
  induction xs generalizing ys with
  | nil =>
      cases ys with
      | nil => exact ⟨rfl, (List.cons.inj heq).2⟩
      | cons y ys => exact absurd (List.cons.inj heq).1 hne
  | cons x xs ih =>
      cases ys with
      | nil => exact absurd (List.cons.inj heq).1.symm hne
      | cons y ys =>
          have htail : f x ++ ((xs.flatMap fun y => COMMA :: f y) ++ close :: r) =
              f y ++ ((ys.flatMap fun y => COMMA :: f y) ++ close :: r') := by
            simpa using heq
          obtain ⟨hx, hrest⟩ := hread x List.mem_cons_self y _ _ (hended xs r) (hended ys r') htail
          obtain ⟨hxs, hr⟩ := ih (fun z hz => hread z (List.mem_cons_of_mem x hz)) hrest
          exact ⟨congrArg₂ List.cons hx hxs, hr⟩

/-- A list in brackets is read back if its items are. -/
theorem join_inj (hclose : close ∈ [CLOSE_ARRAY, CLOSE_OBJECT])
    (hstart : ∀ x, ∃ c t, f x = c :: t ∧ c ≠ close) {xs ys : List α} {r r' : JsString}
    (hread : ∀ x ∈ xs, ReadBack f g x)
    (heq : [COMMA].intercalate (xs.map f) ++ close :: r =
      [COMMA].intercalate (ys.map f) ++ close :: r') :
    xs.map g = ys.map g ∧ r = r' := by
  cases xs with
  | nil =>
      cases ys with
      | nil => exact ⟨rfl, (List.cons.inj heq).2⟩
      | cons y ys =>
          obtain ⟨c, t, hy, hc⟩ := hstart y
          rw [intercalate_cons, hy] at heq
          exact absurd (List.cons.inj heq).1.symm hc
  | cons x xs =>
      cases ys with
      | nil =>
          obtain ⟨c, t, hx, hc⟩ := hstart x
          rw [intercalate_cons, hx] at heq
          exact absurd (List.cons.inj heq).1 hc
      | cons y ys =>
          rw [intercalate_cons, intercalate_cons] at heq
          have htail : ((x :: xs).flatMap fun z => COMMA :: f z) ++ close :: r =
              ((y :: ys).flatMap fun z => COMMA :: f z) ++ close :: r' := by
            simpa using heq
          exact tail_inj hclose hread htail

end Join

/-- The kind of a value. -/
def kind : Json → Nat
  | .null => 0
  | .bool _ => 1
  | .number _ => 2
  | .string _ => 3
  | .array _ => 4
  | .object _ => 5

/-- The kind of the value whose text begins with a character. -/
def kindOf (c : UInt16) : Nat :=
  if c = unit 'n' then 0
  else if c = unit 't' ∨ c = unit 'f' then 1
  else if numberChar c then 2
  else if c = QUOTE then 3
  else if c = OPEN_ARRAY then 4
  else if c = OPEN_OBJECT then 5
  else 6

theorem kindOf_numberChar {c : UInt16} (hc : numberChar c = true) : kindOf c = 2 := by
  have hnull : c ≠ unit 'n' := by
    rintro rfl
    revert hc
    decide
  have hbool : ¬ (c = unit 't' ∨ c = unit 'f') := by
    rintro (rfl | rfl) <;> revert hc <;> decide
  rw [kindOf, if_neg hnull, if_neg hbool, if_pos hc]

theorem stringify_head (v : Json) :
    ∃ c t, stringify v = c :: t ∧ kindOf c = kind (plain v) := by
  have hnull : text "null" = unit 'n' :: text "ull" := by decide
  have hkinds : kindOf (unit 'n') = 0 ∧ kindOf QUOTE = 3 ∧ kindOf OPEN_ARRAY = 4 ∧
      kindOf OPEN_OBJECT = 5 := by
    decide
  cases v with
  | null => exact ⟨unit 'n', text "ull", hnull, hkinds.1⟩
  | bool b =>
      cases b with
      | true => exact ⟨unit 't', text "rue", by decide, by decide⟩
      | false => exact ⟨unit 'f', text "alse", by decide, by decide⟩
  | number n =>
      cases n with
      | infinite negative => exact ⟨unit 'n', text "ull", hnull, hkinds.1⟩
      | finite negative bits =>
          obtain ⟨c, t, heq⟩ :=
            List.exists_cons_of_ne_nil (Number.toString_ne_nil negative bits)
          have hc := Number.toString_chars negative bits c (heq ▸ List.mem_cons_self)
          exact ⟨c, t, heq, kindOf_numberChar hc⟩
  | string s => exact ⟨QUOTE, escape s ++ [QUOTE], rfl, hkinds.2.1⟩
  | array xs => exact ⟨OPEN_ARRAY, _, rfl, hkinds.2.2.1⟩
  | object ms => exact ⟨OPEN_OBJECT, _, rfl, hkinds.2.2.2⟩

/-- What a value of each kind looks like. -/
def Shape (w : Json) : Nat → Prop
  | 0 => plain w = .null ∧ stringify w = text "null"
  | 1 => ∃ b, w = .bool b
  | 2 => ∃ negative bits, w = .number (.finite negative bits)
  | 3 => ∃ s, w = .string s
  | 4 => ∃ xs, w = .array xs
  | _ => ∃ ms, w = .object ms

theorem shape (w : Json) : Shape w (kind (plain w)) := by
  cases w with
  | null => exact ⟨rfl, rfl⟩
  | bool b => exact ⟨b, rfl⟩
  | number n =>
      cases n with
      | finite negative bits => exact ⟨negative, bits, rfl⟩
      | infinite negative => exact ⟨rfl, rfl⟩
  | string s => exact ⟨s, rfl⟩
  | array xs => exact ⟨xs, rfl⟩
  | object ms => exact ⟨ms, rfl⟩

/-- The kind is read off the first character. -/
theorem shape_of_text {v w : Json} {r r' : JsString}
    (heq : stringify v ++ r = stringify w ++ r') : Shape w (kind (plain v)) := by
  obtain ⟨c, t, hv, hkind⟩ := stringify_head v
  obtain ⟨d, u, hw, hkind'⟩ := stringify_head w
  rw [hv, hw] at heq
  obtain rfl : c = d := (List.cons.inj heq).1
  rw [← hkind, hkind']
  exact shape w

/-- The characters of a number end where the value does. -/
theorem takeWhile_number (negative : Bool) (bits : Fin FINITE) {r : JsString} (hr : Ended r) :
    ((Number.finite negative bits).toString ++ r).takeWhile numberChar =
      (Number.finite negative bits).toString := by
  rw [List.takeWhile_append_of_pos (Number.toString_chars negative bits)]
  cases r with
  | nil => exact List.append_nil _
  | cons c r =>
      have hc : numberChar c = false := by
        have hends : ∀ d ∈ [COMMA, CLOSE_ARRAY, CLOSE_OBJECT], numberChar d = false :=
          forall_mem_of_all (by decide)
        exact hends c (hr c rfl)
      rw [List.takeWhile_cons_of_neg (by rw [hc]; decide), List.append_nil]

theorem closing : CLOSE_ARRAY ∈ [CLOSE_ARRAY, CLOSE_OBJECT] ∧
    CLOSE_OBJECT ∈ [CLOSE_ARRAY, CLOSE_OBJECT] := by
  decide

theorem stringify_start (v : Json) : ∃ c t, stringify v = c :: t ∧ c ≠ CLOSE_ARRAY := by
  obtain ⟨c, t, heq, hkind⟩ := stringify_head v
  refine ⟨c, t, heq, ?_⟩
  rintro rfl
  have hsix : kindOf CLOSE_ARRAY = 6 := by decide
  rw [hsix] at hkind
  generalize plain v = u at hkind
  cases u <;> cases hkind

/-- A value is read back from its text, as far as it remains in it. -/
theorem readBack (v : Json) : ReadBack stringify plain v := by
  induction v using Json.induct with
  | null =>
      intro w r r' hr hr' heq
      obtain ⟨hplain, htext⟩ : plain w = .null ∧ stringify w = text "null" := shape_of_text heq
      rw [htext] at heq
      exact ⟨hplain.symm, List.append_cancel_left heq⟩
  | bool b =>
      intro w r r' hr hr' heq
      obtain ⟨b', rfl⟩ : ∃ b', w = .bool b' := shape_of_text heq
      have htrue : text "true" = unit 't' :: text "rue" := by decide
      have hfalse : text "false" = unit 'f' :: text "alse" := by decide
      have hne : unit 't' ≠ unit 'f' := by decide
      cases b with
      | true =>
          cases b' with
          | true => exact ⟨rfl, List.append_cancel_left heq⟩
          | false =>
              have htexts : text "true" ++ r = text "false" ++ r' := heq
              rw [htrue, hfalse] at htexts
              exact absurd (List.cons.inj htexts).1 hne
      | false =>
          cases b' with
          | false => exact ⟨rfl, List.append_cancel_left heq⟩
          | true =>
              have htexts : text "false" ++ r = text "true" ++ r' := heq
              rw [htrue, hfalse] at htexts
              exact absurd (List.cons.inj htexts).1.symm hne
  | number n =>
      intro w r r' hr hr' heq
      cases n with
      | infinite negative =>
          obtain ⟨hplain, htext⟩ : plain w = .null ∧ stringify w = text "null" :=
            shape_of_text heq
          rw [htext] at heq
          exact ⟨hplain.symm, List.append_cancel_left heq⟩
      | finite negative bits =>
          obtain ⟨negative', bits', rfl⟩ :
            ∃ negative' bits', w = .number (.finite negative' bits') := shape_of_text heq
          have htext := congrArg (List.takeWhile numberChar) heq
          have hsame : (Number.finite negative bits).toString =
              (Number.finite negative' bits').toString :=
            (takeWhile_number negative bits hr).symm.trans
              (htext.trans (takeWhile_number negative' bits' hr'))
          have hrest : (Number.finite negative bits).toString ++ r =
              (Number.finite negative bits).toString ++ r' :=
            Eq.trans heq (congrArg (· ++ r') hsame.symm)
          exact ⟨congrArg Json.number (Number.toString_inj hsame),
            List.append_cancel_left hrest⟩
  | string s =>
      intro w r r' hr hr' heq
      obtain ⟨s', rfl⟩ : ∃ s', w = .string s' := shape_of_text heq
      obtain ⟨rfl, hrest⟩ := quote_append_inj heq
      exact ⟨rfl, hrest⟩
  | array xs ih =>
      intro w r r' hr hr' heq
      obtain ⟨ys, rfl⟩ : ∃ ys, w = .array ys := shape_of_text heq
      rw [stringify_array, stringify_array] at heq
      have hitems : [COMMA].intercalate (xs.map stringify) ++ CLOSE_ARRAY :: r =
          [COMMA].intercalate (ys.map stringify) ++ CLOSE_ARRAY :: r' := by
        simpa using heq
      obtain ⟨hxs, hrest⟩ := join_inj closing.1 stringify_start ih hitems
      rw [plain_array, plain_array, hxs]
      exact ⟨rfl, hrest⟩
  | object ms ih =>
      intro w r r' hr hr' heq
      obtain ⟨ns, rfl⟩ : ∃ ns, w = .object ns := shape_of_text heq
      rw [stringify_object, stringify_object] at heq
      have hmembers : [COMMA].intercalate (ms.map stringifyMember) ++ CLOSE_OBJECT :: r =
          [COMMA].intercalate (ns.map stringifyMember) ++ CLOSE_OBJECT :: r' := by
        simpa using heq
      have hread : ∀ m ∈ ms, ReadBack stringifyMember (fun m => (m.1, plain m.2)) m := by
        intro m hm n t t' ht ht' hmember
        have hquoted : quote m.1 ++ COLON :: (stringify m.2 ++ t) =
            quote n.1 ++ COLON :: (stringify n.2 ++ t') := by
          simpa [stringifyMember] using hmember
        obtain ⟨hkey, hcolon⟩ := quote_append_inj hquoted
        obtain ⟨hvalue, hrest⟩ := ih m hm n.2 t t' ht ht' (List.cons.inj hcolon).2
        exact ⟨Prod.ext hkey hvalue, hrest⟩
      have hstart : ∀ m, ∃ c t, stringifyMember m = c :: t ∧ c ≠ CLOSE_OBJECT :=
        fun m => ⟨QUOTE, _, rfl, by decide⟩
      obtain ⟨hms, hrest⟩ := join_inj closing.2 hstart hread hmembers
      rw [plain_object, plain_object]
      exact ⟨congrArg Json.object hms, hrest⟩

theorem stringify_eq_iff {v w : Json} : stringify v = stringify w ↔ plain v = plain w := by
  constructor
  · intro heq
    exact (readBack v w [] [] ended_nil ended_nil (congrArg (· ++ []) heq)).1
  · intro heq
    rw [← stringify_plain v, heq, stringify_plain]

/-! ### Surrogates -/

theorem whole_stringifyNumber (n : Number) : Whole (stringifyNumber n) := by
  cases n with
  | infinite negative =>
      show Whole (text "null")
      exact whole_of_all (by decide)
  | finite negative bits =>
      exact whole_of_units fun c hc => numberChar_single (Number.toString_chars negative bits c hc)

theorem whole_intercalate {ts : List JsString} (hts : ∀ t ∈ ts, Whole t) :
    Whole ([COMMA].intercalate ts) := by
  have hcomma : Whole [COMMA] := whole_of_all (by decide)
  induction ts with
  | nil => exact whole_nil
  | cons t ts ih =>
      obtain ⟨ht, hrest⟩ := List.forall_mem_cons.mp hts
      cases ts with
      | nil => exact List.intercalate_singleton ▸ ht
      | cons u us =>
          rw [List.intercalate_cons_cons]
          exact (ht.append hcomma).append (ih hrest)

/-- The text has no lone surrogate, whatever the strings in the value. -/
theorem whole_stringify (v : Json) : Whole (stringify v) := by
  induction v using Json.induct with
  | null => exact whole_of_all (by decide)
  | bool b => cases b <;> exact whole_of_all (by decide)
  | number n => exact whole_stringifyNumber n
  | string s => exact whole_quote s
  | array xs ih =>
      rw [stringify_array]
      refine (Whole.cons (by decide) (whole_intercalate ?_)).append (whole_of_all (by decide))
      exact List.forall_mem_map.mpr ih
  | object ms ih =>
      rw [stringify_object]
      refine (Whole.cons (by decide) (whole_intercalate ?_)).append (whole_of_all (by decide))
      exact List.forall_mem_map.mpr fun m hm =>
        (whole_quote m.1).append (Whole.cons (by decide) (ih m hm))

end Json

end Js
