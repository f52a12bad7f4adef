import Mes.Js.Number

/-!
`encodeURIComponent` and `decodeURIComponent` of the language. Both fail with a
`URIError`: the first at half of a pair, the second at a `%` that does not start the
escape of an octet, and at octets that are not the UTF-8 of a character.
-/

namespace Js

def PERCENT : UInt16 := unit '%'

/-- `uriUnescaped`: letters, digits and marks. -/
def isUnescaped (c : UInt16) : Bool :=
  isDigit c || decide (65 ≤ c ∧ c ≤ 90) || decide (97 ≤ c ∧ c ≤ 122) ||
    (text "-_.!~*'()").contains c

def upperHex (n : Nat) : UInt16 :=
  .ofNat (if n < 10 then 48 + n else 55 + n)

/-- The escape of an octet. -/
def percent (octet : UInt8) : JsString :=
  [PERCENT, upperHex (octet.toNat / 16), upperHex (octet.toNat % 16)]

def percentAll (octets : List UInt8) : JsString :=
  octets.flatMap percent

/-- A code unit that is not half of a pair. -/
def encodeUnit (c : UInt16) : Option JsString :=
  if isUnescaped c then some [c]
  else if isSurrogate c then none
  else some (percentAll (String.utf8EncodeChar (.ofNat c.toNat)))

def encodeURIComponent : JsString → Option JsString
  | [] => some []
  | [c] => encodeUnit c
  | c :: d :: rest =>
      if isLead c && isTrail d then
        (encodeURIComponent rest).map
          (percentAll (String.utf8EncodeChar (decodePair c d)) ++ ·)
      else do
        let first ← encodeUnit c
        (encodeURIComponent (d :: rest)).map (first ++ ·)

/-! ### Octets -/

def hexNumeral (c : UInt16) : Option Nat :=
  if 48 ≤ c ∧ c ≤ 57 then some (c.toNat - 48)
  else if 65 ≤ c ∧ c ≤ 70 then some (c.toNat - 55)
  else if 97 ≤ c ∧ c ≤ 102 then some (c.toNat - 87)
  else none

/-- `ParseHexOctet`. -/
def parseHexOctet (h l : UInt16) : Option UInt8 := do
  let high ← hexNumeral h
  let low ← hexNumeral l
  return .ofNat (16 * high + low)

/-- The length of the UTF-8 that starts with an octet, by its leading ones. -/
def utf8Length (octet : UInt8) : Option Nat :=
  let n := octet.toNat
  if n < 0x80 then some 1
  else if n < 0xC0 then none
  else if n < 0xE0 then some 2
  else if n < 0xF0 then some 3
  else if n < 0xF8 then some 4
  else none

/-- The bits of the code point. -/
def utf8Value : List UInt8 → Nat
  | [a] => a.toNat
  | [a, b] => a.toNat % 32 * 64 + b.toNat % 64
  | [a, b, c] => a.toNat % 16 * 4096 + b.toNat % 64 * 64 + c.toNat % 64
  | [a, b, c, d] =>
      a.toNat % 8 * 262144 + b.toNat % 64 * 4096 + c.toNat % 64 * 64 + d.toNat % 64
  | _ => 0

/-- The character of which these octets are the UTF-8. -/
def utf8Char (octets : List UInt8) : Option Char :=
  let c := Char.ofNat (utf8Value octets)
  if String.utf8EncodeChar c = octets then some c else none

/-- `Decode`, with the octets of a character that were read, and how many of its
octets are missing. -/
def decodeFrom (read : List UInt8) (missing : Nat) : JsString → Option JsString
  | [] => if missing = 0 then some [] else none
  | c :: s =>
      if c = PERCENT then
        match s with
        | h :: l :: s =>
            match parseHexOctet h l with
            | none => none
            | some octet =>
                match if missing = 0 then utf8Length octet else some missing with
                | none => none
                | some 1 =>
                    match utf8Char (read ++ [octet]) with
                    | none => none
                    | some char => (decodeFrom [] 0 s).map (units16 char ++ ·)
                | some n => decodeFrom (read ++ [octet]) (n - 1) s
        | _ => none
      else if missing = 0 then (decodeFrom [] 0 s).map (c :: ·)
      else none

def decodeURIComponent (s : JsString) : Option JsString :=
  decodeFrom [] 0 s

/-! ### Reading octets -/

theorem hexNumeral_upperHex : ∀ n < 16, hexNumeral (upperHex n) = some n := by
  decide

theorem parseHexOctet_upperHex (octet : UInt8) :
    parseHexOctet (upperHex (octet.toNat / 16)) (upperHex (octet.toNat % 16)) = some octet := by
  have hlt : octet.toNat < 256 := octet.toNat_lt
  have hvalue : 16 * (octet.toNat / 16) + octet.toNat % 16 = octet.toNat :=
    Nat.div_add_mod octet.toNat 16
  unfold parseHexOctet
  rw [hexNumeral_upperHex _ (by omega), hexNumeral_upperHex _ (by omega)]
  simp only [Option.bind_eq_bind, Option.bind_some, Option.pure_def]
  rw [hvalue, UInt8.ofNat_toNat]

/-- An escape is read as its octet. -/
theorem decodeFrom_percent (read : List UInt8) (missing : Nat) (octet : UInt8) (s : JsString) :
    decodeFrom read missing (percent octet ++ s) =
      match if missing = 0 then utf8Length octet else some missing with
      | none => none
      | some 1 =>
          match utf8Char (read ++ [octet]) with
          | none => none
          | some char => (decodeFrom [] 0 s).map (units16 char ++ ·)
      | some n => decodeFrom (read ++ [octet]) (n - 1) s := by
  simp only [percent, List.cons_append, List.nil_append]
  rw [decodeFrom, if_pos rfl, parseHexOctet_upperHex]

/-- The escapes of all octets of a character are read as the character. -/
theorem decodeFrom_percentAll (char : Char) (s : JsString) (read octets : List UInt8)
    (hchar : utf8Char (read ++ octets) = some char) (hmore : octets ≠ []) :
    decodeFrom read octets.length (percentAll octets ++ s) =
      (decodeFrom [] 0 s).map (units16 char ++ ·) := by
  induction octets generalizing read with
  | nil => exact absurd rfl hmore
  | cons octet octets ih =>
      have hsplit : percentAll (octet :: octets) ++ s = percent octet ++ (percentAll octets ++ s) :=
        List.append_assoc _ _ _
      rw [hsplit, decodeFrom_percent, if_neg (by simp)]
      cases octets with
      | nil =>
          simp only [List.length_cons, List.length_nil]
          rw [hchar]
          rfl
      | cons next octets =>
          rw [List.append_cons] at hchar
          exact ih (read ++ [octet]) hchar (List.cons_ne_nil _ _)

/-! ### UTF-8 -/

theorem char_lt (char : Char) : char.toNat < 1114112 := by
  rcases char.valid with hlow | hhigh
  · exact Nat.lt_trans hlow (by decide)
  · exact hhigh.2

theorem utf8Value_utf8EncodeChar (char : Char) :
    utf8Value (String.utf8EncodeChar char) = char.toNat := by
  have hlt := char_lt char
  have hval : char.val.toNat = char.toNat := rfl
  unfold String.utf8EncodeChar
  simp only [hval]
  split_ifs
  all_goals
    simp only [utf8Value, UInt8.toNat_ofNat']
    omega

theorem utf8Char_utf8EncodeChar (char : Char) :
    utf8Char (String.utf8EncodeChar char) = some char := by
  unfold utf8Char
  rw [utf8Value_utf8EncodeChar, Char.ofNat_toNat]
  exact if_pos rfl

theorem utf8Length_utf8EncodeChar (char : Char) :
    ∃ octet octets, String.utf8EncodeChar char = octet :: octets ∧
      utf8Length octet = some (octets.length + 1) := by
  have hlt := char_lt char
  have hval : char.val.toNat = char.toNat := rfl
  unfold String.utf8EncodeChar
  simp only [hval]
  split_ifs
  all_goals
    refine ⟨_, _, rfl, ?_⟩
    simp only [utf8Length, UInt8.toNat_ofNat', List.length_cons, List.length_nil]
    split_ifs <;> first | rfl | omega

/-- The escapes of a character are read as the character. -/
theorem decodeFrom_utf8EncodeChar (char : Char) (s : JsString) :
    decodeFrom [] 0 (percentAll (String.utf8EncodeChar char) ++ s) =
      (decodeFrom [] 0 s).map (units16 char ++ ·) := by
  obtain ⟨octet, octets, heq, hlength⟩ := utf8Length_utf8EncodeChar char
  have hall := decodeFrom_percentAll char s [] (octet :: octets)
    (heq ▸ utf8Char_utf8EncodeChar char) (List.cons_ne_nil _ _)
  have hsplit : percentAll (octet :: octets) ++ s = percent octet ++ (percentAll octets ++ s) :=
    List.append_assoc _ _ _
  rw [heq, ← hall, hsplit, decodeFrom_percent, decodeFrom_percent, if_pos rfl, hlength]
  rfl

/-! ### Strings -/

/-- A character of an encoded text. -/
def encodeChar (char : Char) : JsString :=
  if (units16 char).all isUnescaped then units16 char
  else percentAll (String.utf8EncodeChar char)

/-- A character is one code unit, or a pair. -/
theorem units16_cases (char : Char) :
    (∃ c, units16 char = [c] ∧ isSurrogate c = false ∧ Char.ofNat c.toNat = char) ∨
      ∃ c d, units16 char = [c, d] ∧ isLead c = true ∧ isTrail d = true ∧
        decodePair c d = char := by
  have hlt := char_lt char
  by_cases hplane : char.toNat < 0x10000
  · refine Or.inl ⟨unit char, by rw [units16, if_pos hplane], ?_, ?_⟩
    · have hvalid : char.toNat < 0xD800 ∨ 0xDFFF < char.toNat := by
        rcases char.valid with hlow | hhigh
        · exact Or.inl hlow
        · exact Or.inr hhigh.1
      simp only [isSurrogate, isLead, isTrail, unit, Bool.or_eq_false_iff,
        decide_eq_false_iff_not, UInt16.le_iff_toNat_le, UInt16.reduceToNat, UInt16.toNat_ofNat']
      omega
    · rw [unit, UInt16.toNat_ofNat', Nat.mod_eq_of_lt hplane, Char.ofNat_toNat]
  · refine Or.inr ⟨_, _, by rw [units16, if_neg hplane], ?_, ?_, ?_⟩
    · simp only [isLead, decide_eq_true_eq, UInt16.le_iff_toNat_le, UInt16.reduceToNat,
        UInt16.toNat_ofNat']
      omega
    · simp only [isTrail, decide_eq_true_eq, UInt16.le_iff_toNat_le, UInt16.reduceToNat,
        UInt16.toNat_ofNat']
      omega
    · have hvalue : 0x10000 + ((0xD800 + (char.toNat - 0x10000) / 0x400) % 2 ^ 16 - 0xD800) *
          0x400 + ((0xDC00 + (char.toNat - 0x10000) % 0x400) % 2 ^ 16 - 0xDC00) =
          char.toNat := by
        omega
      rw [decodePair, UInt16.toNat_ofNat', UInt16.toNat_ofNat', hvalue, Char.ofNat_toNat]

theorem decodeChars_units16 (char : Char) (s : JsString) :
    decodeChars (units16 char ++ s) = char :: decodeChars s := by
  rcases units16_cases char with ⟨c, heq, hc, hchar⟩ | ⟨c, d, heq, hc, hd, hchar⟩
  · have hlead : isLead c = false := (Bool.or_eq_false_iff.mp hc).1
    have hunit : decodeUnit c = char := by
      rw [decodeUnit, hc, if_neg Bool.false_ne_true, hchar]
    rw [heq, List.singleton_append]
    cases s with
    | nil => exact congrArg (fun c => [c]) hunit
    | cons d rest =>
        rw [decodeChars, hlead, Bool.false_and, if_neg Bool.false_ne_true, hunit]
  · rw [heq]
    simp only [List.cons_append, List.nil_append]
    rw [decodeChars, hc, hd, Bool.and_true, if_pos rfl, hchar]

/-- A literal has no surrogate that stands alone. -/
theorem wellFormed_text (s : String) : WellFormed (text s) := by
  have hchars (chars : List Char) : decodeChars (chars.flatMap units16) = chars := by
    induction chars with
    | nil => rfl
    | cons char chars ih => rw [List.flatMap_cons, decodeChars_units16, ih]
  show (decodeChars (s.toList.flatMap units16)).flatMap units16 = text s
  rw [hchars]
  rfl

theorem text_append (s t : String) : text (s ++ t) = text s ++ text t := by
  unfold text
  rw [String.toList_append, List.flatMap_append]

theorem text_ne_nil {s : String} (hs : s ≠ "") : text s ≠ [] := by
  have hlist : s.toList ≠ [] := by
    intro hnil
    exact hs (String.toList_inj.mp hnil)
  obtain ⟨char, chars, heq⟩ := List.exists_cons_of_ne_nil hlist
  rw [text, heq, List.flatMap_cons]
  rcases units16_cases char with ⟨c, hunits, -⟩ | ⟨c, d, hunits, -⟩
  · simp [hunits]
  · simp [hunits]

theorem isUnescaped_lt {c : UInt16} (hc : isUnescaped c = true) : c.toNat < 128 := by
  have hmarks : ∀ m ∈ text "-_.!~*'()", m.toNat < 128 :=
    forall_mem_of_all (by decide)
  simp only [isUnescaped, isDigit, Bool.or_eq_true, decide_eq_true_eq,
    List.contains_iff_mem, UInt16.le_iff_toNat_le, UInt16.reduceToNat] at hc
  rcases hc with hrange | hmark
  · omega
  · exact hmarks c hmark

theorem isUnescaped_surrogate {c : UInt16} (hc : isSurrogate c = true) :
    isUnescaped c = false := by
  by_contra hplain
  have hlt := isUnescaped_lt (Bool.eq_true_of_not_eq_false hplain)
  simp only [isSurrogate, isLead, isTrail, Bool.or_eq_true, decide_eq_true_eq,
    UInt16.le_iff_toNat_le, UInt16.reduceToNat] at hc
  omega

theorem encodeURIComponent_cons {c : UInt16} (hc : isSurrogate c = false) (s : JsString) :
    encodeURIComponent (c :: s) =
      (encodeUnit c).bind fun first => (encodeURIComponent s).map (first ++ ·) := by
  have hlead : isLead c = false := (Bool.or_eq_false_iff.mp hc).1
  cases s with
  | nil => cases hunit : encodeUnit c <;> simp [encodeURIComponent, hunit]
  | cons d rest =>
      rw [encodeURIComponent, hlead, Bool.false_and, if_neg Bool.false_ne_true]
      rfl

theorem encodeURIComponent_units16 (char : Char) (s : JsString) :
    encodeURIComponent (units16 char ++ s) =
      (encodeURIComponent s).map (encodeChar char ++ ·) := by
  unfold encodeChar
  rcases units16_cases char with ⟨c, heq, hc, hchar⟩ | ⟨c, d, heq, hc, hd, hchar⟩
  · rw [heq, List.singleton_append, encodeURIComponent_cons hc, List.all_cons, List.all_nil,
      Bool.and_true, encodeUnit, hc, hchar, if_neg Bool.false_ne_true]
    cases isUnescaped c <;> rfl
  · have hescaped : isUnescaped c = false :=
      isUnescaped_surrogate (Bool.or_eq_true_iff.mpr (Or.inl hc))
    rw [heq, List.all_cons, hescaped, Bool.false_and, if_neg Bool.false_ne_true]
    simp only [List.cons_append, List.nil_append]
    rw [encodeURIComponent, hc, hd, Bool.and_true, if_pos rfl, hchar]

theorem encodeURIComponent_flatMap (chars : List Char) :
    encodeURIComponent (chars.flatMap units16) = some (chars.flatMap encodeChar) := by
  induction chars with
  | nil => rfl
  | cons char chars ih =>
      rw [List.flatMap_cons, encodeURIComponent_units16, ih, Option.map_some, List.flatMap_cons]

theorem decodeFrom_encodeChar (char : Char) (s : JsString) :
    decodeFrom [] 0 (encodeChar char ++ s) = (decodeFrom [] 0 s).map (units16 char ++ ·) := by
  unfold encodeChar
  split
  · rename_i hplain
    rcases units16_cases char with ⟨c, heq, -, -⟩ | ⟨c, d, heq, hc, -, -⟩
    · rw [heq] at hplain ⊢
      have hc : c ≠ PERCENT := by
        rintro rfl
        exact absurd (List.all_eq_true.mp hplain _ List.mem_cons_self) (by decide)
      rw [List.singleton_append, decodeFrom.eq_def]
      dsimp only
      rw [if_neg hc, if_pos rfl]
      rfl
    · rw [heq] at hplain
      have hescaped := isUnescaped_surrogate (Bool.or_eq_true_iff.mpr (Or.inl hc))
      rw [List.all_eq_true.mp hplain c List.mem_cons_self] at hescaped
      exact absurd hescaped (by decide)
  · exact decodeFrom_utf8EncodeChar char s

theorem decodeURIComponent_flatMap (chars : List Char) :
    decodeURIComponent (chars.flatMap encodeChar) = some (chars.flatMap units16) := by
  unfold decodeURIComponent
  induction chars with
  | nil => rfl
  | cons char chars ih =>
      rw [List.flatMap_cons, decodeFrom_encodeChar, ih, Option.map_some, List.flatMap_cons]

theorem upperHex_isUnescaped : ∀ n < 16, isUnescaped (upperHex n) = true := by
  decide

theorem mem_percentAll {octets : List UInt8} {c : UInt16} (hc : c ∈ percentAll octets) :
    c = PERCENT ∨ isUnescaped c = true := by
  obtain ⟨octet, -, hmem⟩ := List.mem_flatMap.mp hc
  have hlt : octet.toNat < 256 := octet.toNat_lt
  simp only [percent, List.mem_cons, List.not_mem_nil, or_false] at hmem
  rcases hmem with rfl | rfl | rfl
  · exact Or.inl rfl
  · exact Or.inr (upperHex_isUnescaped _ (by omega))
  · exact Or.inr (upperHex_isUnescaped _ (by omega))

theorem mem_encodeChar {char : Char} {c : UInt16} (hc : c ∈ encodeChar char) :
    c = PERCENT ∨ isUnescaped c = true := by
  unfold encodeChar at hc
  split at hc
  · rename_i hplain
    exact Or.inr (List.all_eq_true.mp hplain c hc)
  · exact mem_percentAll hc

theorem encodeChar_ne_nil (char : Char) : encodeChar char ≠ [] := by
  unfold encodeChar
  split
  · rcases units16_cases char with ⟨c, heq, -⟩ | ⟨c, d, heq, -⟩
    · simp [heq]
    · simp [heq]
  · obtain ⟨octet, octets, heq, -⟩ := utf8Length_utf8EncodeChar char
    simp [heq, percentAll, percent]

/-- A well-formed text is encoded, in marks, letters and digits, and read back. -/
theorem encodeURIComponent_of_wellFormed {s : JsString} (hs : WellFormed s) :
    ∃ encoded, encodeURIComponent s = some encoded ∧ decodeURIComponent encoded = some s ∧
      (∀ c ∈ encoded, c = PERCENT ∨ isUnescaped c = true) ∧ (s ≠ [] → encoded ≠ []) := by
  refine ⟨(decodeChars s).flatMap encodeChar, ?_, ?_, ?_, ?_⟩
  · rw [← encodeURIComponent_flatMap, hs]
  · rw [decodeURIComponent_flatMap, hs]
  · intro c hc
    obtain ⟨char, -, hmem⟩ := List.mem_flatMap.mp hc
    exact mem_encodeChar hmem
  · intro hne hnil
    have hchars : decodeChars s = [] := by
      cases hlist : decodeChars s with
      | nil => rfl
      | cons char chars =>
          rw [hlist, List.flatMap_cons, List.append_eq_nil_iff] at hnil
          exact absurd hnil.1 (encodeChar_ne_nil char)
    exact hne (by rw [← hs, hchars, List.flatMap_nil])

example : decodeURIComponent (text "%C3%A9%") = none := by decide +kernel

example : decodeURIComponent (text "a%2Fé") = some (text "a/é") := by decide +kernel

end Js
