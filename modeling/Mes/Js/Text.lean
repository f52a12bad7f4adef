import Mathlib.Data.List.DropRight
import Mathlib.Tactic

/-!
Strings of JavaScript: lists of UTF-16 code units, in which a surrogate may stand
alone. `quote` is `QuoteJSONString` of the language. `unescape` reads such a text
back, which shows that no two strings are quoted alike.
-/

namespace Js

abbrev JsString := List UInt16

instance : LawfulBEq JsString := inferInstance

/-- The code unit of a character of the basic plane. -/
def unit (c : Char) : UInt16 :=
  .ofNat c.toNat

/-- The code units of a character. -/
def units16 (c : Char) : JsString :=
  if c.toNat < 0x10000 then [unit c]
  else
    [.ofNat (0xD800 + (c.toNat - 0x10000) / 0x400),
      .ofNat (0xDC00 + (c.toNat - 0x10000) % 0x400)]

/-- A search of the list, where the type of its elements is too large to search. -/
theorem forall_mem_of_all {α : Type} {p : α → Prop} [DecidablePred p] {s : List α}
    (hs : (s.all fun c => decide (p c)) = true) : ∀ c ∈ s, p c := by
  simpa using hs

/-- A literal of the program. -/
def text (s : String) : JsString :=
  s.toList.flatMap units16

def isLead (c : UInt16) : Bool :=
  decide (0xD800 ≤ c ∧ c ≤ 0xDBFF)

def isTrail (c : UInt16) : Bool :=
  decide (0xDC00 ≤ c ∧ c ≤ 0xDFFF)

def isSurrogate (c : UInt16) : Bool :=
  isLead c || isTrail c

/-- White space and line terminators of the language. -/
def isSpace (c : UInt16) : Bool :=
  [0x09, 0x0A, 0x0B, 0x0C, 0x0D, 0x20, 0xA0, 0x1680, 0x2028, 0x2029, 0x202F, 0x205F, 0x3000,
    0xFEFF].contains c || decide (0x2000 ≤ c ∧ c ≤ 0x200A)

/-- `String.prototype.trim`. -/
def trim (s : JsString) : JsString :=
  (s.dropWhile isSpace).rdropWhile isSpace

/-- There is white space at one end. -/
def Padded (s : JsString) : Prop :=
  s.head?.any isSpace = true ∨ s.getLast?.any isSpace = true

theorem dropWhile_isSpace_iff (s : JsString) :
    s.dropWhile isSpace = s ↔ s.head?.any isSpace = false := by
  cases s with
  | nil => simp
  | cons c s =>
      rw [List.dropWhile_eq_self_iff]
      simp

theorem rdropWhile_isSpace_iff (s : JsString) :
    s.rdropWhile isSpace = s ↔ s.getLast?.any isSpace = false := by
  rw [List.rdropWhile_eq_self_iff]
  cases s with
  | nil => simp
  | cons c s => simp [List.getLast?_eq_some_getLast]

theorem trim_eq_self_iff (s : JsString) : trim s = s ↔ ¬ Padded s := by
  rw [Padded, not_or, Bool.not_eq_true, Bool.not_eq_true, ← dropWhile_isSpace_iff,
    ← rdropWhile_isSpace_iff]
  constructor
  · intro htrim
    have hsuffix := List.dropWhile_suffix (l := s) isSpace
    have hshort := (List.rdropWhile_prefix isSpace (s.dropWhile isSpace)).length_le
    have hlength : s.length ≤ (s.dropWhile isSpace).length := by
      rw [← congrArg List.length htrim]
      exact hshort
    have hwhole := hsuffix.eq_of_length_le hlength
    exact ⟨hwhole, by rwa [trim, hwhole] at htrim⟩
  · rintro ⟨hleft, hright⟩
    rw [trim, hleft, hright]

def QUOTE : UInt16 := unit '"'

def BACKSLASH : UInt16 := unit '\\'

/-! ### Escapes -/

/-- The code units with an escape of two characters, and its second one. -/
def shortEscapes : List (UInt16 × UInt16) :=
  [(0x08, unit 'b'), (0x09, unit 't'), (0x0A, unit 'n'), (0x0C, unit 'f'), (0x0D, unit 'r'),
    (QUOTE, QUOTE), (BACKSLASH, BACKSLASH)]

def hexDigit (n : Nat) : UInt16 :=
  .ofNat (if n < 10 then 48 + n else 87 + n)

/-- `UnicodeEscape`, in lower case. -/
def unicodeEscape (c : UInt16) : JsString :=
  [BACKSLASH, unit 'u', hexDigit (c.toNat / 0x1000), hexDigit (c.toNat / 0x100 % 0x10),
    hexDigit (c.toNat / 0x10 % 0x10), hexDigit (c.toNat % 0x10)]

/-- A code unit that is not half of a pair. -/
def escapeUnit (c : UInt16) : JsString :=
  match shortEscapes.lookup c with
  | some e => [BACKSLASH, e]
  | none => if c < 0x20 || isSurrogate c then unicodeEscape c else [c]

def escape : JsString → JsString
  | [] => []
  | [c] => escapeUnit c
  | c :: d :: rest =>
      if isLead c && isTrail d then c :: d :: escape rest
      else escapeUnit c ++ escape (d :: rest)

/-- `QuoteJSONString`. -/
def quote (s : JsString) : JsString :=
  QUOTE :: escape s ++ [QUOTE]

/-! ### Reading back -/

def hexValue (d : UInt16) : Nat :=
  if d.toNat < 97 then d.toNat - 48 else d.toNat - 87

theorem hexValue_hexDigit : ∀ n < 16, hexValue (hexDigit n) = n := by
  decide

/-- The code unit that a short escape stands for. -/
def shortValue (e : UInt16) : UInt16 :=
  ((shortEscapes.find? fun p => p.2 == e).map Prod.fst).getD e

/-- The string up to the closing quote, and what follows it. -/
def unescape : JsString → Option (JsString × JsString)
  | [] => none
  | c :: rest =>
      if c = QUOTE then some ([], rest)
      else if c = BACKSLASH then
        match rest with
        | [] => none
        | e :: rest =>
            if e = unit 'u' then
              match rest with
              | a :: b :: c :: d :: rest =>
                  let n := ((hexValue a * 16 + hexValue b) * 16 + hexValue c) * 16 + hexValue d
                  (unescape rest).map fun read => (.ofNat n :: read.1, read.2)
              | _ => none
            else (unescape rest).map fun read => (shortValue e :: read.1, read.2)
      else (unescape rest).map fun read => (c :: read.1, read.2)

theorem unescape_quote (r : JsString) : unescape (QUOTE :: r) = some ([], r) := by
  rw [unescape.eq_def]
  exact if_pos rfl

/-- An escape of two characters. -/
theorem unescape_short {e : UInt16} (hshort : e ≠ unit 'u') (t : JsString) :
    unescape (BACKSLASH :: e :: t) =
      (unescape t).map fun read => (shortValue e :: read.1, read.2) := by
  rw [unescape.eq_def]
  dsimp only
  rw [if_neg (by decide), if_pos rfl, if_neg hshort]

theorem unescape_literal {c : UInt16} (hquote : c ≠ QUOTE) (hbackslash : c ≠ BACKSLASH)
    (t : JsString) :
    unescape (c :: t) = (unescape t).map fun read => (c :: read.1, read.2) := by
  rw [unescape.eq_def]
  dsimp only
  rw [if_neg hquote, if_neg hbackslash]

theorem unescape_unicode (c : UInt16) (t : JsString) :
    unescape (unicodeEscape c ++ t) =
      (unescape t).map fun read => (c :: read.1, read.2) := by
  have hlt : c.toNat < 65536 := c.toNat_lt
  have hvalue : ((c.toNat / 0x1000 * 16 + c.toNat / 0x100 % 0x10) * 16 +
      c.toNat / 0x10 % 0x10) * 16 + c.toNat % 0x10 = c.toNat := by
    omega
  simp only [unicodeEscape, List.cons_append, List.nil_append]
  rw [unescape.eq_def]
  dsimp only
  rw [if_neg (by decide), if_pos rfl, if_pos rfl, hexValue_hexDigit _ (by omega),
    hexValue_hexDigit _ (by omega), hexValue_hexDigit _ (by omega),
    hexValue_hexDigit _ (by omega), hvalue, UInt16.ofNat_toNat]

theorem shortEscapes_read :
    ∀ p ∈ shortEscapes, p.2 ≠ unit 'u' ∧ shortValue p.2 = p.1 :=
  forall_mem_of_all (by decide)

theorem unescape_escapeUnit (c : UInt16) (t : JsString) :
    unescape (escapeUnit c ++ t) = (unescape t).map fun read => (c :: read.1, read.2) := by
  unfold escapeUnit
  cases hlookup : shortEscapes.lookup c with
  | some e =>
      have hmem : (c, e) ∈ shortEscapes := by
        obtain ⟨before, after, heq, -⟩ := List.lookup_eq_some_iff.mp hlookup
        rw [heq]
        exact List.mem_append_right before List.mem_cons_self
      obtain ⟨hshort, hvalue⟩ := shortEscapes_read (c, e) hmem
      exact (unescape_short hshort t).trans (by rw [hvalue])
  | none =>
      dsimp only
      split
      · exact unescape_unicode c t
      · refine unescape_literal ?_ ?_ t
        · rintro rfl
          exact absurd hlookup (by decide)
        · rintro rfl
          exact absurd hlookup (by decide)

/-- A quoted string is read back, with what follows it. -/
theorem unescape_escape (s r : JsString) :
    unescape (escape s ++ QUOTE :: r) = some (s, r) := by
  have hsurrogate : ∀ c : UInt16, isLead c = true ∨ isTrail c = true →
      c ≠ QUOTE ∧ c ≠ BACKSLASH := by
    intro c hc
    constructor <;> rintro rfl <;> revert hc <;> decide
  fun_induction escape s with
  | case1 => exact unescape_quote r
  | case2 c => rw [unescape_escapeUnit, unescape_quote, Option.map_some]
  | case3 c d rest hpair ih =>
      rw [Bool.and_eq_true] at hpair
      obtain ⟨hlead, htrail⟩ := hpair
      obtain ⟨hc, hc'⟩ := hsurrogate c (Or.inl hlead)
      obtain ⟨hd, hd'⟩ := hsurrogate d (Or.inr htrail)
      simp only [List.cons_append]
      rw [unescape_literal hc hc', unescape_literal hd hd', ih]
      rfl
  | case4 c d rest hpair ih => rw [List.append_assoc, unescape_escapeUnit, ih, Option.map_some]

theorem quote_append_inj {s s' r r' : JsString} (heq : quote s ++ r = quote s' ++ r') :
    s = s' ∧ r = r' := by
  have htail : escape s ++ QUOTE :: r = escape s' ++ QUOTE :: r' := by
    simpa [quote] using heq
  have hread := congrArg unescape htail
  rw [unescape_escape, unescape_escape] at hread
  exact Prod.mk.inj (Option.some.inj hread)

/-! ### Characters -/

/-- The character of a code unit that is not half of a pair. -/
def decodeUnit (c : UInt16) : Char :=
  if isSurrogate c then '\uFFFD' else .ofNat c.toNat

def decodePair (c d : UInt16) : Char :=
  .ofNat (0x10000 + (c.toNat - 0xD800) * 0x400 + (d.toNat - 0xDC00))

def decodeChars : JsString → List Char
  | [] => []
  | [c] => [decodeUnit c]
  | c :: d :: rest =>
      if isLead c && isTrail d then decodePair c d :: decodeChars rest
      else decodeUnit c :: decodeChars (d :: rest)

/-- The characters of a string, in which a lone surrogate becomes `U+FFFD`. -/
def decode (s : JsString) : String :=
  .ofList (decodeChars s)

/-- No surrogate stands alone. -/
def WellFormed (s : JsString) : Prop :=
  (decodeChars s).flatMap units16 = s

theorem decode_inj {s t : JsString} (hs : WellFormed s) (ht : WellFormed t)
    (heq : decode s = decode t) : s = t := by
  have hchars : decodeChars s = decodeChars t := String.ofList_injective heq
  rw [← hs, hchars, ht]

theorem toNat_ofNat {n : Nat} (hn : n.isValidChar) : (Char.ofNat n).toNat = n := by
  rw [Char.ofNat, dif_pos hn]
  rfl

theorem units16_decodeUnit {c : UInt16} (hc : isSurrogate c = false) :
    units16 (decodeUnit c) = [c] := by
  have hlt : c.toNat < 65536 := c.toNat_lt
  have hvalid : c.toNat.isValidChar := by
    simp only [isSurrogate, isLead, isTrail, Bool.or_eq_false_iff, decide_eq_false_iff_not,
      UInt16.le_iff_toNat_le, UInt16.reduceToNat] at hc
    unfold Nat.isValidChar
    omega
  unfold decodeUnit units16 unit
  rw [hc, if_neg Bool.false_ne_true, toNat_ofNat hvalid, if_pos hlt, UInt16.ofNat_toNat]

theorem units16_decodePair {c d : UInt16} (hc : isLead c = true) (hd : isTrail d = true) :
    units16 (decodePair c d) = [c, d] := by
  simp only [isLead, isTrail, decide_eq_true_eq, UInt16.le_iff_toNat_le,
    UInt16.reduceToNat] at hc hd
  have hvalid : (0x10000 + (c.toNat - 0xD800) * 0x400 + (d.toNat - 0xDC00)).isValidChar := by
    unfold Nat.isValidChar
    omega
  have hlead : 0xD800 + (0x10000 + (c.toNat - 0xD800) * 0x400 + (d.toNat - 0xDC00) -
      0x10000) / 0x400 = c.toNat := by
    omega
  have htrail : 0xDC00 + (0x10000 + (c.toNat - 0xD800) * 0x400 + (d.toNat - 0xDC00) -
      0x10000) % 0x400 = d.toNat := by
    omega
  unfold decodePair units16
  rw [toNat_ofNat hvalid, if_neg (by omega), hlead, htrail, UInt16.ofNat_toNat,
    UInt16.ofNat_toNat]

/-- A text after which a well-formed one is not broken. -/
def Whole (s : JsString) : Prop :=
  ∀ t, WellFormed t → WellFormed (s ++ t)

theorem Whole.wellFormed {s : JsString} (hs : Whole s) : WellFormed s := by
  have hwell := hs [] rfl
  rwa [List.append_nil] at hwell

theorem Whole.append {s t : JsString} (hs : Whole s) (ht : Whole t) : Whole (s ++ t) := by
  intro u hu
  rw [List.append_assoc]
  exact hs _ (ht u hu)

theorem whole_nil : Whole [] :=
  fun _ ht => ht

theorem Whole.cons {c : UInt16} (hc : isSurrogate c = false) {s : JsString} (hs : Whole s) :
    Whole (c :: s) := by
  intro t ht
  have hrest := hs t ht
  have hlead : isLead c = false := (Bool.or_eq_false_iff.mp hc).1
  have hchars : decodeChars (c :: (s ++ t)) = decodeUnit c :: decodeChars (s ++ t) := by
    cases s ++ t with
    | nil => rfl
    | cons d rest => rw [decodeChars, hlead, Bool.false_and, if_neg Bool.false_ne_true]
  show (decodeChars (c :: (s ++ t))).flatMap units16 = c :: (s ++ t)
  rw [hchars, List.flatMap_cons, units16_decodeUnit hc, hrest]
  rfl

theorem Whole.pair {c d : UInt16} (hc : isLead c = true) (hd : isTrail d = true)
    {s : JsString} (hs : Whole s) : Whole (c :: d :: s) := by
  intro t ht
  have hrest := hs t ht
  show (decodeChars (c :: d :: (s ++ t))).flatMap units16 = c :: d :: (s ++ t)
  rw [decodeChars, hc, hd, Bool.and_true, if_pos rfl, List.flatMap_cons,
    units16_decodePair hc hd, hrest]
  rfl

theorem whole_of_units {s : JsString} (hs : ∀ c ∈ s, isSurrogate c = false) : Whole s := by
  induction s with
  | nil => exact whole_nil
  | cons c s ih =>
      obtain ⟨hc, hrest⟩ := List.forall_mem_cons.mp hs
      exact Whole.cons hc (ih hrest)

/-- A text of the program. -/
theorem whole_of_all {s : JsString} (hs : (s.all fun c => decide (isSurrogate c = false)) = true) :
    Whole s :=
  whole_of_units (forall_mem_of_all hs)

theorem whole_escapeUnit (c : UInt16) : Whole (escapeUnit c) := by
  have hhex : ∀ n < 16, isSurrogate (hexDigit n) = false := by decide
  have hshort : ∀ p ∈ shortEscapes, isSurrogate p.2 = false :=
    forall_mem_of_all (by decide)
  have hbackslash : isSurrogate BACKSLASH = false := by decide
  have hlt : c.toNat < 65536 := c.toNat_lt
  unfold escapeUnit
  cases hlookup : shortEscapes.lookup c with
  | some e =>
      obtain ⟨before, after, heq, -⟩ := List.lookup_eq_some_iff.mp hlookup
      have hmem : (c, e) ∈ shortEscapes := heq ▸ List.mem_append_right before List.mem_cons_self
      exact Whole.cons hbackslash (Whole.cons (hshort _ hmem) whole_nil)
  | none =>
      dsimp only
      split
      · exact Whole.cons hbackslash (Whole.cons (by decide)
          (Whole.cons (hhex _ (by omega)) (Whole.cons (hhex _ (by omega))
            (Whole.cons (hhex _ (by omega)) (Whole.cons (hhex _ (by omega)) whole_nil)))))
      · rename_i hplain
        rw [Bool.or_eq_true, not_or] at hplain
        exact Whole.cons (Bool.eq_false_of_not_eq_true hplain.2) whole_nil

theorem whole_escape (s : JsString) : Whole (escape s) := by
  fun_induction escape s with
  | case1 => exact whole_nil
  | case2 c => exact whole_escapeUnit c
  | case3 c d rest hpair ih =>
      obtain ⟨hc, hd⟩ := Bool.and_eq_true_iff.mp hpair
      exact Whole.pair hc hd ih
  | case4 c d rest hpair ih => exact (whole_escapeUnit c).append ih

theorem whole_quote (s : JsString) : Whole (quote s) :=
  (Whole.cons (by decide) (whole_escape s)).append (Whole.cons (by decide) whole_nil)

end Js
