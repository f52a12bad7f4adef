import Mes.Js.Base64
import Mes.Js.Json

/-!
`decodeJwtPayload` of the client: the second part of a token, from the alphabet of URLs
to the standard one, padded, and through `atob` and `JSON.parse`. The reader of JSON is a
parameter, `none` where it throws.
-/

namespace Mes.Web

open Js

namespace DecodeJwtPayload

/-- What it throws: there is no second part, it is not base64, or not JSON. -/
inductive DecodeError where
  | typeError
  | invalidCharacterError
  | syntaxError
  deriving DecidableEq, Repr

/-- Both calls of `replace`: the standard characters for `-` and `_`. -/
def normalise (segment : JsString) : JsString :=
  (segment.map fun c => if c = unit '-' then unit '+' else c).map fun c =>
    if c = unit '_' then unit '/' else c

/-- The segment in the standard alphabet, with padding. -/
def pad (segment : JsString) : JsString :=
  let normalised := normalise segment
  normalised ++ List.replicate ((4 - normalised.length % 4) % 4) PAD

def decodeJwtPayload (parse : JsString → Option Json) (token : JsString) :
    Except DecodeError Json :=
  match (token.splitOn POINT)[1]? with
  | none => .error .typeError
  | some segment =>
      match atob (pad segment) with
      | none => .error .invalidCharacterError
      | some decoded =>
          match parse decoded with
          | none => .error .syntaxError
          | some payload => .ok payload

/-! ### The alphabets -/

theorem normalise_unit : ∀ n < 64, normalise [base64urlUnit n] = [base64Unit n] := by
  decide

theorem normalise_cons (c : UInt16) (segment : JsString) :
    normalise (c :: segment) = normalise [c] ++ normalise segment := by
  simp [normalise]

theorem normalise_values {values : List Nat} (hvalues : ∀ n ∈ values, n < 64) :
    normalise (values.map base64urlUnit) = values.map base64Unit := by
  induction values with
  | nil => rfl
  | cons n values ih =>
      obtain ⟨hn, hrest⟩ := List.forall_mem_cons.mp hvalues
      rw [List.map_cons, normalise_cons, normalise_unit n hn, ih hrest]
      rfl

/-- Translation and padding give the standard text of the same octets. -/
theorem pad_base64url (octets : List UInt8) : pad (base64url octets) = base64 octets := by
  simp only [pad, base64url]
  rw [normalise_values (sextets_lt octets), List.length_map, base64_eq, padding_eq]

theorem point_not_mem (octets : List UInt8) : POINT ∉ base64url octets := by
  have hunits : ∀ n < 64, base64urlUnit n ≠ POINT := by decide
  intro hmem
  obtain ⟨n, hn, heq⟩ := List.mem_map.mp hmem
  exact hunits n (sextets_lt octets n hn) heq

/-! ### Tokens -/

/-- The octets of a text. -/
def latin1 (serialised : JsString) : List UInt8 :=
  serialised.map fun c => .ofNat c.toNat

/-- The text is ASCII. -/
def Ascii (serialised : JsString) : Prop :=
  ∀ c ∈ serialised, c.toNat < 128

/-- A token in compact form. -/
def compact (header payload signature : JsString) : JsString :=
  header ++ POINT :: (payload ++ POINT :: signature)

theorem Ascii.binaryString {serialised : JsString} (hascii : Ascii serialised) :
    binaryString (latin1 serialised) = serialised := by
  have hsame : ∀ c ∈ serialised, UInt16.ofNat (UInt8.ofNat c.toNat).toNat = id c := by
    intro c hc
    have hlt := hascii c hc
    rw [UInt8.toNat_ofNat', Nat.mod_eq_of_lt (by omega), UInt16.ofNat_toNat, id]
  unfold Js.binaryString latin1
  rw [List.map_map]
  exact (List.map_congr_left hsame).trans (List.map_id serialised)

theorem compact_segment {header : JsString} (hheader : POINT ∉ header) (octets : List UInt8)
    (signature : JsString) :
    ((compact header (base64url octets) signature).splitOn POINT)[1]? =
      some (base64url octets) := by
  unfold compact
  rw [List.splitOn_append_cons_self_of_not_mem hheader,
    List.splitOn_append_cons_self_of_not_mem (point_not_mem octets)]
  rfl

/-- The client reads the payload of a token, for any octets the standard text of them,
and for an ASCII text of a value the value. -/
theorem decodeJwtPayload_inverts :
    (∀ octets : List UInt8, pad (base64url octets) = base64 octets ∧
      atob (base64 octets) = some (binaryString octets)) ∧
    ∀ (parse : JsString → Option Json) (value : Json) (serialised header signature : JsString),
      parse serialised = some value → Ascii serialised → POINT ∉ header →
      decodeJwtPayload parse (compact header (base64url (latin1 serialised)) signature) =
        .ok value := by
  refine ⟨fun octets => ⟨pad_base64url octets, atob_base64 octets⟩, ?_⟩
  intro parse value serialised header signature hparse hascii hheader
  unfold decodeJwtPayload
  rw [compact_segment hheader]
  simp only [pad_base64url, atob_base64]
  rw [hascii.binaryString, hparse]

/-- A payload, its text, and a reader of it. -/
def samplePayload : Json :=
  .object [(text "role", .string (text "STUDENT"))]

def sampleText : JsString :=
  text "\x7b\"role\":\"STUDENT\"\x7d"

def sampleParse (serialised : JsString) : Option Json :=
  if serialised = sampleText then some samplePayload else none

theorem decodeJwtPayload_inverts_role :
    decodeJwtPayload sampleParse
        (compact (text "eyJhbGciOiJIUzI1NiJ9") (base64url (latin1 sampleText)) (text "c2ln")) =
      .ok samplePayload :=
  decodeJwtPayload_inverts.2 sampleParse samplePayload _ _ _ (if_pos rfl)
    (show ∀ c ∈ sampleText, c.toNat < 128 from forall_mem_of_all (by decide)) (by decide)

end DecodeJwtPayload

end Mes.Web
