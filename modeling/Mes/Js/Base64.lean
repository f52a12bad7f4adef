import Mes.Js.Number

/-!
Base64, in the standard alphabet with padding and in that of URLs without, and `atob`,
which gives the octets as code units. `atob` skips white space and takes texts without
padding; it fails at a length that no text has and at other characters.
-/

namespace Js

def PAD : UInt16 := unit '='

/-- The standard alphabet. -/
def base64Unit (n : Nat) : UInt16 :=
  if n < 26 then .ofNat (65 + n)
  else if n < 52 then .ofNat (71 + n)
  else if n < 62 then .ofNat (n - 4)
  else if n = 62 then unit '+'
  else unit '/'

/-- The alphabet of URLs and file names. -/
def base64urlUnit (n : Nat) : UInt16 :=
  if n = 62 then unit '-' else if n = 63 then unit '_' else base64Unit n

/-- The bits of the octets in groups of six, the last one filled with zeros. -/
def sextets : List UInt8 → List Nat
  | [] => []
  | [a] => [a.toNat / 4, a.toNat % 4 * 16]
  | [a, b] => [a.toNat / 4, a.toNat % 4 * 16 + b.toNat / 16, b.toNat % 16 * 4]
  | a :: b :: c :: rest =>
      (a.toNat / 4) :: (a.toNat % 4 * 16 + b.toNat / 16) :: (b.toNat % 16 * 4 + c.toNat / 64) ::
        (c.toNat % 64) :: sextets rest

/-- `toString('base64url')`. -/
def base64url (octets : List UInt8) : JsString :=
  (sextets octets).map base64urlUnit

/-- The standard text, four characters for three octets. -/
def base64 : List UInt8 → JsString
  | [] => []
  | [a] => (sextets [a]).map base64Unit ++ [PAD, PAD]
  | [a, b] => (sextets [a, b]).map base64Unit ++ [PAD]
  | a :: b :: c :: rest => (sextets [a, b, c]).map base64Unit ++ base64 rest

/-! ### `atob` -/

def isAsciiSpace (c : UInt16) : Bool :=
  [0x09, 0x0A, 0x0C, 0x0D, 0x20].contains c

def base64Value (c : UInt16) : Option Nat :=
  if 65 ≤ c ∧ c ≤ 90 then some (c.toNat - 65)
  else if 97 ≤ c ∧ c ≤ 122 then some (c.toNat - 71)
  else if 48 ≤ c ∧ c ≤ 57 then some (c.toNat + 4)
  else if c = unit '+' then some 62
  else if c = unit '/' then some 63
  else none

/-- Up to two padding characters at the end of a text are removed. -/
def stripPadding (data : JsString) : JsString :=
  if data.getLast? = some PAD then
    if data.dropLast.getLast? = some PAD then data.dropLast.dropLast else data.dropLast
  else data

/-- The octets of groups of six bits, the bits left over discarded. -/
def joinSextets : List Nat → JsString
  | a :: b :: c :: d :: rest =>
      .ofNat (a * 4 + b / 16) :: .ofNat (b % 16 * 16 + c / 4) :: .ofNat (c % 4 * 64 + d) ::
        joinSextets rest
  | [a, b, c] => [.ofNat (a * 4 + b / 16), .ofNat (b % 16 * 16 + c / 4)]
  | [a, b] => [.ofNat (a * 4 + b / 16)]
  | _ => []

def atob (data : JsString) : Option JsString :=
  let data := data.filter fun c => !isAsciiSpace c
  let data := if data.length % 4 = 0 then stripPadding data else data
  if data.length % 4 = 1 then none
  else (data.mapM base64Value).map joinSextets

/-- The octets as code units. -/
def binaryString (octets : List UInt8) : JsString :=
  octets.map fun octet => .ofNat octet.toNat

/-! ### Lengths -/

/-- The padding that `base64` writes. -/
def padding : List UInt8 → JsString
  | [] => []
  | [_] => [PAD, PAD]
  | [_, _] => [PAD]
  | _ :: _ :: _ :: rest => padding rest

theorem base64_eq (octets : List UInt8) :
    base64 octets = (sextets octets).map base64Unit ++ padding octets := by
  fun_induction base64 octets with
  | case1 => rfl
  | case2 a => rfl
  | case3 a b => rfl
  | case4 a b c rest ih =>
      rw [ih, sextets, padding]
      rfl

theorem padding_eq (octets : List UInt8) :
    padding octets = List.replicate ((4 - (sextets octets).length % 4) % 4) PAD := by
  fun_induction padding octets with
  | case1 => rfl
  | case2 a => rfl
  | case3 a b => rfl
  | case4 a b c rest ih =>
      have hlength : (sextets (a :: b :: c :: rest)).length = (sextets rest).length + 4 := rfl
      rw [ih, hlength, Nat.add_mod_right]

/-- No text has one character more than whole groups. -/
theorem length_sextets (octets : List UInt8) : (sextets octets).length % 4 ≠ 1 := by
  fun_induction sextets octets with
  | case1 => decide
  | case2 a => simp
  | case3 a b => simp
  | case4 a b c rest ih =>
      simp only [List.length_cons]
      omega

theorem sextets_lt (octets : List UInt8) : ∀ n ∈ sextets octets, n < 64 := by
  have hlt (octet : UInt8) : octet.toNat < 256 := octet.toNat_lt
  fun_induction sextets octets with
  | case1 => simp
  | case2 a =>
      have ha := hlt a
      simp only [List.forall_mem_cons, List.not_mem_nil, false_imp_iff, implies_true, and_true]
      omega
  | case3 a b =>
      have ha := hlt a
      have hb := hlt b
      simp only [List.forall_mem_cons, List.not_mem_nil, false_imp_iff, implies_true, and_true]
      omega
  | case4 a b c rest ih =>
      have ha := hlt a
      have hb := hlt b
      have hc := hlt c
      simp only [List.forall_mem_cons]
      exact ⟨by omega, by omega, by omega, by omega, ih⟩

/-! ### Reading back -/

theorem base64Value_base64Unit : ∀ n < 64, base64Value (base64Unit n) = some n := by
  decide

theorem base64Unit_plain : ∀ n < 64, isAsciiSpace (base64Unit n) = false ∧ base64Unit n ≠ PAD := by
  decide

theorem mapM_base64Value {values : List Nat} (hvalues : ∀ n ∈ values, n < 64) :
    (values.map base64Unit).mapM base64Value = some values := by
  induction values with
  | nil => rfl
  | cons n values ih =>
      obtain ⟨hn, hrest⟩ := List.forall_mem_cons.mp hvalues
      rw [List.map_cons, List.mapM_cons, base64Value_base64Unit n hn, ih hrest]
      rfl

theorem joinSextets_sextets (octets : List UInt8) :
    joinSextets (sextets octets) = binaryString octets := by
  have hlt (octet : UInt8) : octet.toNat < 256 := octet.toNat_lt
  fun_induction sextets octets with
  | case1 => rfl
  | case2 a =>
      have hfirst : a.toNat / 4 * 4 + a.toNat % 4 * 16 / 16 = a.toNat := by omega
      rw [joinSextets, hfirst]
      rfl
  | case3 a b =>
      have hb := hlt b
      have hfirst : a.toNat / 4 * 4 + (a.toNat % 4 * 16 + b.toNat / 16) / 16 = a.toNat := by
        omega
      have hsecond : (a.toNat % 4 * 16 + b.toNat / 16) % 16 * 16 + b.toNat % 16 * 4 / 4 =
          b.toNat := by
        omega
      rw [joinSextets, hfirst, hsecond]
      rfl
  | case4 a b c rest ih =>
      have hb := hlt b
      have hc := hlt c
      have hfirst : a.toNat / 4 * 4 + (a.toNat % 4 * 16 + b.toNat / 16) / 16 = a.toNat := by
        omega
      have hsecond : (a.toNat % 4 * 16 + b.toNat / 16) % 16 * 16 +
          (b.toNat % 16 * 4 + c.toNat / 64) / 4 = b.toNat := by
        omega
      have hthird : (b.toNat % 16 * 4 + c.toNat / 64) % 4 * 64 + c.toNat % 64 = c.toNat := by
        omega
      rw [joinSextets, hfirst, hsecond, hthird, ih]
      rfl

theorem stripPadding_plain {data : JsString} (hplain : PAD ∉ data) :
    stripPadding data = data := by
  unfold stripPadding
  rw [if_neg]
  intro hlast
  exact hplain (List.mem_of_getLast? hlast)

/-- One or two padding characters are removed. -/
theorem stripPadding_replicate {data : JsString} (hplain : PAD ∉ data) {count : Nat}
    (hcount : count ≤ 2) : stripPadding (data ++ List.replicate count PAD) = data := by
  match count, hcount with
  | 0, _ => simpa using stripPadding_plain hplain
  | 1, _ =>
      have hlast : data.getLast? ≠ some PAD := fun hlast => hplain (List.mem_of_getLast? hlast)
      simp [stripPadding, hlast]
  | 2, _ =>
      have hsplit : data ++ List.replicate 2 PAD = data ++ [PAD] ++ [PAD] := by simp
      rw [hsplit]
      simp [stripPadding]

/-- `atob` reads the standard text of the octets. -/
theorem atob_base64 (octets : List UInt8) : atob (base64 octets) = some (binaryString octets) := by
  have hvalues := sextets_lt octets
  have hunits : ∀ c ∈ (sextets octets).map base64Unit, isAsciiSpace c = false ∧ c ≠ PAD := by
    intro c hc
    obtain ⟨n, hn, rfl⟩ := List.mem_map.mp hc
    exact base64Unit_plain n (hvalues n hn)
  have hplain : PAD ∉ (sextets octets).map base64Unit := fun hmem => (hunits PAD hmem).2 rfl
  have hspace : (base64 octets).filter (fun c => !isAsciiSpace c) = base64 octets := by
    rw [List.filter_eq_self, base64_eq, padding_eq]
    intro c hc
    rcases List.mem_append.mp hc with hc | hc
    · simp [(hunits c hc).1]
    · obtain rfl := List.eq_of_mem_replicate hc
      rfl
  have hlength : (base64 octets).length % 4 = 0 := by
    rw [base64_eq, padding_eq, List.length_append, List.length_map, List.length_replicate]
    have hshort := Nat.mod_lt (sextets octets).length (show 4 > 0 by decide)
    omega
  have hstrip : stripPadding (base64 octets) = (sextets octets).map base64Unit := by
    have hshort := length_sextets octets
    rw [base64_eq, padding_eq]
    exact stripPadding_replicate hplain (by omega)
  simp only [atob]
  rw [hspace, if_pos hlength, hstrip, List.length_map, if_neg (length_sextets octets),
    mapM_base64Value hvalues, Option.map_some, joinSextets_sextets]

end Js
