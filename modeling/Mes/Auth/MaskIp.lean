import Mes.Auth.AuthService

/-!
`AuthService.maskIp`, which shortens the address of a client for the security log. It works
on the text: an address with a colon is cut after its fourth colon-separated piece. The
texts of an address are modelled beside it: dotted IPv4, and IPv6 written out or with `::`,
in upper or lower case, with or without leading zeros and with an embedded IPv4 address at
the end. `Network` is what two addresses share that the log may tell: the /24 of an IPv4
address, also of one that is mapped into IPv6, and the /64 of any other IPv6 address.
-/

namespace Mes

namespace AuthService

/-- The text of an address for the log, `null` when there is none. -/
def maskIp (ip : Option String) : String :=
  match ip with
  | none => "unknown"
  | some ip =>
      if ip = "" then "unknown"
      else if ip.toList.contains ':' then
        let groups := ip.toList.splitOn ':'
        String.ofList ([':'].intercalate (groups.take 4)) ++ "::/64"
      else
        match ip.toList.splitOn '.' with
        | [a, b, c, _] => String.ofList (['.'].intercalate [a, b, c]) ++ ".0/24"
        | _ => "unknown"

end AuthService

/-! ### Addresses and their texts -/

/-- An IPv4 address. -/
structure Quad where
  a : Fin 256
  b : Fin 256
  c : Fin 256
  d : Fin 256
  deriving DecidableEq, Repr

def octetText (n : Fin 256) : List Char :=
  Nat.toDigits 10 n.val

def Quad.text (q : Quad) : List Char :=
  ['.'].intercalate [octetText q.a, octetText q.b, octetText q.c, octetText q.d]

/-- The last two groups of an IPv6 address that ends in an IPv4 address. -/
def Quad.groups (q : Quad) : List Nat :=
  [256 * q.a.val + q.b.val, 256 * q.c.val + q.d.val]

def hexDigit (c : Char) : Option Nat :=
  if '0' ≤ c ∧ c ≤ '9' then some (c.toNat - '0'.toNat)
  else if 'a' ≤ c ∧ c ≤ 'f' then some (c.toNat - 'a'.toNat + 10)
  else if 'A' ≤ c ∧ c ≤ 'F' then some (c.toNat - 'A'.toNat + 10)
  else none

/-- A group as it is written. -/
structure Hextet where
  digits : List Char
  written : digits ≠ [] ∧ digits.length ≤ 4 ∧
    ∀ c ∈ digits, (hexDigit c).isSome = true

def Hextet.value (h : Hextet) : Nat :=
  h.digits.foldl (fun n c => 16 * n + (hexDigit c).getD 0) 0

def tailSize (tail : Option Quad) : Nat :=
  if tail.isSome then 2 else 0

/-- A text of an IPv6 address. `::` stands for at least one group of zeros. -/
inductive Ip6Text where
  | full (groups : List Hextet) (tail : Option Quad)
      (hcount : groups.length + tailSize tail = 8)
  | compressed (before after : List Hextet) (tail : Option Quad)
      (hcount : before.length + after.length + tailSize tail ≤ 7)

namespace Ip6Text

def written (groups : List Hextet) (tail : Option Quad) : List (List Char) :=
  groups.map Hextet.digits ++ (tail.map Quad.text).toList

/-- An empty piece where `::` begins or ends the text. -/
def orEmpty (pieces : List (List Char)) : List (List Char) :=
  if pieces = [] then [[]] else pieces

/-- What stands between the colons. -/
def pieces : Ip6Text → List (List Char)
  | full groups tail _ => written groups tail
  | compressed before after tail _ =>
      orEmpty (written before none) ++ [] :: orEmpty (written after tail)

def text (t : Ip6Text) : List Char :=
  [':'].intercalate t.pieces

/-- The eight groups of the address. -/
def address : Ip6Text → List Nat
  | full groups tail _ => groups.map Hextet.value ++ (tail.map Quad.groups).getD []
  | compressed before after tail _ =>
      before.map Hextet.value ++
        List.replicate (8 - (before.length + after.length + tailSize tail)) 0 ++
          (after.map Hextet.value ++ (tail.map Quad.groups).getD [])

end Ip6Text

/-- What `req.ip` reports. -/
inductive ClientIp where
  | v4 (q : Quad)
  | v6 (t : Ip6Text)

def ClientIp.text : ClientIp → String
  | v4 q => String.ofList q.text
  | v6 t => String.ofList t.text

inductive Network where
  | v4 (a b c : Nat)
  | v6 (groups : List Nat)
  deriving DecidableEq, Repr

/-- An IPv4 address that is mapped into IPv6 belongs to its IPv4 network. -/
def network6 : List Nat → Network
  | [0, 0, 0, 0, 0, 65535, x, y] => .v4 (x / 256) (x % 256) (y / 256)
  | groups => .v6 (groups.take 4)

def ClientIp.network : ClientIp → Network
  | v4 q => .v4 q.a.val q.b.val q.c.val
  | v6 t => network6 t.address

/-! ### The shape of a text -/

/-- How a group is written, whatever its value: its length, and which letters are capitals. -/
def Hextet.style (h : Hextet) : List Bool :=
  h.digits.map Char.isUpper

/-- What stands between two colons. -/
inductive Piece where
  | group (h : Hextet)
  | quad (q : Quad)

def Piece.text : Piece → List Char
  | group h => h.digits
  | quad q => q.text

/-- A group with its value and its style, or the embedded address. -/
inductive PieceShape where
  | group (value : Nat) (style : List Bool)
  | quad (q : Quad)
  deriving DecidableEq, Repr

def Piece.shape : Piece → PieceShape
  | group h => .group h.value h.style
  | quad q => .quad q

namespace Ip6Text

/-- The first four groups, or those in front of `::` when it comes earlier. -/
def leading : Ip6Text → List Hextet
  | full groups _ _ => groups.take 4
  | compressed before _ _ _ => before.take 4

/-- How many pieces behind `::` stand before the fourth colon. -/
def room (leading : Nat) : Nat :=
  min 2 (3 - leading)

/-- What stands behind `::` and before the fourth colon. -/
def exposed : Ip6Text → List Piece
  | full _ _ _ => []
  | compressed before after tail _ =>
      (after.map Piece.group ++ (tail.map Piece.quad).toList).take (room before.length)

end Ip6Text

/-- Two dotted addresses, or two IPv6 texts with `::` at the same place, as far as it cuts the
first four groups, in which the groups in front of it are written in one style and those
exposed behind it are the same. -/
def SpelledAlike : ClientIp → ClientIp → Prop
  | .v4 _, .v4 _ => True
  | .v6 s, .v6 t => s.leading.map Hextet.style = t.leading.map Hextet.style ∧
      s.exposed.map Piece.shape = t.exposed.map Piece.shape
  | _, _ => False

/-! ### Separators -/

theorem octetText_plain (n : Fin 256) : ':' ∉ octetText n ∧ '.' ∉ octetText n := by
  have hdigit {c : Char} (hc : c ∈ octetText n) : c.isDigit = true :=
    Nat.isDigit_of_mem_toDigits (by decide) (by decide) hc
  exact ⟨fun hcolon => absurd (hdigit hcolon) (by decide),
    fun hdot => absurd (hdigit hdot) (by decide)⟩

theorem Hextet.no_colon (h : Hextet) : ':' ∉ h.digits := by
  intro hmem
  have hdigit := h.written.2.2 ':' hmem
  cases hdigit

theorem Quad.no_colon (q : Quad) : ':' ∉ q.text := by
  simp [Quad.text, octetText_plain]

namespace Ip6Text

theorem written_no_colon {groups : List Hextet} {tail : Option Quad} :
    ∀ piece ∈ written groups tail, ':' ∉ piece := by
  intro piece hmem
  simp only [written, List.mem_append, List.mem_map, Option.mem_toList, Option.map_eq_some_iff]
    at hmem
  rcases hmem with ⟨h, -, rfl⟩ | ⟨q, -, rfl⟩
  · exact h.no_colon
  · exact q.no_colon

theorem orEmpty_no_colon {pieces : List (List Char)}
    (hplain : ∀ piece ∈ pieces, ':' ∉ piece) : ∀ piece ∈ orEmpty pieces, ':' ∉ piece := by
  unfold orEmpty
  split
  · simp
  · exact hplain

theorem pieces_no_colon (t : Ip6Text) : ∀ piece ∈ t.pieces, ':' ∉ piece := by
  cases t with
  | full groups tail hcount => exact written_no_colon
  | compressed before after tail hcount =>
      intro piece hmem
      simp only [pieces, List.mem_append, List.mem_cons] at hmem
      rcases hmem with hbefore | rfl | hafter
      · exact orEmpty_no_colon written_no_colon piece hbefore
      · exact List.not_mem_nil
      · exact orEmpty_no_colon written_no_colon piece hafter

theorem length_orEmpty (pieces : List (List Char)) : 1 ≤ (orEmpty pieces).length := by
  unfold orEmpty
  split
  · simp
  · rename_i hpieces
    exact List.length_pos_of_ne_nil hpieces

/-- A text of an IPv6 address has a colon. -/
theorem two_le_length (t : Ip6Text) : 2 ≤ t.pieces.length := by
  cases t with
  | full groups tail hcount =>
      simp only [pieces, written, List.length_append, List.length_map]
      unfold tailSize at hcount
      cases tail <;> simp at hcount ⊢ <;> omega
  | compressed before after tail hcount =>
      have hbefore := length_orEmpty (written before none)
      simp only [pieces, List.length_append, List.length_cons]
      omega

theorem colon_mem (t : Ip6Text) : ':' ∈ t.text := by
  have hlength := t.two_le_length
  unfold text
  match hpieces : t.pieces with
  | [] => rw [hpieces] at hlength; simp at hlength
  | [_] => rw [hpieces] at hlength; simp at hlength
  | first :: second :: rest => simp [List.intercalate_cons_cons]

theorem split_text (t : Ip6Text) : t.text.splitOn ':' = t.pieces := by
  refine List.splitOn_intercalate ':' t.pieces_no_colon fun hnil => ?_
  have hlength := t.two_le_length
  rw [hnil] at hlength
  simp at hlength

end Ip6Text

/-! ### What the log shows -/

theorem maskIp_v6 (t : Ip6Text) : AuthService.maskIp (some (ClientIp.v6 t).text) =
    String.ofList ([':'].intercalate (t.pieces.take 4)) ++ "::/64" := by
  have hcolon : t.text.contains ':' = true := List.contains_iff_mem.mpr t.colon_mem
  have hnonempty : String.ofList t.text ≠ "" := by
    intro hempty
    have hnil : t.text = [] := by simpa using congrArg String.toList hempty
    rw [hnil] at hcolon
    cases hcolon
  simp only [AuthService.maskIp, ClientIp.text, if_neg hnonempty, hcolon, if_true,
    String.toList_ofList, t.split_text]

theorem maskIp_v4 (q : Quad) : AuthService.maskIp (some (ClientIp.v4 q).text) =
    String.ofList (['.'].intercalate [octetText q.a, octetText q.b, octetText q.c]) ++
      ".0/24" := by
  have hcolon : q.text.contains ':' = false := by simpa using q.no_colon
  have hsplit : q.text.splitOn '.' =
      [octetText q.a, octetText q.b, octetText q.c, octetText q.d] := by
    refine List.splitOn_intercalate '.' ?_ (by simp)
    simp [octetText_plain]
  have hnonempty : String.ofList q.text ≠ "" := by
    intro hempty
    have hnil : q.text = [] := by simpa using congrArg String.toList hempty
    rw [hnil] at hsplit
    simp at hsplit
  simp only [AuthService.maskIp, ClientIp.text, if_neg hnonempty, hcolon, Bool.false_eq_true,
    if_false, String.toList_ofList, hsplit]

theorem mask_separators (q : Quad) (t : Ip6Text) :
    AuthService.maskIp (some (ClientIp.v4 q).text) ≠
      AuthService.maskIp (some (ClientIp.v6 t).text) := by
  rw [maskIp_v4, maskIp_v6]
  intro hsame
  have hcolon : ':' ∈ (String.ofList (['.'].intercalate
      [octetText q.a, octetText q.b, octetText q.c]) ++ ".0/24").toList := by
    rw [hsame]
    simp
  simp [octetText_plain] at hcolon

theorem mask_v6_iff (s t : Ip6Text) :
    AuthService.maskIp (some (ClientIp.v6 s).text) =
        AuthService.maskIp (some (ClientIp.v6 t).text) ↔
      s.pieces.take 4 = t.pieces.take 4 := by
  rw [maskIp_v6, maskIp_v6]
  constructor
  · intro hsame
    have hlists := congrArg String.toList hsame
    simp only [String.toList_append, String.toList_ofList, List.append_cancel_right_eq] at hlists
    have hsplit (u : Ip6Text) :
        ([':'].intercalate (u.pieces.take 4)).splitOn ':' = u.pieces.take 4 := by
      refine List.splitOn_intercalate ':'
        (fun piece hmem => u.pieces_no_colon piece (List.mem_of_mem_take hmem)) fun hnil => ?_
      have hlength := u.two_le_length
      rcases List.take_eq_nil_iff.mp hnil with hzero | hpieces
      · cases hzero
      · rw [hpieces] at hlength
        simp at hlength
    rw [← hsplit s, ← hsplit t, hlists]
  · intro hsame
    rw [hsame]

/-! ### From the pieces to the shape -/

/-- The three kinds of digits, by the numbers of their characters. -/
theorem hexDigit_cases {c : Char} (hc : (hexDigit c).isSome = true) :
    (48 ≤ c.toNat ∧ c.toNat ≤ 57 ∧ hexDigit c = some (c.toNat - 48)) ∨
      (97 ≤ c.toNat ∧ c.toNat ≤ 102 ∧ hexDigit c = some (c.toNat - 97 + 10)) ∨
      (65 ≤ c.toNat ∧ c.toNat ≤ 70 ∧ hexDigit c = some (c.toNat - 65 + 10)) := by
  by_cases hnumeral : '0' ≤ c ∧ c ≤ '9'
  · exact Or.inl ⟨hnumeral.1, hnumeral.2, by rw [hexDigit, if_pos hnumeral]; rfl⟩
  · by_cases hsmall : 'a' ≤ c ∧ c ≤ 'f'
    · refine Or.inr (Or.inl ⟨hsmall.1, hsmall.2, ?_⟩)
      rw [hexDigit, if_neg hnumeral, if_pos hsmall]
      rfl
    · by_cases hcapital : 'A' ≤ c ∧ c ≤ 'F'
      · refine Or.inr (Or.inr ⟨hcapital.1, hcapital.2, ?_⟩)
        rw [hexDigit, if_neg hnumeral, if_neg hsmall, if_pos hcapital]
        rfl
      · rw [hexDigit, if_neg hnumeral, if_neg hsmall, if_neg hcapital] at hc
        cases hc

theorem isUpper_iff (c : Char) : c.isUpper = true ↔ 65 ≤ c.toNat ∧ c.toNat ≤ 90 :=
  decide_eq_true_iff

/-- The value of a digit and its case tell which it is. -/
theorem hexDigit_inj {c d : Char} (hc : (hexDigit c).isSome = true)
    (hd : (hexDigit d).isSome = true) (hvalue : hexDigit c = hexDigit d)
    (hcase : c.isUpper = d.isUpper) : c = d := by
  have hupper : (65 ≤ c.toNat ∧ c.toNat ≤ 90) ↔ 65 ≤ d.toNat ∧ d.toNat ≤ 90 := by
    rw [← isUpper_iff, ← isUpper_iff, hcase]
  refine Char.toNat_inj.mp ?_
  rcases hexDigit_cases hc with ⟨hlow, hhigh, hc⟩ | ⟨hlow, hhigh, hc⟩ | ⟨hlow, hhigh, hc⟩ <;>
    rcases hexDigit_cases hd with ⟨hlow', hhigh', hd⟩ | ⟨hlow', hhigh', hd⟩ |
      ⟨hlow', hhigh', hd⟩ <;>
    · rw [hc, hd] at hvalue
      have hsame := Option.some.inj hvalue
      omega

theorem hexDigit_lt {c : Char} (hc : (hexDigit c).isSome = true) :
    (hexDigit c).getD 0 < 16 := by
  rcases hexDigit_cases hc with ⟨hlow, hhigh, hc⟩ | ⟨hlow, hhigh, hc⟩ | ⟨hlow, hhigh, hc⟩ <;>
    · rw [hc, Option.getD_some]
      omega

theorem digits_inj {a b : List Char} (ha : ∀ c ∈ a, (hexDigit c).isSome = true)
    (hb : ∀ c ∈ b, (hexDigit c).isSome = true) {m n : Nat}
    (hvalue : a.foldl (fun n c => 16 * n + (hexDigit c).getD 0) m =
      b.foldl (fun n c => 16 * n + (hexDigit c).getD 0) n)
    (hstyle : a.map Char.isUpper = b.map Char.isUpper) : m = n ∧ a = b := by
  induction a generalizing b m n with
  | nil =>
      obtain rfl : b = [] := by simpa using hstyle.symm
      exact ⟨hvalue, rfl⟩
  | cons c a ih =>
      cases b with
      | nil => cases hstyle
      | cons d b =>
          obtain ⟨hcase, hrest⟩ := List.cons.inj hstyle
          obtain ⟨hc, ha'⟩ := List.forall_mem_cons.mp ha
          obtain ⟨hd, hb'⟩ := List.forall_mem_cons.mp hb
          obtain ⟨hsum, rfl⟩ := ih ha' hb' hvalue hrest
          dsimp only at hsum
          have hclt := hexDigit_lt hc
          have hdlt := hexDigit_lt hd
          have hdigit : (hexDigit c).getD 0 = (hexDigit d).getD 0 := by omega
          refine ⟨by omega, ?_⟩
          rw [hexDigit_inj hc hd ?_ hcase]
          obtain ⟨x, hx⟩ := Option.isSome_iff_exists.mp hc
          obtain ⟨y, hy⟩ := Option.isSome_iff_exists.mp hd
          rw [hx, hy] at hdigit ⊢
          exact congrArg some hdigit

theorem Hextet.digits_eq_iff (h k : Hextet) :
    h.digits = k.digits ↔ h.value = k.value ∧ h.style = k.style := by
  constructor
  · intro hsame
    rw [Hextet.value, Hextet.style, hsame]
    exact ⟨rfl, rfl⟩
  · rintro ⟨hvalue, hstyle⟩
    exact (digits_inj h.written.2.2 k.written.2.2 hvalue hstyle).2

theorem octetText_inj {m n : Fin 256} (hsame : octetText m = octetText n) : m = n := by
  have hback : ∀ n : Fin 256,
      (octetText n).foldl (fun n c => 10 * n + (c.toNat - '0'.toNat)) 0 = n.val := by
    decide +kernel
  refine Fin.ext ?_
  rw [← hback m, ← hback n, hsame]

theorem Quad.text_inj {q r : Quad} (hsame : q.text = r.text) : q = r := by
  have hsplit (q : Quad) : q.text.splitOn '.' =
      [octetText q.a, octetText q.b, octetText q.c, octetText q.d] := by
    refine List.splitOn_intercalate '.' ?_ (by simp)
    simp [octetText_plain]
  have hlists := congrArg (List.splitOn '.') hsame
  rw [hsplit q, hsplit r] at hlists
  simp only [List.cons.injEq, and_true] at hlists
  obtain ⟨ha, hb, hc, hd⟩ := hlists
  cases q
  cases r
  simp only [Quad.mk.injEq]
  exact ⟨octetText_inj ha, octetText_inj hb, octetText_inj hc, octetText_inj hd⟩

theorem Piece.text_ne_nil (p : Piece) : p.text ≠ [] := by
  cases p with
  | group h => exact h.written.1
  | quad q => simp [Piece.text, Quad.text, List.intercalate_cons_cons]

theorem Piece.text_eq_iff (p r : Piece) : p.text = r.text ↔ p.shape = r.shape := by
  have hapart (h : Hextet) (q : Quad) : h.digits ≠ q.text := by
    intro hsame
    have hdot : '.' ∈ h.digits := by
      rw [hsame]
      simp [Quad.text, List.intercalate_cons_cons]
    cases h.written.2.2 '.' hdot
  cases p with
  | group h =>
      cases r with
      | group k => simp [Piece.text, Piece.shape, h.digits_eq_iff k]
      | quad q => simp [Piece.text, Piece.shape, hapart h q]
  | quad q =>
      cases r with
      | group k => simp [Piece.text, Piece.shape, (hapart k q).symm]
      | quad r => simpa [Piece.text, Piece.shape] using ⟨Quad.text_inj, congrArg Quad.text⟩

namespace Ip6Text

theorem shown_length (t : Ip6Text) :
    t.leading.length ≤ 4 ∧ t.exposed.length ≤ room t.leading.length := by
  cases t with
  | full groups tail hcount => exact ⟨List.length_take_le 4 groups, Nat.zero_le _⟩
  | compressed before after tail hcount =>
      have hroom : room (before.take 4).length = room before.length := by
        simp only [room, List.length_take]
        omega
      refine ⟨List.length_take_le 4 before, ?_⟩
      rw [leading, hroom]
      exact List.length_take_le _ _

/-- The first four pieces, from the texts in front of `::` and behind it. -/
def firstPieces (front behind : List (List Char)) : List (List Char) :=
  if front.length = 4 then front else (orEmpty front ++ [] :: orEmpty behind).take 4

theorem orEmpty_take (pieces : List (List Char)) (n : Nat) :
    (orEmpty (pieces.take n)).take n = (orEmpty pieces).take n := by
  cases n with
  | zero => rw [List.take_zero, List.take_zero]
  | succ n =>
      cases pieces with
      | nil => rfl
      | cons piece rest =>
          simp [orEmpty]

theorem take_pieces (t : Ip6Text) : t.pieces.take 4 =
    firstPieces (t.leading.map Hextet.digits) (t.exposed.map Piece.text) := by
  cases t with
  | full groups tail hcount =>
      have hlong : 4 ≤ groups.length := by
        unfold tailSize at hcount
        split at hcount <;> omega
      have hfour : (groups.take 4).length = 4 := List.length_take_of_le hlong
      rw [firstPieces, leading, List.length_map, if_pos hfour, pieces, written,
        List.take_append_of_le_length (by rw [List.length_map]; exact hlong), List.map_take]
  | compressed before after tail hcount =>
      have hbehind : (exposed (compressed before after tail hcount)).map Piece.text =
          (written after tail).take (room before.length) := by
        rw [exposed, written, List.map_take, List.map_append, List.map_map]
        cases tail <;> rfl
      have hfront : written before none = before.map Hextet.digits := List.append_nil _
      rw [firstPieces, leading, hbehind, pieces, hfront]
      by_cases hlong : 4 ≤ before.length
      · have hne : before.map Hextet.digits ≠ [] := by
          intro hnil
          rw [List.map_eq_nil_iff.mp hnil] at hlong
          cases hlong
        rw [List.length_map, if_pos (List.length_take_of_le hlong), orEmpty, if_neg hne,
          List.take_append_of_le_length (by rw [List.length_map]; exact hlong), List.map_take]
      · have hshort : before.length < 4 := Nat.lt_of_not_le hlong
        have hwhole : before.take 4 = before := List.take_of_length_le hshort.le
        have hroom : room before.length = 4 - (orEmpty (before.map Hextet.digits)).length - 1 := by
          unfold room orEmpty
          split
          · rename_i hnil
            rw [List.map_eq_nil_iff.mp hnil]
            rfl
          · rename_i hne
            have hpos := List.length_pos_of_ne_nil hne
            rw [List.length_map] at hpos ⊢
            omega
        have hsize : (orEmpty (before.map Hextet.digits)).length ≤ 3 := by
          unfold orEmpty
          split
          · decide
          · rw [List.length_map]
            omega
        obtain ⟨n, hn⟩ : ∃ n, 4 - (orEmpty (before.map Hextet.digits)).length = n + 1 :=
          ⟨_, (Nat.sub_add_cancel (by omega)).symm⟩
        rw [hwhole, List.length_map, if_neg hshort.ne, List.take_append, List.take_append, hn,
          List.take_succ_cons, List.take_succ_cons, hroom, hn, Nat.add_sub_cancel, orEmpty_take]

/-- An empty piece separates what is in front from what is behind. -/
theorem firstPieces_parts {front behind : List (List Char)} (hfront : ∀ p ∈ front, p ≠ [])
    (hbehind : ∀ p ∈ behind, p ≠ []) (hlength : front.length ≤ 4)
    (hroom : behind.length ≤ room front.length) :
    (firstPieces front behind).takeWhile (fun p => !p.isEmpty) = front ∧
      (firstPieces front behind).filter (fun p => !p.isEmpty) = front ++ behind := by
  have hempty (p : List Char) (hp : p ≠ []) : p.isEmpty = false := by
    cases p with
    | nil => exact absurd rfl hp
    | cons => rfl
  have hfront' : ∀ p ∈ front, p.isEmpty = false := fun p hp => hempty p (hfront p hp)
  have hbehind' : ∀ p ∈ behind, p.isEmpty = false := fun p hp => hempty p (hbehind p hp)
  -- there are at most four pieces in front, and at most two behind
  rcases front with _ | ⟨a, _ | ⟨b, _ | ⟨c, _ | ⟨d, _ | ⟨e, rest⟩⟩⟩⟩⟩
  all_goals rcases behind with _ | ⟨x, _ | ⟨y, _ | ⟨z, rest'⟩⟩⟩
  all_goals simp [room] at hlength hroom
  all_goals first | omega | simp_all [firstPieces, orEmpty]

theorem firstPieces_inj {s t : Ip6Text}
    (hsame : firstPieces (s.leading.map Hextet.digits) (s.exposed.map Piece.text) =
      firstPieces (t.leading.map Hextet.digits) (t.exposed.map Piece.text)) :
    s.leading.map Hextet.digits = t.leading.map Hextet.digits ∧
      s.exposed.map Piece.text = t.exposed.map Piece.text := by
  have hparts (u : Ip6Text) := by
    refine @firstPieces_parts (u.leading.map Hextet.digits) (u.exposed.map Piece.text)
      ?_ ?_ ?_ ?_
    · exact List.forall_mem_map.mpr fun h _ => h.written.1
    · exact List.forall_mem_map.mpr fun p _ => p.text_ne_nil
    · rw [List.length_map]
      exact u.shown_length.1
    · rw [List.length_map, List.length_map]
      exact u.shown_length.2
  obtain ⟨hs, hs'⟩ := hparts s
  obtain ⟨ht, ht'⟩ := hparts t
  rw [hsame] at hs hs'
  have hfront := hs.symm.trans ht
  refine ⟨hfront, ?_⟩
  have hall := hs'.symm.trans ht'
  rw [hfront] at hall
  exact List.append_cancel_left hall

theorem leading_values (t : Ip6Text) :
    t.leading.map Hextet.value = t.address.take t.leading.length := by
  have hvalues (groups : List Hextet) (rest : List Nat) :
      (groups.take 4).map Hextet.value =
        (groups.map Hextet.value ++ rest).take (groups.take 4).length := by
    rw [List.take_append_of_le_length (by simp), ← List.map_take, List.length_take]
    congr 1
    simp
  cases t with
  | full groups tail hcount => exact hvalues groups _
  | compressed before after tail hcount =>
      rw [leading, address, List.append_assoc]
      exact hvalues before _

end Ip6Text

theorem network6_take {a b : List Nat} (hsame : network6 a = network6 b) :
    a.take 4 = b.take 4 := by
  unfold network6 at hsame
  split at hsame <;> split at hsame
  · rfl
  · cases hsame
  · cases hsame
  · exact Network.v6.inj hsame

theorem styles_of_digits {a b : List Hextet}
    (hsame : a.map Hextet.digits = b.map Hextet.digits) :
    a.map Hextet.style = b.map Hextet.style := by
  have hstyle (l : List Hextet) :
      l.map Hextet.style = (l.map Hextet.digits).map (List.map Char.isUpper) := by
    rw [List.map_map]
    rfl
  rw [hstyle, hstyle, hsame]

theorem shown_of_texts {a b : List Piece} :
    a.map Piece.shape = b.map Piece.shape ↔ a.map Piece.text = b.map Piece.text := by
  induction a generalizing b with
  | nil => cases b <;> simp
  | cons p a ih => cases b <;> simp [Piece.text_eq_iff, ih]

/-- In front of `::` the network leaves only the style open. -/
theorem digits_of_network {s t : Ip6Text}
    (hstyles : s.leading.map Hextet.style = t.leading.map Hextet.style)
    (hnetwork : s.address.take 4 = t.address.take 4) :
    s.leading.map Hextet.digits = t.leading.map Hextet.digits := by
  have hlength : s.leading.length = t.leading.length := by
    simpa using congrArg List.length hstyles
  have hvalues : s.leading.map Hextet.value = t.leading.map Hextet.value := by
    have htake := congrArg (List.take t.leading.length) hnetwork
    rw [List.take_take, List.take_take, Nat.min_eq_left t.shown_length.1] at htake
    rw [s.leading_values, t.leading_values, hlength, htake]
  refine List.ext_getElem (by simp [hlength]) fun i hi hi' => ?_
  rw [List.length_map] at hi hi'
  have hvalue : (s.leading.map Hextet.value)[i]? = (t.leading.map Hextet.value)[i]? := by
    rw [hvalues]
  have hstyle : (s.leading.map Hextet.style)[i]? = (t.leading.map Hextet.style)[i]? := by
    rw [hstyles]
  simp only [List.getElem?_map, List.getElem?_eq_getElem hi, List.getElem?_eq_getElem hi',
    Option.map_some, Option.some.injEq] at hvalue hstyle
  rw [List.getElem_map, List.getElem_map, Hextet.digits_eq_iff]
  exact ⟨hvalue, hstyle⟩

/-- Two addresses of one network are masked alike exactly when they are spelled alike. -/
theorem maskIp_hides_iff (s t : ClientIp) :
    (s.network = t.network →
        AuthService.maskIp (some s.text) = AuthService.maskIp (some t.text)) ↔
      (s.network = t.network → SpelledAlike s t) := by
  refine forall_congr' fun hnetwork => ?_
  cases s with
  | v4 q =>
      cases t with
      | v4 r =>
          refine iff_of_true ?_ trivial
          obtain ⟨ha, hb, hc⟩ : q.a.val = r.a.val ∧ q.b.val = r.b.val ∧ q.c.val = r.c.val := by
            simpa [ClientIp.network] using hnetwork
          rw [maskIp_v4, maskIp_v4, Fin.ext ha, Fin.ext hb, Fin.ext hc]
      | v6 t => exact iff_of_false (mask_separators q t) id
  | v6 s =>
      cases t with
      | v4 q => exact iff_of_false (fun hsame => mask_separators q s hsame.symm) id
      | v6 t =>
          rw [mask_v6_iff, Ip6Text.take_pieces, Ip6Text.take_pieces]
          constructor
          · intro hsame
            obtain ⟨hfront, hbehind⟩ := Ip6Text.firstPieces_inj hsame
            exact ⟨styles_of_digits hfront, shown_of_texts.mpr hbehind⟩
          · rintro ⟨hstyles, hshown⟩
            rw [shown_of_texts.mp hshown, digits_of_network hstyles (network6_take hnetwork)]

/-- Texts without `::` among the first four groups, in one style, hide the rest. -/
theorem uncut_alike {s t : Ip6Text} (hs : s.leading.length = 4)
    (hstyles : s.leading.map Hextet.style = t.leading.map Hextet.style) :
    SpelledAlike (.v6 s) (.v6 t) := by
  have ht : t.leading.length = 4 := by simpa [hs] using (congrArg List.length hstyles).symm
  have hnone (u : Ip6Text) (hu : u.leading.length = 4) : u.exposed = [] := by
    have hlength := u.shown_length.2
    rw [hu] at hlength
    exact List.eq_nil_of_length_eq_zero (Nat.le_zero.mp hlength)
  refine ⟨hstyles, ?_⟩
  rw [hnone s hs, hnone t ht]

/-- `2001:db8::` with one more group. -/
def sampleHost (host : Char) (hhost : (hexDigit host).isSome = true) : ClientIp :=
  .v6 (.compressed
    [⟨['2', '0', '0', '1'], by simp [hexDigit]⟩, ⟨['d', 'b', '8'], by simp [hexDigit]⟩]
    [⟨[host], by simp [hhost]⟩] none (Nat.le_add_left 3 4))

/-- The whole address is in the log. -/
theorem maskIp_reveals :
    (sampleHost '1' rfl).text = "2001:db8::1" ∧ (sampleHost '2' rfl).text = "2001:db8::2" ∧
      (sampleHost '1' rfl).network = (sampleHost '2' rfl).network ∧
      AuthService.maskIp (some "2001:db8::1") = "2001:db8::1::/64" ∧
      AuthService.maskIp (some "2001:db8::2") = "2001:db8::2::/64" ∧
      ¬ ((sampleHost '1' rfl).network = (sampleHost '2' rfl).network →
        AuthService.maskIp (some (sampleHost '1' rfl).text) =
          AuthService.maskIp (some (sampleHost '2' rfl).text)) := by
  have hfirst : (sampleHost '1' rfl).text = "2001:db8::1" := by decide
  have hsecond : (sampleHost '2' rfl).text = "2001:db8::2" := by decide
  have hnetwork : (sampleHost '1' rfl).network = (sampleHost '2' rfl).network := by decide
  have hmask : AuthService.maskIp (some "2001:db8::1") = "2001:db8::1::/64" := by decide
  have hmask' : AuthService.maskIp (some "2001:db8::2") = "2001:db8::2::/64" := by decide
  refine ⟨hfirst, hsecond, hnetwork, hmask, hmask', fun hhides => ?_⟩
  have hsame := hhides hnetwork
  rw [hfirst, hsecond, hmask, hmask'] at hsame
  exact absurd hsame (by decide)

end Mes
