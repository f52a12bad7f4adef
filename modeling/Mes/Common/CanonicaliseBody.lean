import Mes.Js.Objects

/-!
`canonicaliseBody`, the text of a request body whose hash tells two bodies of one
idempotency key apart.

Two bodies have one text if and only if they are the same up to the order of
members once the members named `__proto__` are left out and every number beyond the
range of the doubles is replaced by `null`.
-/

namespace Mes

open Js Js.Json

/-- Arrays item by item. The members of an object are assigned, in the order of
`Object.keys(source).sort()`, to a new object. -/
def sortKeysDeep : Json → Json :=
  deep .number arranged

def canonicaliseBody (body : Json) : JsString :=
  stringify (sortKeysDeep body)

/-- What remains of a body: no member `__proto__`, no infinite number and no sign of a
zero. -/
def remains : Json → Json :=
  deep plainNumber (List.filter ordinary)

theorem sortKeysDeep_array (xs : List Json) :
    sortKeysDeep (.array xs) = .array (xs.map sortKeysDeep) :=
  deep_array _ _ xs

theorem sortKeysDeep_object (ms : Members) :
    sortKeysDeep (.object ms) = .object (arranged (onValues sortKeysDeep ms)) :=
  deep_object _ _ ms

theorem remains_array (xs : List Json) : remains (.array xs) = .array (xs.map remains) :=
  deep_array _ _ xs

theorem remains_object (ms : Members) :
    remains (.object ms) = .object ((onValues remains ms).filter ordinary) :=
  deep_object _ _ ms

/-! ### What remains is all that the text shows -/

theorem sortKeysDeep_plainNumber (n : Number) : sortKeysDeep (plainNumber n) = plainNumber n := by
  cases n <;> rfl

theorem sortKeysDeep_remains {v : Json} (hv : Parsed v) :
    sortKeysDeep (remains v) = plain (sortKeysDeep v) := by
  induction hv with
  | null | bool | string => rfl
  | @number n _ => exact sortKeysDeep_plainNumber n
  | @array xs _ ih =>
      rw [remains_array, sortKeysDeep_array, sortKeysDeep_array, plain_array, List.map_map,
        List.map_map]
      exact congrArg Json.array (List.map_congr_left ih)
  | @object ms hkeys _ ih =>
      have hvalues : onValues sortKeysDeep (onValues remains ms) =
          onValues plain (onValues sortKeysDeep ms) := by
        unfold onValues
        rw [List.map_map, List.map_map]
        exact List.map_congr_left fun m hm => Prod.ext rfl (ih m hm)
      have hnodup : (keys (onValues plain (onValues sortKeysDeep ms))).Nodup := by
        rw [keys_onValues, keys_onValues]
        exact hkeys
      rw [remains_object, sortKeysDeep_object, sortKeysDeep_object, plain_object, onValues_filter,
        hvalues, arranged_filter hnodup, arranged_onValues]

/-- A body of which everything remains. -/
def Lossless : Json → Prop :=
  Each (fun n => n.unsigned = n) fun ms => (keys ms).Nodup ∧ PROTO ∉ keys ms

theorem lossless_remains {v : Json} (hv : Parsed v) : Lossless (remains v) := by
  induction hv with
  | null => exact .null
  | bool b => exact .bool b
  | string s => exact .string s
  | @number n _ =>
      cases n with
      | infinite negative => exact .null
      | finite negative bits =>
          refine .number ?_
          simp only [Number.unsigned, Bool.and_assoc, Bool.and_self]
  | @array xs _ ih =>
      rw [remains_array]
      exact .array (List.forall_mem_map.mpr ih)
  | @object ms hkeys _ ih =>
      have hsub : (onValues remains ms).filter ordinary ⊆ onValues remains ms :=
        List.filter_sublist.subset
      rw [remains_object]
      refine .object ⟨?_, ?_⟩ fun m hm => ?_
      · have hnodup : (keys (onValues remains ms)).Nodup := by
          rw [keys_onValues]
          exact hkeys
        exact hnodup.sublist (List.filter_sublist.map Prod.fst)
      · intro hproto
        obtain ⟨m, hm, heq⟩ := List.mem_map.mp hproto
        exact of_decide_eq_true (List.mem_filter.mp hm).2 heq
      · obtain ⟨n, hn, rfl⟩ := List.mem_map.mp (hsub hm)
        exact ih n hn

/-! ### Lossless bodies -/

/-- Two objects have the same members after `h`, in some order. -/
theorem onValues_perm_iff {h : Json → Json} {ms ns : Members} (hms : (keys ms).Nodup)
    (hns : (keys ns).Nodup) :
    (onValues h ms).Perm (onValues h ns) ↔
      (∀ m ∈ ms, ∃ n ∈ ns, n.1 = m.1 ∧ h m.2 = h n.2) ∧ keys ns ⊆ keys ms := by
  have hnodup {l : Members} (hl : (keys l).Nodup) : (onValues h l).Nodup := by
    refine List.Nodup.of_map Prod.fst ?_
    rw [← keys, keys_onValues]
    exact hl
  have hmem {l : Members} {k : JsString} : k ∈ keys l ↔ ∃ m ∈ l, m.1 = k := List.mem_map
  rw [List.perm_ext_iff_of_nodup (hnodup hms) (hnodup hns)]
  constructor
  · intro hsame
    constructor
    · intro m hm
      obtain ⟨u, hu, heq⟩ :=
        mem_onValues.mp ((hsame (m.1, h m.2)).mp (mem_onValues.mpr ⟨m.2, hm, rfl⟩))
      exact ⟨(m.1, u), hu, rfl, heq.symm⟩
    · intro k hk
      obtain ⟨n, hn, rfl⟩ := hmem.mp hk
      obtain ⟨u, hu, -⟩ :=
        mem_onValues.mp ((hsame (n.1, h n.2)).mpr (mem_onValues.mpr ⟨n.2, hn, rfl⟩))
      exact hmem.mpr ⟨_, hu, rfl⟩
  · rintro ⟨hfound, hkeys⟩ ⟨k, v⟩
    constructor
    · intro hv
      obtain ⟨u, hu, rfl⟩ := mem_onValues.mp hv
      obtain ⟨⟨_, u'⟩, hn, rfl, heq⟩ := hfound (k, u) hu
      exact mem_onValues.mpr ⟨u', hn, heq.symm⟩
    · intro hv
      obtain ⟨u, hu, rfl⟩ := mem_onValues.mp hv
      obtain ⟨⟨_, u'⟩, hm, rfl⟩ := hmem.mp (hkeys (hmem.mpr ⟨(k, u), hu, rfl⟩))
      obtain ⟨n, hn, hkey, heq⟩ := hfound _ hm
      -- the member found is the one of this name
      obtain rfl : n = (_, u) := eq_of_key hns hn hu hkey
      exact mem_onValues.mpr ⟨u', hm, heq⟩

theorem map_eq_iff {α β : Type} {f : α → β} {R : α → α → Prop} {xs ys : List α}
    (hiff : ∀ x ∈ xs, ∀ y ∈ ys, f x = f y ↔ R x y) :
    xs.map f = ys.map f ↔ List.Forall₂ R xs ys := by
  induction xs generalizing ys with
  | nil => cases ys <;> simp
  | cons x xs ih =>
      cases ys with
      | nil => simp
      | cons y ys =>
          have hhead := hiff x List.mem_cons_self y List.mem_cons_self
          have htail : xs.map f = ys.map f ↔ List.Forall₂ R xs ys :=
            ih fun x' hx' y' hy' =>
              hiff x' (List.mem_cons_of_mem x hx') y' (List.mem_cons_of_mem y hy')
          rw [List.map_cons, List.map_cons, List.cons.injEq, List.forall₂_cons, hhead, htail]

/-- Where everything remains, sorting identifies the bodies that are the same. -/
theorem sortKeysDeep_eq_iff {v w : Json} (hv : Lossless v) (hw : Lossless w) :
    sortKeysDeep v = sortKeysDeep w ↔ Same v w := by
  induction hv generalizing w with
  | null => cases hw <;> simp [sortKeysDeep, deep, Same]
  | bool b => cases hw <;> simp [sortKeysDeep, deep, Same]
  | string s => cases hw <;> simp [sortKeysDeep, deep, Same]
  | @number n hn =>
      cases hw with
      | @number n' hn' => simp [sortKeysDeep, deep, Same, hn, hn']
      | null | bool | string | array | object => simp [sortKeysDeep, deep, Same]
  | @array xs hxs ih =>
      cases hw with
      | @array ys hys =>
          rw [sortKeysDeep_array, sortKeysDeep_array, Json.array.injEq, Same, sameItems_iff]
          exact map_eq_iff fun x hx y hy => ih x hx (hys y hy)
      | null | bool | string | number | object => simp [sortKeysDeep, deep, Same]
  | @object ms hms _ ih =>
      cases hw with
      | @object ns hns hvalues =>
          have hsame : ∀ m ∈ ms,
              (∃ n ∈ ns, n.1 = m.1 ∧ sortKeysDeep m.2 = sortKeysDeep n.2) ↔
                ∃ n ∈ ns, n.1 = m.1 ∧ Same m.2 n.2 := by
            intro m hm
            refine exists_congr fun n => and_congr_right fun hn => and_congr_right fun _ => ?_
            exact ih m hm (hvalues n hn)
          have hkeys {l : Members} (hl : (keys l).Nodup ∧ PROTO ∉ keys l) :
              (keys (onValues sortKeysDeep l)).Nodup ∧
                PROTO ∉ keys (onValues sortKeysDeep l) := by
            rw [keys_onValues]
            exact hl
          rw [sortKeysDeep_object, sortKeysDeep_object, Json.object.injEq, Same, sameMembers_iff,
            arranged_eq_iff (hkeys hms).1 (hkeys hns).1 (hkeys hms).2 (hkeys hns).2,
            onValues_perm_iff hms.1 hns.1]
          exact and_congr_left' (forall₂_congr hsame)
      | null | bool | string | number | array => simp [sortKeysDeep, deep, Same]

theorem canonicaliseBody_eq_iff {a b : Json} (ha : Parsed a) (hb : Parsed b) :
    canonicaliseBody a = canonicaliseBody b ↔ Same (remains a) (remains b) := by
  unfold canonicaliseBody
  rw [stringify_eq_iff, ← sortKeysDeep_remains ha, ← sortKeysDeep_remains hb,
    sortKeysDeep_eq_iff (lossless_remains ha) (lossless_remains hb)]

/-- Bodies that are the same leave the same. -/
theorem same_remains {v w : Json} (hsame : Same v w) : Same (remains v) (remains w) := by
  induction v using Json.induct generalizing w with
  | null | bool | string => cases w <;> simp_all [remains, deep, Same]
  | number n =>
      cases w with
      | number n' =>
          have hnumbers : n.unsigned = n'.unsigned := hsame
          cases n with
          | finite negative bits =>
              cases n' with
              | finite negative' bits' => exact congrArg Number.unsigned hnumbers
              | infinite negative' => cases hnumbers
          | infinite negative =>
              cases n' with
              | finite negative' bits' => cases hnumbers
              | infinite negative' => trivial
      | null | bool | string | array | object => exact hsame.elim
  | array xs ih =>
      cases w with
      | array ys =>
          have hitems := (List.forall₂_and_left xs ys).mpr ⟨ih, (sameItems_iff xs ys).mp hsame⟩
          rw [remains_array, remains_array]
          refine (sameItems_iff _ _).mpr ?_
          rw [List.forall₂_map_left_iff, List.forall₂_map_right_iff]
          exact hitems.imp fun x y hxy => hxy.1 hxy.2
      | null | bool | string | number | object => exact hsame.elim
  | object ms ih =>
      cases w with
      | object ns =>
          obtain ⟨hmembers, hkeys⟩ := hsame
          rw [sameMembers_iff] at hmembers
          rw [remains_object, remains_object, ← onValues_filter, ← onValues_filter]
          refine ⟨(sameMembers_iff _ _).mpr ?_, ?_⟩
          · rintro ⟨k, v⟩ hm
            obtain ⟨u, hu, rfl⟩ := mem_onValues.mp hm
            obtain ⟨hu, hordinary⟩ := List.mem_filter.mp hu
            obtain ⟨⟨_, u'⟩, hn, rfl, hvalue⟩ := hmembers (k, u) hu
            exact ⟨(_, remains u'),
              mem_onValues.mpr ⟨u', List.mem_filter.mpr ⟨hn, hordinary⟩, rfl⟩, rfl,
              ih _ hu hvalue⟩
          · rw [keys_onValues, keys_onValues]
            intro k hk
            obtain ⟨n, hn, rfl⟩ := List.mem_map.mp hk
            obtain ⟨hn, hordinary⟩ := List.mem_filter.mp hn
            obtain ⟨m, hm, hkey⟩ := List.mem_map.mp (hkeys (List.mem_map_of_mem hn))
            have hordinary' : ordinary m = true := by
              unfold ordinary at hordinary ⊢
              rw [hkey]
              exact hordinary
            exact List.mem_map.mpr ⟨m, List.mem_filter.mpr ⟨hm, hordinary'⟩, hkey⟩
      | null | bool | string | number | array => exact hsame.elim

end Mes
