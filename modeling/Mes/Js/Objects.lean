import Mes.Js.Json

/-!
Assignment to the members of an object that was made by a literal: the order of its own
properties, and the one name that is not a property of its own. Assigning to
`__proto__` calls the setter of `Object.prototype`, which changes the prototype, if
anything, and no member.
-/

namespace Js

namespace Json

def PROTO : JsString := text "__proto__"

/-- The array index that a name writes. -/
def arrayIndex (key : JsString) : Option Nat :=
  let n := natOf key
  if key = (if n = 0 then [ZERO] else digitsOf n) ∧ n < 4294967295 then some n else none

/-- A property stays before a new one: array indices come first, in their order, then
the other names, the oldest first. -/
def staysBefore (key new : JsString) : Bool :=
  match arrayIndex key, arrayIndex new with
  | some i, some j => decide (i < j)
  | none, some _ => false
  | _, none => true

def place (key : JsString) (value : Json) : Members → Members
  | [] => [(key, value)]
  | m :: ms =>
      if staysBefore m.1 key then m :: place key value ms else (key, value) :: m :: ms

/-- `object[key] = value`. -/
def setProperty (ms : Members) (key : JsString) (value : Json) : Members :=
  if key = PROTO then ms
  else if key ∈ keys ms then ms.map fun m => if m.1 = key then (key, value) else m
  else place key value ms

/-- Assign members one after the other to a new object. -/
def assignAll (ms : Members) : Members :=
  ms.foldl (fun object m => setProperty object m.1 m.2) []

/-- The members in the order of their names, by code units. -/
def sortByKey (ms : Members) : Members :=
  ms.mergeSort fun m n => decide (m.1 ≤ n.1)

/-- The members of an object to which they are assigned in the order of their names. -/
def arranged (ms : Members) : Members :=
  assignAll (sortByKey ms)

def ordinary (m : JsString × Json) : Bool :=
  decide (m.1 ≠ PROTO)

/-! ### Assignment -/

theorem place_perm (key : JsString) (value : Json) (ms : Members) :
    (place key value ms).Perm ((key, value) :: ms) := by
  induction ms with
  | nil => exact .refl _
  | cons m ms ih =>
      unfold place
      split
      · exact (ih.cons m).trans (.swap _ _ _)
      · exact .refl _

theorem keys_perm {ms ns : Members} (hperm : ms.Perm ns) : (keys ms).Perm (keys ns) :=
  hperm.map Prod.fst

theorem setProperty_proto {m : JsString × Json} (hproto : ordinary m = false)
    (object : Members) : setProperty object m.1 m.2 = object := by
  have hkey : m.1 = PROTO := by
    simpa [ordinary] using hproto
  exact if_pos hkey

theorem setProperty_new {m : JsString × Json} (hm : ordinary m = true) {object : Members}
    (hnew : m.1 ∉ keys object) : (setProperty object m.1 m.2).Perm (m :: object) := by
  have hkey : m.1 ≠ PROTO := of_decide_eq_true hm
  unfold setProperty
  rw [if_neg hkey, if_neg hnew]
  exact place_perm m.1 m.2 object

/-- Assignment of members with different names. -/
theorem assign_perm (ms object : Members) (hkeys : (keys (object ++ ms)).Nodup) :
    (ms.foldl (fun object m => setProperty object m.1 m.2) object).Perm
      (object ++ ms.filter ordinary) := by
  induction ms generalizing object with
  | nil => exact .of_eq (List.append_nil object).symm
  | cons m ms ih =>
      have hmiddle : (object ++ m :: ms).Perm (m :: object ++ ms) := List.perm_middle
      have hkeys' : (keys (m :: object ++ ms)).Nodup := (keys_perm hmiddle).nodup_iff.mp hkeys
      rw [List.foldl_cons]
      cases hm : ordinary m with
      | false =>
          rw [setProperty_proto hm, List.filter_cons_of_neg (by rw [hm]; decide)]
          exact ih object (List.nodup_cons.mp hkeys').2
      | true =>
          have hnew : m.1 ∉ keys object := by
            intro hmem
            refine (List.nodup_cons.mp hkeys').1 (List.mem_map.mpr ?_)
            obtain ⟨n, hn, heq⟩ := List.mem_map.mp hmem
            exact ⟨n, List.mem_append_left ms hn, heq⟩
          have hplaced := setProperty_new hm hnew
          have hnodup : (keys (setProperty object m.1 m.2 ++ ms)).Nodup :=
            (keys_perm (hplaced.append_right ms)).nodup_iff.mpr hkeys'
          rw [List.filter_cons_of_pos hm]
          exact (ih _ hnodup).trans ((hplaced.append_right _).trans List.perm_middle.symm)

/-! ### Sorting -/

theorem sortByKey_perm (ms : Members) : (sortByKey ms).Perm ms :=
  List.mergeSort_perm ms _

theorem sortByKey_sorted (ms : Members) :
    (sortByKey ms).Pairwise fun m n => decide (m.1 ≤ n.1) = true := by
  refine List.pairwise_mergeSort ?_ ?_ ms
  · intro a b c hab hbc
    exact decide_eq_true (List.le_trans (of_decide_eq_true hab) (of_decide_eq_true hbc))
  · intro a b
    rw [Bool.or_eq_true, decide_eq_true_eq, decide_eq_true_eq]
    exact List.le_total a.1 b.1

theorem eq_of_key {ms : Members} (hkeys : (keys ms).Nodup) {m n : JsString × Json}
    (hm : m ∈ ms) (hn : n ∈ ms) (heq : m.1 = n.1) : m = n :=
  List.inj_on_of_nodup_map hkeys hm hn heq

/-- There is one sorted list of the same members. -/
theorem sorted_unique {ms ns : Members} (hkeys : (keys ms).Nodup) (hperm : ms.Perm ns)
    (hms : ms.Pairwise fun m n => decide (m.1 ≤ n.1) = true)
    (hns : ns.Pairwise fun m n => decide (m.1 ≤ n.1) = true) : ms = ns := by
  refine List.Perm.eq_of_pairwise ?_ hms hns hperm
  intro m n hm hn hmn hnm
  exact eq_of_key hkeys hm (hperm.mem_iff.mpr hn)
    (List.le_antisymm (of_decide_eq_true hmn) (of_decide_eq_true hnm))

theorem onValues_filter (h : Json → Json) (ms : Members) :
    onValues h (ms.filter ordinary) = (onValues h ms).filter ordinary := by
  unfold onValues
  rw [List.filter_map]
  rfl

section Arranged

variable {ms ns : Members}

theorem keys_sortByKey (hkeys : (keys ms).Nodup) : (keys (sortByKey ms)).Nodup :=
  (keys_perm (sortByKey_perm ms)).nodup_iff.mpr hkeys

theorem sortByKey_eq (hkeys : (keys ms).Nodup) (hperm : ms.Perm ns) :
    sortByKey ms = sortByKey ns :=
  sorted_unique (keys_sortByKey hkeys)
    ((sortByKey_perm ms).trans (hperm.trans (sortByKey_perm ns).symm))
    (sortByKey_sorted ms) (sortByKey_sorted ns)

theorem arranged_perm (hkeys : (keys ms).Nodup) : (arranged ms).Perm (ms.filter ordinary) := by
  have hassign := assign_perm (sortByKey ms) [] (keys_sortByKey hkeys)
  exact hassign.trans ((sortByKey_perm ms).filter ordinary)

/-- The member `__proto__` is lost. -/
theorem arranged_filter (hkeys : (keys ms).Nodup) :
    arranged (ms.filter ordinary) = arranged ms := by
  have hsorted : sortByKey (ms.filter ordinary) = (sortByKey ms).filter ordinary := by
    have hperm : (sortByKey (ms.filter ordinary)).Perm ((sortByKey ms).filter ordinary) :=
      (sortByKey_perm _).trans ((sortByKey_perm ms).filter ordinary).symm
    have hnodup : (keys (ms.filter ordinary)).Nodup :=
      List.Nodup.sublist (List.filter_sublist.map Prod.fst) hkeys
    exact sorted_unique (keys_sortByKey hnodup) hperm (sortByKey_sorted _)
      ((sortByKey_sorted ms).filter ordinary)
  unfold arranged assignAll
  rw [hsorted, List.foldl_filter]
  congr 1
  funext object m
  split
  · rfl
  · rename_i hm
    exact (setProperty_proto (Bool.eq_false_of_not_eq_true hm) object).symm

/-- Nothing else is lost, and the order of the members does not matter. -/
theorem arranged_eq_iff (hms : (keys ms).Nodup) (hns : (keys ns).Nodup)
    (hms' : PROTO ∉ keys ms) (hns' : PROTO ∉ keys ns) :
    arranged ms = arranged ns ↔ ms.Perm ns := by
  have hall {l : Members} (hl : PROTO ∉ keys l) : l.filter ordinary = l := by
    refine List.filter_eq_self.mpr fun m hm => decide_eq_true ?_
    intro heq
    exact hl (heq ▸ List.mem_map_of_mem hm)
  constructor
  · intro heq
    have hleft := arranged_perm hms
    have hright := arranged_perm hns
    rw [hall hms'] at hleft
    rw [hall hns', ← heq] at hright
    exact hleft.symm.trans hright
  · intro hperm
    exact congrArg assignAll (sortByKey_eq hms hperm)

theorem place_onValues (h : Json → Json) (key : JsString) (value : Json) (ms : Members) :
    place key (h value) (onValues h ms) = onValues h (place key value ms) := by
  induction ms with
  | nil => rfl
  | cons m ms ih =>
      have hcons : onValues h (m :: ms) = (m.1, h m.2) :: onValues h ms := rfl
      rw [hcons, place, place]
      by_cases hstays : staysBefore m.1 key = true
      · rw [if_pos hstays, if_pos hstays, ih]
        rfl
      · rw [if_neg hstays, if_neg hstays]
        rfl

theorem setProperty_onValues (h : Json → Json) (key : JsString) (value : Json) (ms : Members) :
    setProperty (onValues h ms) key (h value) = onValues h (setProperty ms key value) := by
  unfold setProperty
  rw [keys_onValues]
  split
  · rfl
  · split
    · unfold onValues
      rw [List.map_map, List.map_map]
      refine List.map_congr_left fun m _ => ?_
      simp only [Function.comp]
      split <;> rfl
    · exact place_onValues h key value ms

theorem assignAll_onValues (h : Json → Json) (ms : Members) :
    assignAll (onValues h ms) = onValues h (assignAll ms) := by
  have hfold (object : Members) :
      (onValues h ms).foldl (fun object m => setProperty object m.1 m.2) (onValues h object) =
        onValues h (ms.foldl (fun object m => setProperty object m.1 m.2) object) := by
    induction ms generalizing object with
    | nil => rfl
    | cons m ms ih =>
        have hstep := setProperty_onValues h m.1 m.2 object
        rw [List.foldl_cons, ← ih, ← hstep]
        rfl
  exact hfold []

/-- The order depends on the names alone. -/
theorem arranged_onValues (h : Json → Json) (ms : Members) :
    arranged (onValues h ms) = onValues h (arranged ms) := by
  have hsorted : sortByKey (onValues h ms) = onValues h (sortByKey ms) := by
    unfold sortByKey onValues
    symm
    exact List.map_mergeSort fun _ _ _ _ => rfl
  unfold arranged
  rw [hsorted, assignAll_onValues]

end Arranged

end Json

end Js
