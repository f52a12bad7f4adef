import Mathlib.Data.List.Flatten
import Mathlib.Data.List.Nodup
import Mathlib.Data.List.Sort
import Mathlib.Order.Defs.LinearOrder

/-!
Listing a table page by page, each page a query of its own with `ORDER BY`, `OFFSET` and
`LIMIT`. The sort key need not be unique, so each query may arrange the rows that share a
key as it likes. The pages together are the table, whatever the queries choose, exactly
when no page ends between two rows with the same key.
-/

namespace Paging

variable {E K : Type*} [LinearOrder K] {key : E → K} {rows : List E}

/-- An arrangement of the rows that `ORDER BY key DESC` allows. -/
structure NewestFirst (key : E → K) (rows : List E) where
  order : List E
  perm : order.Perm rows
  sorted : order.Pairwise fun a b => key b ≤ key a

/-- `OFFSET` and `LIMIT`. -/
def page (order : List E) (skip take : Nat) : List E :=
  (order.drop skip).take take

/-- The number of pages, rounded up. -/
def pageCount (total limit : Nat) : Nat :=
  (total + limit - 1) / limit

/-- All pages one after the other; `answer k` is the arrangement of the `k`th query. -/
def listing (limit : Nat) (answer : Nat → NewestFirst key rows) : List E :=
  (List.range (pageCount rows.length limit)).flatMap fun k =>
    page (answer k).order (k * limit) limit

/-- The first `n` rows take some of the rows with one key and leave others. -/
def Splits (key : E → K) (rows : List E) (n : Nat) : Prop :=
  ∃ t, rows.countP (fun a => decide (t < key a)) < n ∧
    n < rows.countP (fun a => decide (t ≤ key a))

theorem le_pageCount_mul {limit : Nat} (hlimit : 0 < limit) (total : Nat) :
    total ≤ pageCount total limit * limit := by
  unfold pageCount
  have hdiv := Nat.div_add_mod (total + limit - 1) limit
  have hmod := Nat.mod_lt (total + limit - 1) hlimit
  rw [Nat.mul_comm] at hdiv
  omega

theorem lt_pageCount {limit total k : Nat} (hlimit : 0 < limit) (hk : k * limit < total) :
    k < pageCount total limit := by
  by_contra hle
  have hmul := Nat.mul_le_mul_right limit (Nat.le_of_not_lt hle)
  have hcover := le_pageCount_mul hlimit total
  omega

namespace NewestFirst

/-- The rows from some key on come first. -/
theorem take_countP {order : List E} (hsorted : order.Pairwise fun a b => key b ≤ key a)
    (t : K) : order.take (order.countP fun a => decide (t ≤ key a)) =
      order.filter fun a => decide (t ≤ key a) := by
  induction order with
  | nil => rfl
  | cons a rest ih =>
      obtain ⟨hhead, htail⟩ := List.pairwise_cons.mp hsorted
      by_cases ha : t ≤ key a
      · simp [ha, ih htail]
      · have hnone (b : E) (hb : b ∈ rest) : ¬ t ≤ key b := fun hle =>
          ha (le_trans hle (hhead b hb))
        have hcount : rest.countP (fun b => decide (t ≤ key b)) = 0 :=
          List.countP_eq_zero.mpr fun b hb => by simpa using hnone b hb
        have hfilter : rest.filter (fun b => decide (t ≤ key b)) = [] :=
          List.filter_eq_nil_iff.mpr fun b hb => by simpa using hnone b hb
        simp [ha, hcount, hfilter]

theorem length_eq (answer : NewestFirst key rows) : answer.order.length = rows.length :=
  answer.perm.length_eq

theorem countP_eq (answer : NewestFirst key rows) (test : E → Bool) :
    answer.order.countP test = rows.countP test :=
  answer.perm.countP_eq test

/-- Of the rows newer than the row in place `n`, all stand before it, and of the rows
that are not older, more than `n` do. -/
theorem countP_lt (answer : NewestFirst key rows) {n : Nat} (hn : n < answer.order.length)
    {t : K} (ht : key answer.order[n] = t) :
    rows.countP (fun a => decide (t < key a)) ≤ n ∧
      n < rows.countP (fun a => decide (t ≤ key a)) := by
  have hpairs := List.pairwise_iff_getElem.mp answer.sorted
  constructor
  · rw [← answer.countP_eq, ← List.take_append_drop n answer.order, List.countP_append]
    have hlate : (answer.order.drop n).countP (fun a => decide (t < key a)) = 0 := by
      refine List.countP_eq_zero.mpr fun a ha => ?_
      obtain ⟨i, hi, rfl⟩ := List.mem_iff_getElem.mp ha
      rw [List.length_drop] at hi
      simp only [List.getElem_drop, decide_eq_true_eq, not_lt, ← ht]
      rcases Nat.eq_zero_or_pos i with rfl | hpos
      · simp
      · exact hpairs n (n + i) hn (by omega) (by omega)
    have hearly := List.countP_le_length (p := fun a => decide (t < key a))
      (l := answer.order.take n)
    rw [List.length_take] at hearly
    omega
  · rw [← answer.countP_eq, ← List.take_append_drop (n + 1) answer.order, List.countP_append]
    have hearly : (answer.order.take (n + 1)).countP (fun a => decide (t ≤ key a)) = n + 1 := by
      rw [List.countP_eq_length.mpr, List.length_take]
      · omega
      · intro a ha
        obtain ⟨i, hi, rfl⟩ := List.mem_iff_getElem.mp ha
        rw [List.length_take] at hi
        simp only [List.getElem_take, decide_eq_true_eq, ← ht]
        rcases Nat.lt_or_ge i n with hlt | hge
        · exact hpairs i n (by omega) hn hlt
        · obtain rfl : i = n := by omega
          exact le_refl _
    omega

/-- Where no group is split, every arrangement begins with the same rows. -/
theorem cut (first : NewestFirst key rows) {n : Nat} (hwhole : ¬ Splits key rows n) :
    ∃ newer : E → Bool, ∀ answer : NewestFirst key rows,
      answer.order.take n = answer.order.filter newer := by
  rcases Nat.lt_or_ge n rows.length with hlt | hge
  · cases n with
    | zero => exact ⟨fun _ => false, fun answer => by simp⟩
    | succ n =>
        have hn : n < first.order.length := by
          rw [first.length_eq]
          omega
        obtain ⟨hnewer, hcount⟩ := first.countP_lt hn rfl
        have hexact : rows.countP (fun a => decide (key first.order[n] ≤ key a)) = n + 1 := by
          by_contra hne
          exact hwhole ⟨key first.order[n], by omega, by omega⟩
        refine ⟨fun a => decide (key first.order[n] ≤ key a), fun answer => ?_⟩
        rw [← take_countP answer.sorted, answer.countP_eq, hexact]
  · refine ⟨fun _ => true, fun answer => ?_⟩
    rw [List.take_of_length_le (by rw [answer.length_eq]; exact hge)]
    simp

/-- Two neighbours with one key may change places. -/
theorem swap (answer : NewestFirst key rows) {n : Nat} (hn : n + 1 < answer.order.length)
    (hsame : key answer.order[n] = key answer.order[n + 1]) :
    ∃ other : NewestFirst key rows, other.order[n + 1]? = answer.order[n]? := by
  have hsplit : answer.order = answer.order.take n ++
      answer.order[n] :: answer.order[n + 1] :: answer.order.drop (n + 2) := by
    rw [List.getElem_cons_drop, List.getElem_cons_drop, List.take_append_drop]
  have hlength : (answer.order.take n).length = n := by
    rw [List.length_take]
    omega
  refine ⟨{ order := answer.order.take n ++
              answer.order[n + 1] :: answer.order[n] :: answer.order.drop (n + 2)
            perm := ?_
            sorted := ?_ }, ?_⟩
  · refine ((List.Perm.append_left _ (List.Perm.swap _ _ _)).trans ?_).trans answer.perm
    rw [← hsplit]
  · have hsorted := answer.sorted
    rw [hsplit] at hsorted
    simp only [List.pairwise_append, List.pairwise_cons, List.mem_cons] at hsorted ⊢
    obtain ⟨hfront, ⟨hx, hy, hback⟩, hacross⟩ := hsorted
    refine ⟨hfront, ⟨?_, ?_, hback⟩, ?_⟩
    · rintro b (rfl | hb)
      · exact le_of_eq hsame
      · exact hy b hb
    · exact fun b hb => hx b (Or.inr hb)
    · rintro a ha b (rfl | rfl | hb)
      · exact hacross a ha _ (Or.inr (Or.inl rfl))
      · exact hacross a ha _ (Or.inl rfl)
      · exact hacross a ha b (Or.inr (Or.inr hb))
  · rw [List.getElem?_append_right (by omega), hlength]
    simp only [Nat.add_sub_cancel_left, List.getElem?_cons_succ, List.getElem?_cons_zero]
    exact (List.getElem?_eq_getElem (by omega)).symm

/-- The rows can be arranged. -/
def arrange (key : E → K) (rows : List E) : NewestFirst key rows where
  order := rows.insertionSort fun a b => key b ≤ key a
  perm := List.perm_insertionSort _ rows
  sorted :=
    haveI : Std.Total fun a b : E => key b ≤ key a := ⟨fun a b => le_total (key b) (key a)⟩
    haveI : IsTrans E fun a b => key b ≤ key a := ⟨fun _ _ _ hab hbc => le_trans hbc hab⟩
    List.pairwise_insertionSort _ rows

end NewestFirst

/-- Where no page ends within a group, the pages are the table. -/
theorem listing_perm {limit : Nat} (hlimit : 0 < limit)
    (hwhole : ∀ k, ¬ Splits key rows (k * limit)) (answer : Nat → NewestFirst key rows) :
    (listing limit answer).Perm rows := by
  choose newer hnewer using fun k => (answer 0).cut (hwhole k)
  have hpages (m : Nat) : ((List.range m).flatMap fun k =>
      page (answer k).order (k * limit) limit).Perm (rows.filter (newer m)) := by
    induction m with
    | zero =>
        have hnone := hnewer 0 (answer 0)
        rw [Nat.zero_mul, List.take_zero] at hnone
        have hempty := ((answer 0).perm.filter (newer 0)).symm
        rw [← hnone] at hempty
        exact hempty.symm
    | succ m ih =>
        rw [List.range_succ, List.flatMap_append, List.flatMap_singleton]
        have hpage : (answer m).order.filter (newer (m + 1)) =
            (answer m).order.filter (newer m) ++ page (answer m).order (m * limit) limit := by
          rw [← hnewer, ← hnewer, Nat.succ_mul, List.take_add, page]
        have hrows := ((answer m).perm.filter (newer (m + 1))).symm
        rw [hpage] at hrows
        exact ((ih.trans ((answer m).perm.filter (newer m)).symm).append_right _).trans hrows.symm
  refine (hpages _).trans ?_
  have hall := hnewer (pageCount rows.length limit) (answer 0)
  rw [List.take_of_length_le (by
    rw [(answer 0).length_eq]
    exact le_pageCount_mul hlimit _)] at hall
  refine (((answer 0).perm.filter _).symm.trans ?_).trans (answer 0).perm
  rw [← hall]

/-- Where a page ends within a group, a row may be shown twice. -/
theorem listing_repeats {limit k : Nat} (hlimit : 0 < limit)
    (hsplits : Splits key rows (k * limit)) :
    ∃ answer : Nat → NewestFirst key rows, ¬ (listing limit answer).Nodup := by
  obtain ⟨t, hbefore, hbehind⟩ := hsplits
  obtain ⟨j, rfl⟩ : ∃ j, k = j + 1 := by
    cases k with
    | zero => rw [Nat.zero_mul] at hbefore; exact absurd hbefore (Nat.not_lt_zero _)
    | succ j => exact ⟨j, rfl⟩
  let first := NewestFirst.arrange key rows
  obtain ⟨n, hn⟩ : ∃ n, n + 1 = (j + 1) * limit := ⟨(j + 1) * limit - 1, by omega⟩
  have htotal := List.countP_le_length (p := fun a => decide (t ≤ key a)) (l := rows)
  have hlength := first.length_eq
  have hplace : n + 1 < first.order.length := by omega
  -- the rows on both sides of the cut have the key `t`
  have hsame : key first.order[n] = key first.order[n + 1] := by
    have hleft : key first.order[n] ≤ t := by
      by_contra hlt
      have hmono : rows.countP (fun a => decide (key first.order[n] ≤ key a)) ≤
          rows.countP fun a => decide (t < key a) := by
        refine List.countP_mono_left fun a _ ha => ?_
        simp only [decide_eq_true_eq] at ha ⊢
        exact lt_of_lt_of_le (not_le.mp hlt) ha
      have hcount := (first.countP_lt (n := n) (by omega) rfl).2
      omega
    have hright : t ≤ key first.order[n + 1] := by
      by_contra hlt
      have hmono : rows.countP (fun a => decide (t ≤ key a)) ≤
          rows.countP fun a => decide (key first.order[n + 1] < key a) := by
        refine List.countP_mono_left fun a _ ha => ?_
        simp only [decide_eq_true_eq] at ha ⊢
        exact lt_of_lt_of_le (not_le.mp hlt) ha
      have hcount := (first.countP_lt hplace rfl).1
      omega
    have hsorted := List.pairwise_iff_getElem.mp first.sorted n (n + 1) (by omega) hplace
      (Nat.lt_succ_self n)
    exact le_antisymm (le_trans hleft hright) hsorted
  obtain ⟨other, hother⟩ := first.swap hplace hsame
  refine ⟨fun i => if i = j + 1 then other else first, fun hnodup => ?_⟩
  rw [listing, List.nodup_flatMap] at hnodup
  have hpages : j + 1 < pageCount rows.length limit := lt_pageCount hlimit (by omega)
  have hdisjoint := List.pairwise_iff_getElem.mp hnodup.2 j (j + 1)
    (by rw [List.length_range]; omega) (by rw [List.length_range]; exact hpages)
    (Nat.lt_succ_self j)
  simp only [List.getElem_range, Function.onFun, if_neg (Nat.ne_of_lt (Nat.lt_succ_self j)),
    if_true] at hdisjoint
  have hmul : (j + 1) * limit = j * limit + limit := Nat.succ_mul j limit
  refine hdisjoint (a := first.order[n]) ?_ ?_
  · refine List.mem_of_getElem? (i := n - j * limit) ?_
    rw [page, List.getElem?_take_of_lt (by omega), List.getElem?_drop,
      Nat.add_sub_cancel' (by omega)]
    exact List.getElem?_eq_getElem (by omega)
  · refine List.mem_of_getElem? (i := 0) ?_
    rw [page, List.getElem?_take_of_lt hlimit, List.getElem?_drop, Nat.add_zero, ← hn, hother]
    exact List.getElem?_eq_getElem (by omega)

end Paging
