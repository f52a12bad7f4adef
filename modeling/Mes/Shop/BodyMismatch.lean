import Mes.Common.CanonicaliseBody
import Mes.Shop.Idempotency

/-!
What the comparison of request hashes tells about two bodies. The text of a body
leaves out the members named `__proto__` and the numbers beyond the range of the
doubles, so bodies that differ in these alone pass for one.
-/

namespace Mes

open Transact Js Js.Json

/-- The runtime reads a request body as the value `v`. -/
def Carries (rt : Runtime) (body : String) (v : Json) : Prop :=
  rt.canonicaliseBody body = decode (canonicaliseBody v)

/-- A request for `b` whose lookup finds the row of a request for `a` is told a mismatch
exactly if the two bodies differ. -/
def MismatchExact (a b : Json) : Prop :=
  ∀ (rt : Runtime) (seed : Seed) (w : BackendWorld rt), Function.Injective rt.sha256 →
    Runs rt (boot rt seed) w → ∀ q p k K user header₀ header body₀ body out,
      Keyed rt w q k K user header₀ header body₀ → Carries rt body₀ a → Carries rt body b →
        w.Ended p (.createPurchase user header body) out →
          FoundAtLookup p user.sub K.key w.view →
            (out = .error (.domain .idempotencyBodyMismatch) ↔ ¬ Same a b)

theorem replay_mismatch_iff (rt : Runtime) (body : String) (K : IdempotencyKey) :
    replay rt body K = .error (.domain .idempotencyBodyMismatch) ↔
      K.requestHash ≠ IdempotencyInterceptor.hashCanonicalBody rt body := by
  unfold replay
  split
  · rename_i hdiffers
    exact iff_of_true rfl hdiffers
  · rename_i hsame
    exact iff_of_false (fun heq => by cases heq) hsame

/-- Without collisions the hashes of two bodies are equal if their texts are. -/
theorem hash_eq_iff {rt : Runtime} (hinjective : Function.Injective rt.sha256)
    {body₀ body : String} {a b : Json} (ha : Carries rt body₀ a) (hb : Carries rt body b) :
    IdempotencyInterceptor.hashCanonicalBody rt body₀ =
      IdempotencyInterceptor.hashCanonicalBody rt body ↔
        canonicaliseBody a = canonicaliseBody b := by
  unfold IdempotencyInterceptor.hashCanonicalBody
  rw [hinjective.eq_iff, ha, hb]
  exact ⟨decode_inj (whole_stringify _).wellFormed (whole_stringify _).wellFormed,
    congrArg decode⟩

/-- The text of a body tells it from another one if and only if the two do not become
the same by what is left out, and so does the interceptor. -/
theorem canonicaliseBody_exact_iff {a b : Json} (ha : Parsed a) (hb : Parsed b) :
    ((canonicaliseBody a = canonicaliseBody b ↔ Same a b) ∧ MismatchExact a b) ↔
      (Same (remains a) (remains b) → Same a b) := by
  have htext := canonicaliseBody_eq_iff ha hb
  constructor
  · rintro ⟨hexact, -⟩ hremains
    exact hexact.mp (htext.mpr hremains)
  · intro hcondition
    have hexact : canonicaliseBody a = canonicaliseBody b ↔ Same a b :=
      htext.trans ⟨hcondition, same_remains⟩
    refine ⟨hexact, ?_⟩
    intro rt seed w hinjective hruns q p k K user header₀ header body₀ body out hkeyed hcarries
      hcarries' hended hfound
    rw [hkeyed.found hruns hended hfound, replay_mismatch_iff, (hkeyed.columns hruns).2.2]
    exact not_congr ((hash_eq_iff hinjective hcarries hcarries').trans hexact)

/-- The members of two bodies in different orders. -/
def sampleMembers : Members :=
  [(text "studentEmail", .string (text "s@x.y")), (text "courseId", .bool true)]

theorem canonicaliseBody_exact_sample :
    ((canonicaliseBody (.object sampleMembers) =
        canonicaliseBody (.object sampleMembers.reverse) ↔
          Same (.object sampleMembers) (.object sampleMembers.reverse)) ∧
      MismatchExact (.object sampleMembers) (.object sampleMembers.reverse)) ↔
    (Same (remains (.object sampleMembers)) (remains (.object sampleMembers.reverse)) →
      Same (.object sampleMembers) (.object sampleMembers.reverse)) := by
  have hvalues : ∀ m ∈ sampleMembers, Parsed m.2 :=
    List.forall_mem_cons.mpr ⟨.string _, List.forall_mem_cons.mpr ⟨.bool true, by simp⟩⟩
  have hreverse : ∀ m ∈ sampleMembers.reverse, Parsed m.2 :=
    fun m hm => hvalues m (List.mem_reverse.mp hm)
  exact canonicaliseBody_exact_iff (.object (by decide) hvalues) (.object (by decide) hreverse)

/-- A member `__proto__` does not count, and a number that is too large is a `null`. -/
theorem canonicaliseBody_lossy :
    ¬ (∀ a b, Parsed a → Parsed b → (canonicaliseBody a = canonicaliseBody b ↔ Same a b)) ∧
      canonicaliseBody (.object [(PROTO, .null)]) = canonicaliseBody (.object []) ∧
        canonicaliseBody (.array [.number (.infinite false)]) =
          canonicaliseBody (.array [.null]) := by
  have hempty : Parsed (.object []) := .object (by decide) (by simp)
  have hproto : Parsed (.object [(PROTO, .null)]) :=
    .object (by decide) (List.forall_mem_cons.mpr ⟨.null, by simp⟩)
  have hlost : canonicaliseBody (.object [(PROTO, .null)]) = canonicaliseBody (.object []) := by
    rw [canonicaliseBody_eq_iff hproto hempty, remains_object, remains_object]
    exact ⟨trivial, List.nil_subset _⟩
  refine ⟨fun hexact => ?_, hlost, ?_⟩
  · obtain ⟨⟨⟨n, hn, -⟩, -⟩, -⟩ := (hexact _ _ hproto hempty).mp hlost
    cases hn
  · have hlarge : Parsed (.array [.number (.infinite false)]) :=
      .array (List.forall_mem_cons.mpr ⟨.number trivial, by simp⟩)
    have hnull : Parsed (.array [.null]) := .array (List.forall_mem_cons.mpr ⟨.null, by simp⟩)
    rw [canonicaliseBody_eq_iff hlarge hnull]
    exact ⟨trivial, trivial⟩

end Mes
