import Mathlib.Tactic

/-!
Machines that take one step for each event. A run is a list of events; every
prefix of a run is a run, so a fact about the last state of every run is a fact
about every state of every run.
-/

namespace Transact

variable {S E : Type} (step : S → E → Option S)

/-- The state after a list of events, if each of them is possible. -/
def follow : S → List E → Option S
  | s, [] => some s
  | s, e :: rest => (step s e).bind fun s' => follow s' rest

/-- Every event of the run happens in a state where `ok` allows it. -/
def Along (ok : S → E → Prop) : S → List E → Prop
  | _, [] => True
  | s, e :: rest => ok s e ∧ ∀ s', step s e = some s' → Along ok s' rest

instance Along.decidable {ok : S → E → Prop} [∀ s e, Decidable (ok s e)] :
    ∀ s es, Decidable (Along step ok s es)
  | _, [] => inferInstanceAs (Decidable True)
  | s, e :: rest =>
      match hstep : step s e with
      | none => decidable_of_iff (ok s e)
          ⟨fun hok => ⟨hok, fun s' hs' => by rw [hstep] at hs'; cases hs'⟩, And.left⟩
      | some s' =>
          have : Decidable (Along step ok s' rest) := Along.decidable s' rest
          decidable_of_iff (ok s e ∧ Along step ok s' rest)
            ⟨fun hboth => ⟨hboth.1, fun s'' hs'' => by
                rw [hstep] at hs''
                rw [← Option.some.inj hs'']
                exact hboth.2⟩,
              fun hboth => ⟨hboth.1, hboth.2 s' hstep⟩⟩

/-- How many events of the run satisfy `p` in the state where they happen. -/
def countAlong (p : S → E → Bool) : S → List E → Nat
  | _, [] => 0
  | s, e :: rest => (p s e).toNat + ((step s e).map fun s' => countAlong p s' rest).getD 0

variable {step}

/-- What every step keeps holds after every run. -/
theorem follow_always {Inv : S → Prop}
    (hkeeps : ∀ s e s', Inv s → step s e = some s' → Inv s') {s s' : S} {es : List E}
    (hinv : Inv s) (hrun : follow step s es = some s') : Inv s' := by
  induction es generalizing s with
  | nil =>
      rw [← Option.some.inj hrun]
      exact hinv
  | cons e rest ih =>
      obtain ⟨mid, hstep, hrest⟩ := Option.bind_eq_some_iff.mp hrun
      exact ih (hkeeps s e mid hinv hstep) hrest

/-- A rank that no step raises, and that every counted event lowers, bounds the number
of counted events. -/
theorem follow_ranked {Inv : S → Prop} {p : S → E → Bool} {rank : S → Nat}
    (hkeeps : ∀ s e s', Inv s → step s e = some s' → Inv s')
    (hlowers : ∀ s e s', Inv s → step s e = some s' → rank s' + (p s e).toNat ≤ rank s)
    {s s' : S} {es : List E} (hinv : Inv s) (hrun : follow step s es = some s') :
    rank s' + countAlong step p s es ≤ rank s := by
  induction es generalizing s with
  | nil =>
      rw [← Option.some.inj hrun]
      exact Nat.le_refl _
  | cons e rest ih =>
      obtain ⟨mid, hstep, hrest⟩ := Option.bind_eq_some_iff.mp hrun
      have htail := ih (hkeeps s e mid hinv hstep) hrest
      have hhead := hlowers s e mid hinv hstep
      simp only [countAlong, hstep, Option.map_some, Option.getD_some]
      omega

/-- Two conditions that agree on every step that is possible agree along every run. -/
theorem Along.congr {ok ok' : S → E → Prop}
    (hagree : ∀ s e s', step s e = some s' → (ok s e ↔ ok' s e)) {s s' : S} {es : List E}
    (hrun : follow step s es = some s') : Along step ok s es ↔ Along step ok' s es := by
  induction es generalizing s with
  | nil => exact Iff.rfl
  | cons e rest ih =>
      obtain ⟨mid, hstep, hrest⟩ := Option.bind_eq_some_iff.mp hrun
      apply and_congr (hagree s e mid hstep)
      apply forall₂_congr
      intro s'' hstep'
      rw [hstep] at hstep'
      rw [← Option.some.inj hstep']
      exact ih hrest

/-- The same under an invariant that the first condition keeps. -/
theorem Along.congr_of_invariant {Inv : S → Prop} {ok ok' : S → E → Prop}
    (hkeeps : ∀ s e s', Inv s → ok s e → step s e = some s' → Inv s')
    (hagree : ∀ s e s', Inv s → step s e = some s' → (ok s e ↔ ok' s e)) {s s' : S}
    {es : List E} (hinv : Inv s) (hrun : follow step s es = some s') :
    Along step ok s es ↔ Along step ok' s es := by
  induction es generalizing s with
  | nil => exact Iff.rfl
  | cons e rest ih =>
      obtain ⟨mid, hstep, hrest⟩ := Option.bind_eq_some_iff.mp hrun
      simp only [Along]
      rw [← hagree s e mid hinv hstep]
      apply and_congr_right
      intro hok
      apply forall₂_congr
      intro s'' hstep'
      rw [hstep] at hstep'
      rw [← Option.some.inj hstep']
      exact ih (hkeeps s e mid hinv hok hstep) hrest

end Transact
