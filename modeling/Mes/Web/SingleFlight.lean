import Mes.Web.EventLoop

/-!
One silent refresh at a time, and no call that asks twice for one. The invariant
ties `inFlightRefresh` to the only refresh whose `finally` handler has not run,
and says of every call what its phase allows it to have sent and awaited. A call
that has not settled depends on one event at a time, and each of these brings it
nearer to its end.
-/

namespace Mes.Web.Spa

open Transact

variable {roleOf : Nat → UserRole}

/-- The `finally` handler of the refresh has run. -/
def isDone (x : Refresh) : Bool :=
  match x.phase with
  | .done _ => true
  | _ => false

/-- What a call may have done by now, given the refreshes there have been. -/
structure Legal (refreshes : List Refresh) (c : Call) : Prop where
  sent : c.sends.length ≤ match c.phase with
    | .fetching => 1
    | .awaiting _ => 1
    | _ => 2
  waited : c.awaited.length ≤ match c.phase with
    | .fetching => 0
    | _ => 1
  expired : c.awaited ≠ [] → ∃ result, c.firstResult = some result ∧ result.isExpired = true
  waiting : ∀ r, c.phase = .awaiting r → c.awaited = [r] ∧ r < refreshes.length
  unseen : ∀ out, c.seen = some out →
    ∃ (r : Nat) (x : Refresh), c.awaited = [r] ∧ refreshes[r]? = some x ∧ x.phase = .done out

structure Network (w : Spa) : Prop where
  single : ∀ (r : Nat) x, w.refreshes[r]? = some x → isDone x = false → w.inFlightRefresh = some r
  flying : ∀ r, w.inFlightRefresh = some r → ∃ x, w.refreshes[r]? = some x ∧ isDone x = false
  calls : ∀ c ∈ w.calls, Legal w.refreshes c

/-- No refresh is lost, and one that is done stays as it is. -/
def Keeps (refreshes refreshes' : List Refresh) : Prop :=
  ∀ (r : Nat) x, refreshes[r]? = some x → ∃ x', refreshes'[r]? = some x' ∧
    ∀ out, x.phase = .done out → x'.phase = .done out

theorem Keeps.refl (refreshes : List Refresh) : Keeps refreshes refreshes :=
  fun _ x hx => ⟨x, hx, fun _ hdone => hdone⟩

theorem Keeps.append (refreshes : List Refresh) (y : Refresh) :
    Keeps refreshes (refreshes ++ [y]) := by
  intro r x hx
  have hlength : r < refreshes.length := (List.getElem?_eq_some_iff.mp hx).1
  exact ⟨x, by rw [List.getElem?_append_left hlength, hx], fun _ hdone => hdone⟩

theorem Keeps.set {refreshes : List Refresh} {r : Nat} {x : Refresh} (y : Refresh)
    (hget : refreshes[r]? = some x) (hopen : ∀ out, x.phase ≠ .done out) :
    Keeps refreshes (refreshes.set r y) := by
  intro r' x' hx'
  by_cases hsame : r = r'
  · subst hsame
    obtain rfl := Option.some.inj (hget.symm.trans hx')
    have hlength : r < refreshes.length := (List.getElem?_eq_some_iff.mp hget).1
    exact ⟨y, by simp [hlength], fun out hdone => absurd hdone (hopen out)⟩
  · exact ⟨x', by rw [List.getElem?_set_ne hsame, hx'], fun _ hdone => hdone⟩

theorem Keeps.length {refreshes refreshes' : List Refresh} (hkeeps : Keeps refreshes refreshes')
    {r : Nat} (hr : r < refreshes.length) : r < refreshes'.length := by
  obtain ⟨x', hx', -⟩ := hkeeps r _ (List.getElem?_eq_getElem hr)
  exact (List.getElem?_eq_some_iff.mp hx').1

theorem Legal.keeps {refreshes refreshes' : List Refresh} {c : Call}
    (hlegal : Legal refreshes c) (hkeeps : Keeps refreshes refreshes') : Legal refreshes' c where
  sent := hlegal.sent
  waited := hlegal.waited
  expired := hlegal.expired
  waiting := fun r hphase =>
    ⟨(hlegal.waiting r hphase).1, hkeeps.length (hlegal.waiting r hphase).2⟩
  unseen := fun out hseen => by
    obtain ⟨r, x, hawaited, hx, hdone⟩ := hlegal.unseen out hseen
    obtain ⟨x', hx', hstays⟩ := hkeeps r x hx
    exact ⟨r, x', hawaited, hx', hstays out hdone⟩

theorem moves_keeps {w w' : Spa} {e : SpaEvent} (hmoves : Moves roleOf w e w') :
    Keeps w.refreshes w'.refreshes := by
  cases hmoves with
  | launched i c result _ hget hphase hresult hnone hcalls hrefreshes hflight =>
      rw [hrefreshes]
      exact Keeps.append _ _
  | responded r x result out _ hget hphase htoken hcalls hrefreshes hflight =>
      rw [hrefreshes]
      apply Keeps.set _ hget
      simp [hphase]
  | released r x out _ hget hphase hcalls hrefreshes hflight =>
      rw [hrefreshes]
      apply Keeps.set _ hget
      simp [hphase]
  | _ =>
      rename_i hrefreshes _
      rw [hrefreshes]
      exact Keeps.refl _

/-- A call that is new or has moved is legal if the others were. -/
theorem legal_set {w w' : Spa} {i : Nat} {c : Call} (hnet : Network w)
    (hkeeps : Keeps w.refreshes w'.refreshes) (hcalls : w'.calls = w.calls.set i c)
    (hlegal : Legal w'.refreshes c) :
    ∀ c' ∈ w'.calls, Legal w'.refreshes c' := by
  intro c' hc'
  rw [hcalls] at hc'
  rcases List.mem_or_eq_of_mem_set hc' with hold | rfl
  · exact (hnet.calls c' hold).keeps hkeeps
  · exact hlegal

theorem Legal.started (refreshes : List Refresh) (endpoint : Endpoint)
    (token : Option AccessToken) (startedAt : Nat) :
    Legal refreshes { endpoint := endpoint, token := token, startedAt := startedAt } where
  sent := by simp
  waited := by simp
  expired := by simp
  waiting := by simp
  unseen := by simp

/-- A call that waited for nothing settles with its first response. -/
theorem Legal.answered {refreshes : List Refresh} {c : Call} (hlegal : Legal refreshes c)
    (hphase : c.phase = .fetching) (result : FetchResult) (out : Settlement) :
    Legal refreshes { c with firstResult := some result, phase := .settled out } := by
  have hsent := hlegal.sent
  have hwaited := hlegal.waited
  simp only [hphase] at hsent hwaited
  have hnone : c.awaited = [] := List.length_eq_zero_iff.mp (by omega)
  constructor
  · simp only
    omega
  · simp [hnone]
  · simp [hnone]
  · simp
  · intro out hseen
    obtain ⟨r, x, hawaited, -, -⟩ := hlegal.unseen out hseen
    rw [hnone] at hawaited
    cases hawaited

/-- A call whose token has expired waits for its first refresh. -/
theorem Legal.joined {refreshes refreshes' : List Refresh} {c : Call}
    (hlegal : Legal refreshes c) (hphase : c.phase = .fetching) {result : FetchResult}
    (hresult : result.isExpired = true) {r : Nat} (hr : r < refreshes'.length) :
    Legal refreshes' { c with
      firstResult := some result, phase := .awaiting r, awaited := c.awaited ++ [r] } := by
  have hsent := hlegal.sent
  have hwaited := hlegal.waited
  simp only [hphase] at hsent hwaited
  have hnone : c.awaited = [] := List.length_eq_zero_iff.mp (by omega)
  constructor
  · exact hsent
  · simp [hnone]
  · intro _
    exact ⟨result, rfl, hresult⟩
  · intro r' hr'
    cases hr'
    exact ⟨by simp [hnone], hr⟩
  · intro out hseen
    obtain ⟨r', x, hawaited, -, -⟩ := hlegal.unseen out hseen
    rw [hnone] at hawaited
    cases hawaited

/-- A call whose refresh is done gives up or sends its request again. -/
theorem Legal.resumed {refreshes : List Refresh} {c : Call} (hlegal : Legal refreshes c) {r : Nat}
    (hphase : c.phase = .awaiting r) {x : Refresh} {out : RefreshOutcome}
    (hrefresh : refreshes[r]? = some x) (hdone : x.phase = .done out) {phase : CallPhase}
    {sends : List (Option AccessToken)} (hsends : sends.length ≤ c.sends.length + 1)
    (hnext : (∃ final, phase = .settled final) ∨ ∃ newToken, phase = .retrying newToken) :
    Legal refreshes { c with seen := some out, phase := phase, sends := sends } := by
  have hsent := hlegal.sent
  have hwaited := hlegal.waited
  simp only [hphase] at hsent hwaited
  have hawaited := (hlegal.waiting r hphase).1
  have hunseen : ∀ out', some out = some out' → ∃ r x, c.awaited = [r] ∧
      refreshes[r]? = some x ∧ x.phase = .done out' := by
    intro out' hseen
    cases hseen
    exact ⟨r, x, hawaited, hrefresh, hdone⟩
  rcases hnext with ⟨final, rfl⟩ | ⟨newToken, rfl⟩
  · exact ⟨by simp only; omega, hwaited, hlegal.expired, by simp, hunseen⟩
  · exact ⟨by simp only; omega, hwaited, hlegal.expired, by simp, hunseen⟩

/-- The answer to a retry settles the call. -/
theorem Legal.retried {refreshes : List Refresh} {c : Call} (hlegal : Legal refreshes c)
    {newToken : AccessToken} (hphase : c.phase = .retrying newToken) (out : Settlement) :
    Legal refreshes { c with phase := .settled out } := by
  have hsent := hlegal.sent
  have hwaited := hlegal.waited
  simp only [hphase] at hsent hwaited
  exact ⟨hsent, hwaited, hlegal.expired, by simp, hlegal.unseen⟩

theorem moves_legal {w w' : Spa} {e : SpaEvent} (hnet : Network w) (hmoves : Moves roleOf w e w') :
    ∀ c ∈ w'.calls, Legal w'.refreshes c := by
  have hkeeps := moves_keeps hmoves
  cases hmoves with
  | started e _ endpoint token hother hcalls hrefreshes hflight =>
      intro c hc
      rw [hcalls] at hc
      rcases List.mem_append.mp hc with hold | hnew
      · exact (hnet.calls c hold).keeps hkeeps
      · rw [List.mem_singleton.mp hnew]
        exact Legal.started _ endpoint token w.epoch
  | elsewhere e _ hother hcalls hrefreshes hflight =>
      intro c hc
      rw [hcalls] at hc
      exact (hnet.calls c hc).keeps hkeeps
  | answered i c result _ hget hphase hserves hresult hcalls hrefreshes hflight =>
      apply legal_set hnet hkeeps hcalls
      exact ((hnet.calls c (List.mem_of_getElem? hget)).keeps hkeeps).answered hphase result _
  | joined i c result r _ hget hphase hresult hsome hcalls hrefreshes hflight =>
      apply legal_set hnet hkeeps hcalls
      obtain ⟨x, hx, -⟩ := hnet.flying r hsome
      have hr : r < w.refreshes.length := (List.getElem?_eq_some_iff.mp hx).1
      exact (hnet.calls c (List.mem_of_getElem? hget)).joined hphase hresult (hkeeps.length hr)
  | launched i c result _ hget hphase hresult hnone hcalls hrefreshes hflight =>
      apply legal_set hnet hkeeps hcalls
      apply (hnet.calls c (List.mem_of_getElem? hget)).joined hphase hresult
      simp [hrefreshes]
  | retried i c newToken result _ hget hphase hserves hcalls hrefreshes hflight =>
      apply legal_set hnet hkeeps hcalls
      exact ((hnet.calls c (List.mem_of_getElem? hget)).keeps hkeeps).retried hphase _
  | responded r x result out _ hget hphase htoken hcalls hrefreshes hflight =>
      intro c hc
      rw [hcalls] at hc
      exact (hnet.calls c hc).keeps hkeeps
  | released r x out _ hget hphase hcalls hrefreshes hflight =>
      intro c hc
      rw [hcalls] at hc
      exact (hnet.calls c hc).keeps hkeeps
  | refused i c r x out final _ hget hphase hrefresh hdone hfinal hcalls hrefreshes hflight =>
      apply legal_set hnet hkeeps hcalls
      apply ((hnet.calls c (List.mem_of_getElem? hget)).keeps hkeeps).resumed hphase
        (hrefreshes ▸ hrefresh) hdone
      · omega
      · exact Or.inl ⟨final, rfl⟩
  | resent i c r x newToken _ hget hphase hrefresh hdone hflag hcalls hrefreshes hflight =>
      apply legal_set hnet hkeeps hcalls
      apply ((hnet.calls c (List.mem_of_getElem? hget)).keeps hkeeps).resumed hphase
        (hrefreshes ▸ hrefresh) hdone
      · simp
      · exact Or.inr ⟨newToken, rfl⟩

/-- `inFlightRefresh` names the refresh that is not done, if there is one. -/
theorem moves_flight {w w' : Spa} {e : SpaEvent} (hnet : Network w)
    (hmoves : Moves roleOf w e w') :
    (∀ (r : Nat) x, w'.refreshes[r]? = some x → isDone x = false →
      w'.inFlightRefresh = some r) ∧
    (∀ r, w'.inFlightRefresh = some r →
      ∃ x, w'.refreshes[r]? = some x ∧ isDone x = false) := by
  cases hmoves with
  | launched i c result _ hget hphase hresult hnone hcalls hrefreshes hflight =>
      rw [hrefreshes, hflight]
      constructor
      · intro r x hx hopen
        by_cases hold : r < w.refreshes.length
        · rw [List.getElem?_append_left hold] at hx
          have hflying := hnet.single r x hx hopen
          rw [hnone] at hflying
          cases hflying
        · have hlength := (List.getElem?_eq_some_iff.mp hx).1
          simp only [List.length_append, List.length_singleton] at hlength
          congr
          omega
      · intro r hr
        rw [← Option.some.inj hr]
        exact ⟨_, List.getElem?_concat_length, rfl⟩
  | responded r x result out _ hget hphase htoken hcalls hrefreshes hflight =>
      have hflying := hnet.single r x hget (by simp [isDone, hphase])
      have hlength : r < w.refreshes.length := (List.getElem?_eq_some_iff.mp hget).1
      rw [hrefreshes, hflight, hflying]
      constructor
      · intro r' x' hx' hopen
        by_cases hsame : r = r'
        · rw [hsame]
        · rw [List.getElem?_set_ne hsame] at hx'
          rw [← hflying]
          exact hnet.single r' x' hx' hopen
      · intro r' hr'
        obtain rfl := Option.some.inj hr'
        exact ⟨_, List.getElem?_set_self hlength, rfl⟩
  | released r x out _ hget hphase hcalls hrefreshes hflight =>
      have hflying := hnet.single r x hget (by simp [isDone, hphase])
      have hlength : r < w.refreshes.length := (List.getElem?_eq_some_iff.mp hget).1
      rw [hrefreshes, hflight]
      constructor
      · intro r' x' hx' hopen
        by_cases hsame : r = r'
        · subst hsame
          simp only [List.getElem?_set, if_true, hlength] at hx'
          rw [← Option.some.inj hx'] at hopen
          cases hopen
        · rw [List.getElem?_set_ne hsame] at hx'
          have hother := hnet.single r' x' hx' hopen
          rw [hflying] at hother
          exact absurd (Option.some.inj hother) hsame
      · intro r' hr'
        cases hr'
  | _ =>
      rename_i hrefreshes hflight
      rw [hrefreshes, hflight]
      exact ⟨hnet.single, hnet.flying⟩

theorem Network.moves {w w' : Spa} {e : SpaEvent} (hnet : Network w)
    (hmoves : Moves roleOf w e w') : Network w' where
  single := (moves_flight hnet hmoves).1
  flying := (moves_flight hnet hmoves).2
  calls := moves_legal hnet hmoves

theorem Network.load (cookie : Option Nat) : Network (Spa.load cookie) where
  single := by simp [Spa.load]
  flying := by simp [Spa.load]
  calls := by simp [Spa.load]

theorem runs_network {cookie : Option Nat} {es : List SpaEvent} {w : Spa}
    (hrun : follow (step roleOf) (load cookie) es = some w) : Network w :=
  follow_always (fun _ _ _ hnet hstep => hnet.moves (step_moves hstep)) (Network.load cookie) hrun

/-- Nothing is requested before the application is mounted. -/
theorem runs_mounted {cookie : Option Nat} {es : List SpaEvent} {w : Spa}
    (hrun : follow (step roleOf) (load cookie) es = some w) :
    w.calls = [] ∨ w.boot = .ready := by
  refine @follow_always _ _ _ (fun w => w.calls = [] ∨ w.boot = .ready) ?_ _ _ _ (Or.inl rfl) hrun
  intro w e w' hmounted hstep
  unfold step at hstep
  split at hstep
  · rename_i hready
    exact Or.inr ((mountedStep_boot hstep).trans hready)
  · rename_i hboot
    rw [bootStep_calls hstep]
    exact Or.inl (hmounted.resolve_right hboot)

section Progress

/-- How many events a call is away from its end at most. -/
def distance (refreshes : List Refresh) : CallPhase → Nat
  | .fetching => 5
  | .awaiting r =>
      match (refreshes[r]?).map Refresh.phase with
      | some .fetching => 4
      | some (.settled _) => 3
      | _ => 2
  | .retrying _ => 1
  | .settled _ => 0

def remaining (w : Spa) (i : Nat) : Nat :=
  ((w.calls[i]?).map fun c => distance w.refreshes c.phase).getD 0

/-- The events that bring the call nearer to its end: the answers to its own
fetches, what becomes of the refresh it waits for, and its resumption. -/
def dependsOn (i : Nat) (w : Spa) : SpaEvent → Bool
  | .response j _ => j == i
  | .resume j => j == i
  | .refreshResponse r _ => (w.calls[i]?).map Call.phase == some (.awaiting r)
  | .refreshFinally r => (w.calls[i]?).map Call.phase == some (.awaiting r)
  | _ => false

theorem dependsOn_of_other {i : Nat} {w : Spa} {e : SpaEvent} (hother : isNetwork e = false) :
    dependsOn i w e = false := by
  cases e with
  | response j result => cases hother
  | resume j => cases hother
  | refreshResponse r result => cases hother
  | refreshFinally r => cases hother
  | _ => rfl

theorem remaining_of_get {w : Spa} {i : Nat} {c : Call} (hget : w.calls[i]? = some c) :
    remaining w i = distance w.refreshes c.phase := by
  simp [remaining, hget]

@[simp] theorem distance_fetching (refreshes : List Refresh) :
    distance refreshes .fetching = 5 := rfl

@[simp] theorem distance_retrying (refreshes : List Refresh) (newToken : AccessToken) :
    distance refreshes (.retrying newToken) = 1 := rfl

@[simp] theorem distance_settled (refreshes : List Refresh) (out : Settlement) :
    distance refreshes (.settled out) = 0 := rfl

theorem distance_awaiting_le (refreshes : List Refresh) (r : Nat) :
    distance refreshes (.awaiting r) ≤ 4 := by
  simp only [distance]
  split <;> omega

theorem distance_of_refresh {refreshes : List Refresh} {r : Nat} {x : Refresh}
    (hget : refreshes[r]? = some x) :
    distance refreshes (.awaiting r) = match x.phase with
      | .fetching => 4
      | .settled _ => 3
      | .done _ => 2 := by
  simp only [distance, hget, Option.map_some]
  cases x.phase <;> rfl

/-- A refresh that is added or moves leaves the distance of other calls as it is. -/
theorem distance_congr {refreshes refreshes' : List Refresh} {phase : CallPhase}
    (hsame : ∀ r, phase = .awaiting r → refreshes'[r]? = refreshes[r]?) :
    distance refreshes' phase = distance refreshes phase := by
  cases phase with
  | awaiting r => simp only [distance, hsame r rfl]
  | fetching => rfl
  | retrying newToken => rfl
  | settled out => rfl

/-- A call that moves is nearer to its end, and no other call is further away. -/
theorem remaining_set {w w' : Spa} {i j : Nat} {c c' : Call} (hget : w.calls[j]? = some c)
    (hcalls : w'.calls = w.calls.set j c')
    (hlower : distance w'.refreshes c'.phase + 1 ≤ distance w.refreshes c.phase)
    (hsame : ∀ c, w.calls[i]? = some c →
      distance w'.refreshes c.phase = distance w.refreshes c.phase) :
    remaining w' i + (j == i).toNat ≤ remaining w i := by
  by_cases hij : j = i
  · subst hij
    have hlength : j < w.calls.length := (List.getElem?_eq_some_iff.mp hget).1
    have hget' : w'.calls[j]? = some c' := by
      rw [hcalls]
      exact List.getElem?_set_self hlength
    rw [remaining_of_get hget, remaining_of_get hget']
    simpa using hlower
  · have hget' : w'.calls[i]? = w.calls[i]? := by
      rw [hcalls, List.getElem?_set_ne hij]
    simp only [remaining, hget']
    cases hc : w.calls[i]? with
    | none => simp [hij]
    | some c => simp [hij, hsame c hc]

/-- A refresh that moves brings the calls that wait for it nearer to their ends. -/
theorem remaining_refresh {w w' : Spa} {i r : Nat} {x' : Refresh} {e : SpaEvent}
    (hcalls : w'.calls = w.calls)
    (hrefreshes : w'.refreshes = w.refreshes.set r x')
    (hlower : distance w'.refreshes (.awaiting r) + 1 ≤ distance w.refreshes (.awaiting r))
    (he : dependsOn i w e = ((w.calls[i]?).map Call.phase == some (.awaiting r))) :
    remaining w' i + (dependsOn i w e).toNat ≤ remaining w i := by
  rw [he]
  simp only [remaining, hcalls]
  cases hc : w.calls[i]? with
  | none => simp
  | some c =>
      by_cases hphase : c.phase = .awaiting r
      · simpa [hphase] using hlower
      · have hsame : distance w'.refreshes c.phase = distance w.refreshes c.phase := by
          apply distance_congr
          intro r' hr'
          rw [hrefreshes]
          apply List.getElem?_set_ne
          rintro rfl
          exact hphase hr'
        simp [hphase, hsame]

theorem moves_remaining {w w' : Spa} {e : SpaEvent} {i : Nat} (hnet : Network w)
    (hi : i < w.calls.length) (hmoves : Moves roleOf w e w') :
    remaining w' i + (dependsOn i w e).toNat ≤ remaining w i := by
  cases hmoves with
  | started e _ endpoint token hother hcalls hrefreshes hflight =>
      rw [dependsOn_of_other hother]
      simp [remaining, hcalls, hrefreshes, List.getElem?_append_left hi]
  | elsewhere e _ hother hcalls hrefreshes hflight =>
      rw [dependsOn_of_other hother]
      simp [remaining, hcalls, hrefreshes]
  | answered j c result _ hget hphase hserves hresult hcalls hrefreshes hflight =>
      apply remaining_set hget hcalls
      · simp [hphase]
      · simp [hrefreshes]
  | joined j c result r _ hget hphase hresult hsome hcalls hrefreshes hflight =>
      apply remaining_set hget hcalls
      · have hnear := distance_awaiting_le w'.refreshes r
        simp only [hphase, distance_fetching]
        omega
      · simp [hrefreshes]
  | launched j c result _ hget hphase hresult hnone hcalls hrefreshes hflight =>
      apply remaining_set hget hcalls
      · have hnear := distance_awaiting_le w'.refreshes w.refreshes.length
        simp only [hphase, distance_fetching]
        omega
      · intro c' hc'
        apply distance_congr
        intro r hr
        rw [hrefreshes]
        have hlegal := hnet.calls c' (List.mem_of_getElem? hc')
        exact List.getElem?_append_left (hlegal.waiting r hr).2
  | retried j c newToken result _ hget hphase hserves hcalls hrefreshes hflight =>
      apply remaining_set hget hcalls
      · simp [hphase]
      · simp [hrefreshes]
  | responded r x result out _ hget hphase htoken hcalls hrefreshes hflight =>
      apply remaining_refresh hcalls hrefreshes _ rfl
      have hlength : r < w.refreshes.length := (List.getElem?_eq_some_iff.mp hget).1
      rw [hrefreshes, distance_of_refresh hget,
        distance_of_refresh (List.getElem?_set_self hlength)]
      simp [hphase]
  | released r x out _ hget hphase hcalls hrefreshes hflight =>
      apply remaining_refresh hcalls hrefreshes _ rfl
      have hlength : r < w.refreshes.length := (List.getElem?_eq_some_iff.mp hget).1
      rw [hrefreshes, distance_of_refresh hget,
        distance_of_refresh (List.getElem?_set_self hlength)]
      simp [hphase]
  | refused j c r x out final _ hget hphase hrefresh hdone hfinal hcalls hrefreshes hflight =>
      apply remaining_set hget hcalls
      · simp [hphase, distance_of_refresh hrefresh, hdone]
      · simp [hrefreshes]
  | resent j c r x newToken _ hget hphase hrefresh hdone hflag hcalls hrefreshes hflight =>
      apply remaining_set hget hcalls
      · simp [hphase, distance_of_refresh hrefresh, hdone]
      · simp [hrefreshes]

theorem moves_calls_length {w w' : Spa} {e : SpaEvent} (hmoves : Moves roleOf w e w') :
    w.calls.length ≤ w'.calls.length := by
  cases hmoves with
  | started e _ endpoint token hother hcalls hrefreshes hflight => simp [hcalls]
  | _ =>
      rename_i hcalls _ _
      simp [hcalls]

/-- Whether the call waits for an answer of the server. -/
def waitsForFetch (w : Spa) (c : Call) : Bool :=
  match c.phase with
  | .fetching => true
  | .retrying _ => true
  | .awaiting r => (w.refreshes[r]?).any fun x => x.phase == .fetching
  | .settled _ => false

/-- The events that the event loop brings about by itself. -/
def isMicrotask : SpaEvent → Bool
  | .refreshFinally _ => true
  | .resume _ => true
  | _ => false

/-- A call that waits for no fetch has settled or is about to be moved on. -/
theorem Network.progress {w : Spa} (hnet : Network w) (hready : w.boot = .ready) {i : Nat}
    {c : Call} (hget : w.calls[i]? = some c) (hwaits : waitsForFetch w c = false) :
    (∃ out, c.phase = .settled out) ∨
      ∃ e, isMicrotask e = true ∧ dependsOn i w e = true ∧ (step roleOf w e).isSome = true := by
  cases hphase : c.phase with
  | fetching => simp [waitsForFetch, hphase] at hwaits
  | retrying newToken => simp [waitsForFetch, hphase] at hwaits
  | settled out => exact Or.inl ⟨out, rfl⟩
  | awaiting r =>
      have hlength := ((hnet.calls c (List.mem_of_getElem? hget)).waiting r hphase).2
      have hx := List.getElem?_eq_getElem hlength
      cases hxphase : (w.refreshes[r]).phase with
      | fetching => simp [waitsForFetch, hphase, hx, hxphase] at hwaits
      | settled out =>
          refine Or.inr ⟨.refreshFinally r, rfl, ?_, ?_⟩
          · simp [dependsOn, hget, hphase]
          · simp [step, hready, mountedStep, finishRefresh, hx, hxphase]
      | done out =>
          refine Or.inr ⟨.resume i, rfl, ?_, ?_⟩
          · simp [dependsOn]
          · simp [step, hready, mountedStep, resumeCall, hget, hphase, hx, hxphase]

/-- After five events that a call depends on it has settled. -/
theorem Network.settles {w w' : Spa} (hnet : Network w) {i : Nat} (hi : i < w.calls.length)
    {es : List SpaEvent} (hrun : follow (step roleOf) w es = some w')
    (hcount : 5 ≤ countAlong (step roleOf) (dependsOn i) w es) :
    ∃ c out, w'.calls[i]? = some c ∧ c.phase = .settled out := by
  have hstays : Network w' ∧ i < w'.calls.length := by
    refine @follow_always _ _ _ (fun w => Network w ∧ i < w.calls.length) ?_ _ _ _ ⟨hnet, hi⟩ hrun
    intro w e w' hboth hstep
    have hmoves := step_moves hstep
    exact ⟨hboth.1.moves hmoves, hboth.2.trans_le (moves_calls_length hmoves)⟩
  have hrank : remaining w' i + countAlong (step roleOf) (dependsOn i) w es ≤ remaining w i := by
    refine @follow_ranked _ _ _ (fun w => Network w ∧ i < w.calls.length) _ (remaining · i)
      ?_ ?_ _ _ _ ⟨hnet, hi⟩ hrun
    · intro w e w' hboth hstep
      have hmoves := step_moves hstep
      exact ⟨hboth.1.moves hmoves, hboth.2.trans_le (moves_calls_length hmoves)⟩
    · intro w e w' hboth hstep
      exact moves_remaining hboth.1 hboth.2 (step_moves hstep)
  have hstart : remaining w i ≤ 5 := by
    rw [remaining_of_get (List.getElem?_eq_getElem hi)]
    cases (w.calls[i]).phase with
    | awaiting r =>
        have hnear := distance_awaiting_le w.refreshes r
        omega
    | fetching => simp
    | retrying newToken => simp
    | settled out => simp
  have hget := List.getElem?_eq_getElem hstays.2
  have hzero : distance w'.refreshes (w'.calls[i]).phase = 0 := by
    rw [← remaining_of_get hget]
    omega
  cases hphase : (w'.calls[i]).phase with
  | settled out => exact ⟨_, out, hget, hphase⟩
  | fetching => simp [hphase] at hzero
  | retrying newToken => simp [hphase] at hzero
  | awaiting r =>
      rw [hphase] at hzero
      simp only [distance] at hzero
      split at hzero <;> cases hzero

end Progress

/-- What holds of the calls of a tab and of the refreshes that they share. -/
structure SingleFlight (roleOf : Nat → UserRole) (w : Spa) : Prop where
  /-- At most one refresh waits for its response. -/
  single : ∀ (r r' : Nat) x x', w.refreshes[r]? = some x → w.refreshes[r']? = some x' →
    x.phase = .fetching → x'.phase = .fetching → r = r'
  /-- A call sends its request at most twice and awaits at most one refresh, and only
  after its first response has told it that the token has expired. -/
  bounded : ∀ c ∈ w.calls, c.sends.length ≤ 2 ∧ c.awaited.length ≤ 1 ∧
    (c.awaited ≠ [] → ∃ result, c.firstResult = some result ∧ result.isExpired = true)
  /-- Whatever a retry is answered, no refresh is started or joined. -/
  final : ∀ (i : Nat) c newToken result w', w.calls[i]? = some c → c.phase = .retrying newToken →
    step roleOf w (.response i result) = some w' →
    w'.refreshes = w.refreshes ∧ w'.inFlightRefresh = w.inFlightRefresh ∧
      ∃ out, w'.calls[i]? = some { c with phase := .settled out }
  /-- Calls that waited for the same refresh have seen the same. -/
  shared : ∀ c ∈ w.calls, ∀ c' ∈ w.calls, ∀ r out out', r ∈ c.awaited → r ∈ c'.awaited →
    c.seen = some out → c'.seen = some out' → out = out'
  /-- A call that waits for no fetch has settled or is about to be moved on. -/
  progress : ∀ (i : Nat) c, w.calls[i]? = some c → waitsForFetch w c = false →
    (∃ out, c.phase = .settled out) ∨
      ∃ e, isMicrotask e = true ∧ dependsOn i w e = true ∧ (step roleOf w e).isSome = true
  /-- No more than five events can move a call on before it has settled. -/
  settles : ∀ i es w', i < w.calls.length → follow (step roleOf) w es = some w' →
    5 ≤ countAlong (step roleOf) (dependsOn i) w es →
    ∃ c out, w'.calls[i]? = some c ∧ c.phase = .settled out

theorem Network.retry_final {w w' : Spa} {i : Nat} {c : Call} {newToken : AccessToken}
    {result : FetchResult} (hget : w.calls[i]? = some c) (hphase : c.phase = .retrying newToken)
    (hstep : step roleOf w (.response i result) = some w') :
    w'.refreshes = w.refreshes ∧ w'.inFlightRefresh = w.inFlightRefresh ∧
      ∃ out, w'.calls[i]? = some { c with phase := .settled out } := by
  have hlength : i < w.calls.length := (List.getElem?_eq_some_iff.mp hget).1
  cases step_moves hstep with
  | started e _ endpoint token hother hcalls hrefreshes hflight => cases hother
  | elsewhere e _ hother hcalls hrefreshes hflight => cases hother
  | retried _ c' newToken' _ _ hget' hphase' hserves hcalls hrefreshes hflight =>
      obtain rfl := Option.some.inj (hget.symm.trans hget')
      refine ⟨hrefreshes, hflight, settled result, ?_⟩
      rw [hcalls]
      exact List.getElem?_set_self hlength
  | answered _ c' _ _ hget' hphase' =>
      obtain rfl := Option.some.inj (hget.symm.trans hget')
      cases hphase.symm.trans hphase'
  | joined _ c' _ r _ hget' hphase' =>
      obtain rfl := Option.some.inj (hget.symm.trans hget')
      cases hphase.symm.trans hphase'
  | launched _ c' _ _ hget' hphase' =>
      obtain rfl := Option.some.inj (hget.symm.trans hget')
      cases hphase.symm.trans hphase'

/-- Whatever the tab has been through. -/
theorem single_flight (cookie : Option Nat) (es : List SpaEvent) (w : Spa)
    (hrun : follow (step roleOf) (load cookie) es = some w) : SingleFlight roleOf w := by
  have hnet := runs_network hrun
  refine ⟨?_, ?_, ?_, ?_, ?_, ?_⟩
  · intro r r' x x' hx hx' hphase hphase'
    have hr := hnet.single r x hx (by simp [isDone, hphase])
    have hr' := hnet.single r' x' hx' (by simp [isDone, hphase'])
    exact Option.some.inj (hr.symm.trans hr')
  · intro c hc
    have hlegal := hnet.calls c hc
    refine ⟨hlegal.sent.trans ?_, hlegal.waited.trans ?_, hlegal.expired⟩
    · split <;> omega
    · split <;> omega
  · intro i c newToken result w' hget hphase hstep
    exact Network.retry_final hget hphase hstep
  · intro c hc c' hc' r out out' hr hr' hseen hseen'
    obtain ⟨q, x, hawaited, hx, hdone⟩ := (hnet.calls c hc).unseen out hseen
    obtain ⟨q', x', hawaited', hx', hdone'⟩ := (hnet.calls c' hc').unseen out' hseen'
    rw [hawaited, List.mem_singleton] at hr
    rw [hawaited', List.mem_singleton] at hr'
    subst hr hr'
    obtain rfl := Option.some.inj (hx.symm.trans hx')
    exact RefreshPhase.done.inj (hdone.symm.trans hdone')
  · intro i c hget hwaits
    rcases runs_mounted hrun with hnone | hready
    · simp [hnone] at hget
    · exact hnet.progress hready hget hwaits
  · intro i es' w' hi hrun' hcount
    exact hnet.settles hi hrun' hcount

section Sample

/-- Two requests find the token expired and wait for one refresh. -/
def sampleFlight : List SpaEvent :=
  sampleBoot ++
    [.request "/purchases" (some (sampleToken 1 0)), .request "/courses" (some (sampleToken 1 0)),
      .response 0 (.error 401 AUTH_TOKEN_EXPIRED), .response 1 (.error 401 AUTH_TOKEN_EXPIRED),
      .refreshResponse 0 (.ok (sampleToken 1 1)), .refreshFinally 0, .resume 0, .resume 1,
      .response 1 (.ok .data)]

theorem sample_single_flight :
    ∃ w, follow (step sampleRoleOf) (load (some 1)) sampleFlight = some w ∧
      (w.refreshes.length = 1 ∧ w.calls.map Call.awaited = [[0], [0]] ∧
        w.calls.map Call.phase =
          [.retrying (sampleToken 1 1), .settled (.resolved .data)]) ∧
      SingleFlight sampleRoleOf w := by
  have hrun : (follow (step sampleRoleOf) (load (some 1)) sampleFlight).any
      (fun w => decide (w.refreshes.length = 1 ∧ w.calls.map Call.awaited = [[0], [0]] ∧
        w.calls.map Call.phase =
          [.retrying (sampleToken 1 1), .settled (.resolved .data)])) = true := by decide
  obtain ⟨w, hw, hshape⟩ := (Option.any_eq_true _ _).mp hrun
  exact ⟨w, hw, of_decide_eq_true hshape, single_flight _ _ w hw⟩

end Sample

end Mes.Web.Spa
