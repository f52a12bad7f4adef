import Mes.Web.EventLoop

/-!
Whose session a tab shows. The store keeps the token and the user's data apart,
and a refresh answers for the cookie it was sent with, which a redemption does
not set and another tab may change. The identity of the store and of a retried
request survives exactly the refreshes that were sent with the cookie of the
user in question.
-/

namespace Mes.Web.Spa

open Transact

variable {roleOf : Nat → UserRole}

/-- What pages see is the session of the token they see, and a request is sent
again only for the user it was first sent for. -/
structure Identified (w : Spa) : Prop where
  cached : ∀ state, w.store.getState = some state →
    state.userId = state.accessToken.sub ∧ state.role = state.accessToken.role
  resent : ∀ c ∈ w.calls, ∀ first again, c.sends = [some first, some again] →
    again.sub = first.sub

/-- A call about to be sent again: the session of its refresh, and its first token. -/
def retries (w : Spa) (i : Nat) : Option (Option Nat × AccessToken) :=
  match w.calls[i]? with
  | none => none
  | some c =>
      match c.phase, c.token with
      | .awaiting r, some token =>
          match w.refreshes[r]? with
          | none => none
          | some x =>
              match x.phase with
              | .done (.token _) => some (x.session, token)
              | _ => none
      | _, _ => none

/-- A refresh that is used was sent with the cookie of the user it is used for: the
user in the store, and the user of a call that is sent again. -/
def SameSession (w : Spa) : SpaEvent → Prop
  | .refreshResponse r (.ok _) => w.store.isLoggingOut = true ∨
      ∀ user ∈ w.store.storedUser, ∀ x ∈ w.refreshes[r]?, x.session = some user.userId
  | .resume i => w.store.isLoggingOut = true ∨
      ∀ retry ∈ w.retries i, retry.1 = some retry.2.sub
  | _ => True

instance (w : Spa) (e : SpaEvent) : Decidable (w.SameSession e) :=
  match e with
  | .refreshResponse _ (.ok _) => inferInstanceAs (Decidable (_ ∨ _))
  | .refreshResponse _ (.error _) => inferInstanceAs (Decidable True)
  | .refreshResponse _ .failed => inferInstanceAs (Decidable True)
  | .resume _ => inferInstanceAs (Decidable (_ ∨ _))
  | .response _ _ => inferInstanceAs (Decidable True)
  | .pageResume _ => inferInstanceAs (Decidable True)
  | .request _ _ => inferInstanceAs (Decidable True)
  | .refreshFinally _ => inferInstanceAs (Decidable True)
  | .submitLogin => inferInstanceAs (Decidable True)
  | .submitSignup => inferInstanceAs (Decidable True)
  | .submitRedeem _ => inferInstanceAs (Decidable True)
  | .logoutClick => inferInstanceAs (Decidable True)
  | .logoutFinally => inferInstanceAs (Decidable True)
  | .cookieChange _ => inferInstanceAs (Decidable True)
  | .bootRefresh _ => inferInstanceAs (Decidable True)
  | .bootProfile _ => inferInstanceAs (Decidable True)

/-- The user's data are those that the server has of the user of the token. -/
structure StoreOk (roleOf : Nat → UserRole) (store : AuthStore) : Prop where
  consistent : store.Consistent
  role : ∀ user, store.storedUser = some user → user.role = roleOf user.userId

/-- What a call has sent, and what it has been answered. -/
structure Faithful (roleOf : Nat → UserRole) (c : Call) : Prop where
  sends : match c.phase with
    | .fetching => c.sends = [c.token]
    | .awaiting _ => c.sends = [c.token]
    | .retrying newToken => c.sends = [c.token, some newToken]
    | .settled _ => True
  same : ∀ first again, c.sends = [some first, some again] → again.sub = first.sub
  retry : ∀ newToken token, c.phase = .retrying newToken → c.token = some token →
    newToken.sub = token.sub
  profile : ∀ user token, c.phase = .settled (.resolved (.profile user)) →
    c.token = some token → user.userId = token.sub ∧ user.role = roleOf user.userId
  token : ∀ token, c.phase = .settled (.resolved (.token token)) → issued roleOf token = true

/-- A refresh that has brought a token answers for the session it was sent with. -/
def Honest (roleOf : Nat → UserRole) (x : Refresh) : Prop :=
  ∀ token, x.phase = .settled (.token token) ∨ x.phase = .done (.token token) →
    x.session = some token.sub ∧ issued roleOf token = true

/-- A page that loads a profile does so with a token of its own. -/
def PageOk (roleOf : Nat → UserRole) (calls : List Call) : Page → Prop
  | .profile call accessToken => issued roleOf accessToken = true ∧
      ∃ c, calls[call]? = some c ∧ c.token = some accessToken
  | _ => True

def BootOk (roleOf : Nat → UserRole) (store : AuthStore) : Boot → Prop
  | .refreshing _ => store.storedUser = none
  | .loadingProfile accessToken =>
      store.memoryToken = some accessToken ∧ issued roleOf accessToken = true
  | .ready => True

structure Identity (roleOf : Nat → UserRole) (w : Spa) : Prop where
  calls : ∀ c ∈ w.calls, Faithful roleOf c
  refreshes : ∀ x ∈ w.refreshes, Honest roleOf x
  store : StoreOk roleOf w.store
  pages : ∀ page ∈ w.pages, PageOk roleOf w.calls page
  boot : BootOk roleOf w.store w.boot

theorem Identity.identified {w : Spa} (hidentity : Identity roleOf w) : Identified w where
  cached := fun _ hstate => hidentity.store.consistent.cached hstate
  resent := fun c hc => (hidentity.calls c hc).same

theorem role_of_issued {token : AccessToken} (hissued : issued roleOf token = true) :
    token.role = roleOf token.sub := by
  simpa [issued] using hissued

section Store

theorem StoreOk.clear (store : AuthStore) : StoreOk roleOf store.clear where
  consistent := fun _ _ htoken _ => by cases htoken
  role := fun _ huser => by cases huser

theorem StoreOk.setIsLoggingOut {store : AuthStore} (hstore : StoreOk roleOf store)
    (value : Bool) : StoreOk roleOf (store.setIsLoggingOut value) where
  consistent := hstore.consistent
  role := hstore.role

/-- A token of the user in the store may replace the one that is there. -/
theorem StoreOk.setToken {store : AuthStore} (hstore : StoreOk roleOf store)
    {token : AccessToken} (hissued : issued roleOf token = true)
    (hsame : ∀ user, store.storedUser = some user → user.userId = token.sub) :
    StoreOk roleOf (store.setToken token) where
  consistent := fun token' user htoken huser => by
    cases htoken
    have hid := hsame user huser
    refine ⟨hid, ?_⟩
    rw [hstore.role user huser, role_of_issued hissued, hid]
  role := hstore.role

theorem StoreOk.setState {next : AuthState} (hissued : issued roleOf next.accessToken = true)
    (hid : next.userId = next.accessToken.sub) (hrole : next.role = roleOf next.userId) :
    StoreOk roleOf (AuthStore.setState next) where
  consistent := fun token user htoken huser => by
    cases htoken
    cases huser
    exact ⟨hid, by rw [hrole, role_of_issued hissued, hid]⟩
  role := fun user huser => by
    cases huser
    exact hrole

theorem StoreOk.setUser {store : AuthStore} {token : AccessToken} {user : StoredUser}
    (htoken : store.memoryToken = some token) (hissued : issued roleOf token = true)
    (hid : user.userId = token.sub) (hrole : user.role = roleOf user.userId) :
    StoreOk roleOf (store.setUser user) where
  consistent := fun token' user' htoken' huser' => by
    cases htoken.symm.trans htoken'
    cases huser'
    exact ⟨hid, by rw [hrole, role_of_issued hissued, hid]⟩
  role := fun user' huser' => by
    cases huser'
    exact hrole

end Store

section Calls

theorem Faithful.started (endpoint : Endpoint) (token : Option AccessToken) (startedAt : Nat) :
    Faithful roleOf { endpoint := endpoint, token := token, startedAt := startedAt } where
  sends := rfl
  same := by simp
  retry := by simp
  profile := by simp
  token := by simp

theorem settled_profile {result : FetchResult} {user : StoredUser}
    (hout : settled result = .resolved (.profile user)) : result = .ok (.profile user) := by
  cases result with
  | ok body =>
      cases hout
      rfl
  | error status code => cases hout
  | failed => cases hout

theorem settled_token {result : FetchResult} {token : AccessToken}
    (hout : settled result = .resolved (.token token)) : result = .ok (.token token) := by
  cases result with
  | ok body =>
      cases hout
      rfl
  | error status code => cases hout
  | failed => cases hout

/-- A profile is that of the user of the token it was asked for with. -/
theorem serves_profile {endpoint : Endpoint} {token : AccessToken} {user : StoredUser}
    (hserves : serves roleOf endpoint (some token) (.ok (.profile user)) = true) :
    user.userId = token.sub ∧ user.role = roleOf user.userId := by
  simp only [serves, Option.any_some, Bool.and_eq_true, beq_iff_eq] at hserves
  exact ⟨hserves.1.2, hserves.2⟩

theorem serves_token {endpoint : Endpoint} {sent : Option AccessToken} {token : AccessToken}
    (hserves : serves roleOf endpoint sent (.ok (.token token)) = true) :
    issued roleOf token = true := by
  simp only [serves, Bool.and_eq_true] at hserves
  exact hserves.2

/-- The answer to the fetch of a call settles it. -/
theorem Faithful.answered {c : Call} (hfaithful : Faithful roleOf c) {sent : Option AccessToken}
    {result : FetchResult} {first : Option FetchResult}
    (hsent : ∀ token, c.token = some token → ∃ t, sent = some t ∧ t.sub = token.sub)
    (hserves : serves roleOf c.endpoint sent result = true) :
    Faithful roleOf { c with firstResult := first, phase := .settled (settled result) } where
  sends := trivial
  same := hfaithful.same
  retry := by simp
  profile := fun user token hphase htoken => by
    obtain ⟨t, rfl, hsub⟩ := hsent token htoken
    rw [settled_profile (CallPhase.settled.inj hphase)] at hserves
    rw [← hsub]
    exact serves_profile hserves
  token := fun token hphase => by
    rw [settled_token (CallPhase.settled.inj hphase)] at hserves
    exact serves_token hserves

theorem Faithful.awaiting {c : Call} (hfaithful : Faithful roleOf c) (hphase : c.phase = .fetching)
    (first : Option FetchResult) (r : Nat) (awaited : List Nat) :
    Faithful roleOf { c with firstResult := first, phase := .awaiting r, awaited := awaited } where
  sends := by simpa [hphase] using hfaithful.sends
  same := hfaithful.same
  retry := by simp
  profile := by simp
  token := by simp

theorem Faithful.refused {c : Call} (hfaithful : Faithful roleOf c) (seen : Option RefreshOutcome)
    {final : Settlement} (hfinal : ∀ body, final ≠ .resolved body) :
    Faithful roleOf { c with seen := seen, phase := .settled final } where
  sends := trivial
  same := hfaithful.same
  retry := by simp
  profile := fun user _ hphase _ => absurd (CallPhase.settled.inj hphase) (hfinal _)
  token := fun token hphase => absurd (CallPhase.settled.inj hphase) (hfinal _)

theorem Faithful.resent {c : Call} (hfaithful : Faithful roleOf c) {r : Nat}
    (hphase : c.phase = .awaiting r) (seen : Option RefreshOutcome) {newToken : AccessToken}
    (hsame : ∀ token, c.token = some token → newToken.sub = token.sub) :
    Faithful roleOf { c with
      seen := seen, phase := .retrying newToken, sends := c.sends ++ [some newToken] } := by
  have hsends := hfaithful.sends
  simp only [hphase] at hsends
  constructor
  · simp [hsends]
  · intro first again hboth
    simp only [hsends, List.singleton_append, List.cons.injEq, Option.some.injEq, and_true]
      at hboth
    rw [← hboth.2]
    exact hsame first hboth.1
  · intro newToken' token hphase' htoken
    cases hphase'
    exact hsame token htoken
  · simp
  · simp

end Calls

section Steps

variable {w w' : Spa}

theorem faithful_set (hcalls : ∀ c ∈ w.calls, Faithful roleOf c) {i : Nat} {c : Call}
    (hset : w'.calls = w.calls.set i c) (hfaithful : Faithful roleOf c) :
    ∀ c' ∈ w'.calls, Faithful roleOf c' := by
  intro c' hc'
  rw [hset] at hc'
  rcases List.mem_or_eq_of_mem_set hc' with hold | rfl
  · exact hcalls c' hold
  · exact hfaithful

theorem retries_eq {i r : Nat} {c : Call} {x : Refresh} {newToken token : AccessToken}
    (hget : w.calls[i]? = some c) (hphase : c.phase = .awaiting r)
    (hrefresh : w.refreshes[r]? = some x) (hdone : x.phase = .done (.token newToken))
    (htoken : c.token = some token) : w.retries i = some (x.session, token) := by
  simp [retries, hget, hphase, hrefresh, hdone, htoken]

theorem moves_faithful {e : SpaEvent} (hidentity : Identity roleOf w) (hsame : w.SameSession e)
    (hmoves : Moves roleOf w e w') : ∀ c ∈ w'.calls, Faithful roleOf c := by
  have hcalls' := hidentity.calls
  cases hmoves with
  | started e _ endpoint token hother hcalls hrefreshes hflight =>
      intro c hc
      rw [hcalls] at hc
      rcases List.mem_append.mp hc with hold | hnew
      · exact hcalls' c hold
      · rw [List.mem_singleton.mp hnew]
        exact Faithful.started endpoint token w.epoch
  | elsewhere e _ hother hcalls hrefreshes hflight =>
      rw [hcalls]
      exact hcalls'
  | answered i c result _ hget hphase hserves hresult hcalls hrefreshes hflight =>
      apply faithful_set hcalls' hcalls
      apply (hcalls' c (List.mem_of_getElem? hget)).answered _ hserves
      intro token htoken
      exact ⟨token, htoken, rfl⟩
  | joined i c result r _ hget hphase hresult hsome hcalls hrefreshes hflight =>
      apply faithful_set hcalls' hcalls
      exact (hcalls' c (List.mem_of_getElem? hget)).awaiting hphase _ _ _
  | launched i c result _ hget hphase hresult hnone hcalls hrefreshes hflight =>
      apply faithful_set hcalls' hcalls
      exact (hcalls' c (List.mem_of_getElem? hget)).awaiting hphase _ _ _
  | retried i c newToken result _ hget hphase hserves hcalls hrefreshes hflight =>
      apply faithful_set hcalls' hcalls
      have hfaithful := hcalls' c (List.mem_of_getElem? hget)
      apply hfaithful.answered _ hserves
      intro token htoken
      exact ⟨newToken, rfl, hfaithful.retry newToken token hphase htoken⟩
  | responded r x result out _ hget hphase htoken hcalls hrefreshes hflight =>
      rw [hcalls]
      exact hcalls'
  | released r x out _ hget hphase hcalls hrefreshes hflight =>
      rw [hcalls]
      exact hcalls'
  | refused i c r x out final _ hget hphase hrefresh hdone hfinal hcalls hrefreshes hflight =>
      apply faithful_set hcalls' hcalls
      exact (hcalls' c (List.mem_of_getElem? hget)).refused _ hfinal
  | resent i c r x newToken _ hget hphase hrefresh hdone hflag hcalls hrefreshes hflight =>
      apply faithful_set hcalls' hcalls
      apply (hcalls' c (List.mem_of_getElem? hget)).resent hphase
      intro token htoken
      have hsession := (hidentity.refreshes x (List.mem_of_getElem? hrefresh) newToken
        (Or.inr hdone)).1
      have hretry := (hsame.resolve_left (by simp [hflag])) _
        (retries_eq hget hphase hrefresh hdone htoken)
      exact Option.some.inj (hsession.symm.trans hretry)

theorem moves_honest {e : SpaEvent} (hhonest : ∀ x ∈ w.refreshes, Honest roleOf x)
    (hmoves : Moves roleOf w e w') : ∀ x ∈ w'.refreshes, Honest roleOf x := by
  cases hmoves with
  | launched i c result _ hget hphase hresult hnone hcalls hrefreshes hflight =>
      intro x hx
      rw [hrefreshes] at hx
      rcases List.mem_append.mp hx with hold | hnew
      · exact hhonest x hold
      · rw [List.mem_singleton.mp hnew]
        intro token htoken
        rcases htoken with htoken | htoken
        · cases htoken
        · cases htoken
  | responded r x result out _ hget hphase htoken hcalls hrefreshes hflight =>
      intro x' hx'
      rw [hrefreshes] at hx'
      rcases List.mem_or_eq_of_mem_set hx' with hold | rfl
      · exact hhonest x' hold
      · intro token hout
        rcases hout with hout | hout
        · exact htoken token (RefreshPhase.settled.inj hout)
        · cases hout
  | released r x out _ hget hphase hcalls hrefreshes hflight =>
      intro x' hx'
      rw [hrefreshes] at hx'
      rcases List.mem_or_eq_of_mem_set hx' with hold | rfl
      · exact hhonest x' hold
      · intro token hout
        rcases hout with hout | hout
        · cases hout
        · rw [RefreshPhase.done.inj hout] at hphase
          exact hhonest x (List.mem_of_getElem? hget) token (Or.inl hphase)
  | _ =>
      rename_i hrefreshes _
      rw [hrefreshes]
      exact hhonest

/-- A call keeps the token it was started with. -/
theorem moves_token {e : SpaEvent} (hmoves : Moves roleOf w e w') {i : Nat} {c : Call}
    (hget : w.calls[i]? = some c) : ∃ c', w'.calls[i]? = some c' ∧ c'.token = c.token := by
  have hlength : i < w.calls.length := (List.getElem?_eq_some_iff.mp hget).1
  have hset : ∀ {j : Nat} {c₀ c₁ : Call}, w.calls[j]? = some c₀ →
      w'.calls = w.calls.set j c₁ → c₁.token = c₀.token →
        ∃ c', w'.calls[i]? = some c' ∧ c'.token = c.token := by
    intro j c₀ c₁ hj hcalls htoken
    by_cases hsame : j = i
    · subst hsame
      obtain rfl := Option.some.inj (hget.symm.trans hj)
      exact ⟨c₁, by rw [hcalls, List.getElem?_set_self hlength], htoken⟩
    · exact ⟨c, by rw [hcalls, List.getElem?_set_ne hsame, hget], rfl⟩
  cases hmoves with
  | started e _ endpoint token hother hcalls hrefreshes hflight =>
      exact ⟨c, by rw [hcalls, List.getElem?_append_left hlength, hget], rfl⟩
  | elsewhere e _ hother hcalls hrefreshes hflight => exact ⟨c, by rw [hcalls, hget], rfl⟩
  | responded r x result out _ hx hphase htoken hcalls hrefreshes hflight =>
      exact ⟨c, by rw [hcalls, hget], rfl⟩
  | released r x out _ hx hphase hcalls hrefreshes hflight =>
      exact ⟨c, by rw [hcalls, hget], rfl⟩
  | answered j c₀ result _ hj hphase hserves hresult hcalls => exact hset hj hcalls rfl
  | joined j c₀ result r _ hj hphase hresult hsome hcalls => exact hset hj hcalls rfl
  | launched j c₀ result _ hj hphase hresult hnone hcalls => exact hset hj hcalls rfl
  | retried j c₀ newToken result _ hj hphase hserves hcalls => exact hset hj hcalls rfl
  | refused j c₀ r x out final _ hj hphase hrefresh hdone hfinal hcalls =>
      exact hset hj hcalls rfl
  | resent j c₀ r x newToken _ hj hphase hrefresh hdone hflag hcalls => exact hset hj hcalls rfl

theorem PageOk.moves {e : SpaEvent} (hmoves : Moves roleOf w e w') {page : Page}
    (hpage : PageOk roleOf w.calls page) : PageOk roleOf w'.calls page := by
  cases page with
  | profile call accessToken =>
      obtain ⟨hissued, c, hget, htoken⟩ := hpage
      obtain ⟨c', hget', hsame⟩ := moves_token hmoves hget
      exact ⟨hissued, c', hget', hsame.trans htoken⟩
  | signIn call => trivial
  | redeem call studentEmail => trivial
  | finished => trivial

/-- A settled call, with what it was answered. -/
theorem settlement_eq_some {call : Nat} {out : Settlement} (hout : w.settlement call = some out) :
    ∃ c, w.calls[call]? = some c ∧ c.phase = .settled out := by
  unfold settlement at hout
  split at hout
  · rename_i out' hphase
    obtain ⟨c, hget, hc⟩ := Option.map_eq_some_iff.mp hphase
    exact ⟨c, hget, by rw [hc, Option.some.inj hout]⟩
  · cases hout

/-- What a page puts into the store is of one user. -/
theorem adopted_ok (hidentity : Identity roleOf w) {page : Nat} {next : AuthState}
    (hadopted : w.adopted page = some next) : StoreOk roleOf (AuthStore.setState next) := by
  unfold adopted at hadopted
  split at hadopted
  · rename_i call accessToken hpage
    split at hadopted
    · rename_i user hout
      obtain rfl := Option.some.inj hadopted
      obtain ⟨hissued, c, hget, htoken⟩ := hidentity.pages _ (List.mem_of_getElem? hpage)
      obtain ⟨c', hget', hphase⟩ := settlement_eq_some hout
      obtain rfl := Option.some.inj (hget.symm.trans hget')
      have huser := (hidentity.calls c (List.mem_of_getElem? hget)).profile user accessToken
        hphase htoken
      exact StoreOk.setState hissued huser.1 huser.2
    · cases hadopted
  · split at hadopted
    · rename_i accessToken hout
      obtain rfl := Option.some.inj hadopted
      obtain ⟨c, hget, hphase⟩ := settlement_eq_some hout
      have hissued := (hidentity.calls c (List.mem_of_getElem? hget)).token accessToken hphase
      exact StoreOk.setState hissued rfl (role_of_issued hissued)
    · cases hadopted
  · cases hadopted

theorem afterRefresh_ok {r : Nat} {x : Refresh} {accessToken : AccessToken}
    (hstore : StoreOk roleOf w.store) (hget : w.refreshes[r]? = some x)
    (hserves : servesRefresh roleOf x.session (.ok accessToken) = true)
    (hsame : w.SameSession (.refreshResponse r (.ok accessToken))) :
    StoreOk roleOf (afterRefresh w.store (.ok accessToken)) := by
  simp only [servesRefresh, Bool.and_eq_true, beq_iff_eq] at hserves
  simp only [afterRefresh]
  split
  · exact hstore
  · rename_i hflag
    apply hstore.setToken hserves.2
    intro user huser
    have huser' := hsame.resolve_left hflag user huser x hget
    exact Option.some.inj (huser'.symm.trans hserves.1)

theorem mountedStep_storeOk {e : SpaEvent} (hidentity : Identity roleOf w)
    (hsame : w.SameSession e) (hstep : w.mountedStep roleOf e = some w') :
    StoreOk roleOf w'.store := by
  have hstore := hidentity.store
  cases e with
  | request path token =>
      simp only [mountedStep] at hstep
      split at hstep
      · obtain rfl := Option.some.inj hstep
        exact hstore
      · cases hstep
  | response i result =>
      obtain ⟨c, -, hnew⟩ := answerCall_store hstep
      rw [hnew]
      split
      · exact StoreOk.clear w.store
      · exact hstore
  | refreshResponse r result =>
      obtain ⟨x, hget, -, hserves, -⟩ := answerRefresh_eq_some hstep
      rw [answerRefresh_store hstep]
      cases result with
      | ok accessToken => exact afterRefresh_ok hstore hget hserves hsame
      | error status => exact StoreOk.clear w.store
      | failed => exact hstore
  | refreshFinally r => rwa [finishRefresh_store hstep]
  | resume i => rwa [resumeCall_store hstep]
  | pageResume page =>
      rw [resumePage_store hstep]
      cases hadopted : w.adopted page with
      | none => exact hstore
      | some next => exact adopted_ok hidentity hadopted
  | logoutClick =>
      obtain rfl := Option.some.inj hstep
      exact hstore.setIsLoggingOut true
  | logoutFinally =>
      simp only [mountedStep] at hstep
      split at hstep
      · obtain rfl := Option.some.inj hstep
        exact (StoreOk.clear w.store).setIsLoggingOut false
      · cases hstep
  | bootRefresh result => cases hstep
  | bootProfile result => cases hstep
  | _ =>
      obtain rfl := Option.some.inj hstep
      exact hstore

theorem pages_set (hpages : ∀ page ∈ w.pages, PageOk roleOf w'.calls page) {i : Nat}
    {page : Page} (hset : w'.pages = w.pages.set i page) (hpage : PageOk roleOf w'.calls page) :
    ∀ page ∈ w'.pages, PageOk roleOf w'.calls page := by
  intro page' hpage'
  rw [hset] at hpage'
  rcases List.mem_or_eq_of_mem_set hpage' with hold | rfl
  · exact hpages page' hold
  · exact hpage

theorem resumePage_pages {page : Nat} (hidentity : Identity roleOf w)
    (hpages : ∀ page ∈ w.pages, PageOk roleOf w'.calls page)
    (hstep : w.resumePage page = some w') : ∀ page ∈ w'.pages, PageOk roleOf w'.calls page := by
  unfold resumePage at hstep
  split at hstep
  · obtain ⟨out, hout, rfl⟩ := Option.map_eq_some_iff.mp hstep
    obtain ⟨c, hget, hphase⟩ := settlement_eq_some hout
    revert hpages
    unfold onSignIn
    split
    · rename_i accessToken
      intro hpages
      have hissued := (hidentity.calls c (List.mem_of_getElem? hget)).token accessToken hphase
      refine pages_set hpages rfl ⟨hissued, _, List.getElem?_concat_length, rfl⟩
    · intro hpages
      exact pages_set hpages rfl trivial
  · obtain ⟨out, -, rfl⟩ := Option.map_eq_some_iff.mp hstep
    revert hpages
    unfold onProfile
    split
    · intro hpages
      exact pages_set hpages rfl trivial
    · intro hpages
      exact pages_set hpages rfl trivial
  · obtain ⟨out, -, rfl⟩ := Option.map_eq_some_iff.mp hstep
    revert hpages
    unfold onRedeem
    split
    · intro hpages
      exact pages_set hpages rfl trivial
    · intro hpages
      exact pages_set hpages rfl trivial
  · cases hstep

/-- A submitted form waits for its first call. -/
theorem submit_pages {endpoint : Endpoint} {page : Nat → Page}
    (hpages : ∀ old ∈ w.pages, PageOk roleOf (w.submit endpoint page).calls old)
    (hpage : PageOk roleOf (w.submit endpoint page).calls (page w.calls.length)) :
    ∀ page' ∈ (w.submit endpoint page).pages,
      PageOk roleOf (w.submit endpoint page).calls page' := by
  intro page' hpage'
  rcases List.mem_append.mp hpage' with hold | hnew
  · exact hpages page' hold
  · rw [List.mem_singleton.mp hnew]
    exact hpage

theorem mountedStep_pages {e : SpaEvent} (hidentity : Identity roleOf w)
    (hstep : w.mountedStep roleOf e = some w') :
    ∀ page ∈ w'.pages, PageOk roleOf w'.calls page := by
  have hpages : ∀ page ∈ w.pages, PageOk roleOf w'.calls page :=
    fun page hpage => (hidentity.pages page hpage).moves (mountedStep_moves hstep)
  cases e with
  | request path token =>
      simp only [mountedStep] at hstep
      split at hstep
      · obtain rfl := Option.some.inj hstep
        exact hpages
      · cases hstep
  | response i result => rwa [(answerCall_sameTab hstep).pages]
  | refreshResponse r result => rwa [(answerRefresh_sameTab hstep).pages]
  | refreshFinally r => rwa [(finishRefresh_sameTab hstep).pages]
  | resume i => rwa [(resumeCall_sameTab hstep).pages]
  | pageResume page => exact resumePage_pages hidentity hpages hstep
  | submitLogin =>
      obtain rfl := Option.some.inj hstep
      exact submit_pages hpages trivial
  | submitSignup =>
      obtain rfl := Option.some.inj hstep
      exact submit_pages hpages trivial
  | submitRedeem studentEmail =>
      obtain rfl := Option.some.inj hstep
      exact submit_pages hpages trivial
  | logoutFinally =>
      simp only [mountedStep] at hstep
      split at hstep
      · obtain rfl := Option.some.inj hstep
        exact hpages
      · cases hstep
  | bootRefresh result => cases hstep
  | bootProfile result => cases hstep
  | _ =>
      obtain rfl := Option.some.inj hstep
      exact hpages

theorem bootStep_ok {e : SpaEvent} (hidentity : Identity roleOf w)
    (hstep : w.bootStep roleOf e = some w') :
    StoreOk roleOf w'.store ∧ w'.pages = w.pages ∧ BootOk roleOf w'.store w'.boot := by
  have hboot := hidentity.boot
  cases e with
  | cookieChange cookie =>
      obtain rfl := Option.some.inj hstep
      exact ⟨hidentity.store, rfl, hboot⟩
  | bootRefresh result =>
      simp only [bootStep] at hstep
      split at hstep
      · rename_i session hsession
        split at hstep
        · rename_i hserves
          obtain rfl := Option.some.inj hstep
          obtain ⟨cookie, hcookie⟩ := w.receiveSession_eq session result
          rw [hcookie]
          rw [hsession] at hboot
          cases result with
          | ok accessToken =>
              simp only [servesRefresh, Bool.and_eq_true, beq_iff_eq] at hserves
              refine ⟨hidentity.store.setToken hserves.2 ?_, rfl, rfl, hserves.2⟩
              intro user huser
              cases hboot.symm.trans huser
          | error status => exact ⟨hidentity.store, rfl, trivial⟩
          | failed => exact ⟨StoreOk.clear w.store, rfl, trivial⟩
        · cases hstep
      · cases hstep
  | bootProfile result =>
      simp only [bootStep] at hstep
      split at hstep
      · rename_i accessToken hloading
        split at hstep
        · rename_i hserves
          obtain rfl := Option.some.inj hstep
          rw [hloading] at hboot
          unfold onBootProfile
          split
          · have huser := serves_profile hserves
            exact ⟨StoreOk.setUser hboot.1 hboot.2 huser.1 huser.2, rfl, trivial⟩
          · exact ⟨StoreOk.clear w.store, rfl, trivial⟩
        · cases hstep
      · cases hstep
  | _ => cases hstep

theorem step_identity {e : SpaEvent} (hidentity : Identity roleOf w) (hsame : w.SameSession e)
    (hstep : step roleOf w e = some w') : Identity roleOf w' := by
  have hmoves := step_moves hstep
  have hcalls := moves_faithful hidentity hsame hmoves
  have hrefreshes := moves_honest hidentity.refreshes hmoves
  unfold step at hstep
  split at hstep
  · rename_i hready
    have hboot : w'.boot = .ready := (mountedStep_boot hstep).trans hready
    refine ⟨hcalls, hrefreshes, mountedStep_storeOk hidentity hsame hstep,
      mountedStep_pages hidentity hstep, ?_⟩
    rw [hboot]
    trivial
  · obtain ⟨hstore, hpages, hboot⟩ := bootStep_ok hidentity hstep
    refine ⟨hcalls, hrefreshes, hstore, ?_, hboot⟩
    intro page hpage
    rw [hpages] at hpage
    exact (hidentity.pages page hpage).moves hmoves

theorem Identity.load (cookie : Option Nat) : Identity roleOf (Spa.load cookie) where
  calls := by simp [Spa.load]
  refreshes := by simp [Spa.load]
  store := StoreOk.clear .initial
  pages := by simp [Spa.load]
  boot := rfl

theorem retries_eq_some {i : Nat} {retry : Option Nat × AccessToken}
    (hretry : w.retries i = some retry) :
    ∃ c r x newToken, w.calls[i]? = some c ∧ c.phase = .awaiting r ∧
      c.token = some retry.2 ∧ w.refreshes[r]? = some x ∧ x.phase = .done (.token newToken) ∧
      retry.1 = x.session := by
  unfold retries at hretry
  split at hretry
  · cases hretry
  · rename_i c hget
    split at hretry
    · rename_i r token hphase htoken
      split at hretry
      · cases hretry
      · rename_i x hrefresh
        split at hretry
        · rename_i newToken hdone
          cases hretry
          exact ⟨c, r, x, newToken, hget, hphase, htoken, hrefresh, hdone, rfl⟩
        · cases hretry
    · cases hretry

/-- A token of another session in the store is seen with the user that is there. -/
theorem refresh_sameSession {r : Nat} {accessToken : AccessToken}
    (hidentified : Identified w')
    (hstep : w.answerRefresh roleOf r (.ok accessToken) = some w') :
    w.SameSession (.refreshResponse r (.ok accessToken)) := by
  obtain ⟨x, hget, -, hserves, -⟩ := answerRefresh_eq_some hstep
  simp only [servesRefresh, Bool.and_eq_true, beq_iff_eq] at hserves
  have hstore := answerRefresh_store hstep
  by_cases hflag : w.store.isLoggingOut = true
  · exact Or.inl hflag
  · right
    intro user huser x' hx'
    obtain rfl := Option.some.inj (hget.symm.trans hx')
    simp only [afterRefresh, hflag, Bool.false_eq_true, if_false] at hstore
    have hcached := hidentified.cached
    rw [hstore] at hcached
    have hstate : (w.store.setToken accessToken).getState = some
        { accessToken := accessToken
          userId := user.userId
          role := user.role
          email := user.email } := by
      have huser' : w.store.storedUser = some user := huser
      simp [AuthStore.setToken, AuthStore.getState, AuthStore.rebuildState, rebuilt, huser']
    have hid : user.userId = accessToken.sub := (hcached _ hstate).1
    rw [hid]
    exact hserves.1

/-- A request sent again with a token of another session has been sent for two users. -/
theorem resume_sameSession {i : Nat} (hidentity : Identity roleOf w)
    (hidentified : Identified w') (hstep : w.resumeCall i = some w') :
    w.SameSession (.resume i) := by
  by_cases hflag : w.store.isLoggingOut = true
  · exact Or.inl hflag
  · right
    intro retry hretry
    obtain ⟨c, r, x, newToken, hget, hphase, htoken, hrefresh, hdone, hsession⟩ :=
      retries_eq_some hretry
    obtain ⟨c', r', x', out, hget', hphase', hrefresh', hdone', rfl⟩ := resumeCall_eq_some hstep
    obtain rfl := Option.some.inj (hget.symm.trans hget')
    cases hphase.symm.trans hphase'
    obtain rfl := Option.some.inj (hrefresh.symm.trans hrefresh')
    cases hdone.symm.trans hdone'
    have hlength : i < w.calls.length := (List.getElem?_eq_some_iff.mp hget).1
    have hsends := (hidentity.calls c (List.mem_of_getElem? hget)).sends
    simp only [hphase] at hsends
    have hmem : { c with
        seen := some (.token newToken)
        phase := .retrying newToken
        sends := c.sends ++ [some newToken] } ∈
          (w.onRefreshed i c (.token newToken)).calls := by
      simp only [onRefreshed, hflag, Bool.false_eq_true, if_false, updateCall]
      exact List.mem_set hlength _
    have hsub := hidentified.resent _ hmem retry.2 newToken (by simp [hsends, htoken])
    have hhonest := (hidentity.refreshes x (List.mem_of_getElem? hrefresh) newToken
      (Or.inr hdone)).1
    rw [hsession, hhonest, hsub]

/-- One step: the identity survives exactly when the session is the user's. -/
theorem identified_iff {e : SpaEvent} (hidentity : Identity roleOf w)
    (hstep : step roleOf w e = some w') : Identified w' ↔ w.SameSession e := by
  constructor
  · intro hidentified
    unfold step at hstep
    split at hstep
    · cases e with
      | refreshResponse r result =>
          cases result with
          | ok accessToken => exact refresh_sameSession hidentified hstep
          | error status => trivial
          | failed => trivial
      | resume i => exact resume_sameSession hidentity hidentified hstep
      | _ => trivial
    · cases e with
      | refreshResponse r result => cases hstep
      | resume i => cases hstep
      | _ => trivial
  · intro hsame
    exact (step_identity hidentity hsame hstep).identified

end Steps

/-- The states that a run passes are identified. -/
def StaysIdentified (roleOf : Nat → UserRole) (w : Spa) (e : SpaEvent) : Prop :=
  ∀ w', step roleOf w e = some w' → Identified w'

theorem staysIdentified_iff {w w' : Spa} {e : SpaEvent} (hidentity : Identity roleOf w)
    (hstep : step roleOf w e = some w') : StaysIdentified roleOf w e ↔ w.SameSession e := by
  rw [← identified_iff hidentity hstep]
  simp [StaysIdentified, hstep]

/-- A run: every state shows one user's session, and every retry is for the user of
the request, exactly when each refresh was sent with the cookie of the user that it
is used for. -/
theorem spa_identity_iff (cookie : Option Nat) (es : List SpaEvent) (w : Spa)
    (hrun : follow (step roleOf) (load cookie) es = some w) :
    Along (step roleOf) (StaysIdentified roleOf) (load cookie) es ↔
      Along (step roleOf) SameSession (load cookie) es := by
  refine @Along.congr_of_invariant _ _ _ (Identity roleOf) _ _ ?_ ?_ _ _ _
    (Identity.load cookie) hrun
  · intro w e w' hidentity hstays hstep
    exact step_identity hidentity ((staysIdentified_iff hidentity hstep).mp hstays) hstep
  · intro w e w' hidentity hstep
    exact staysIdentified_iff hidentity hstep

section Sample

/-- A reload, and a request whose token has expired. -/
def sampleSession : List SpaEvent :=
  sampleBoot ++
    [.request "/purchases" (some (sampleToken 1 0)), .response 0 (.error 401 AUTH_TOKEN_EXPIRED),
      .refreshResponse 0 (.ok (sampleToken 1 1)), .refreshFinally 0, .resume 0,
      .response 0 (.ok .data)]

theorem sample_spa_identity :
    ∃ w, follow (step sampleRoleOf) (load (some 1)) sampleSession = some w ∧
      Along (step sampleRoleOf) (StaysIdentified sampleRoleOf) (load (some 1)) sampleSession := by
  have hrun : (follow (step sampleRoleOf) (load (some 1)) sampleSession).isSome = true := by
    decide
  obtain ⟨w, hw⟩ := Option.isSome_iff_exists.mp hrun
  exact ⟨w, hw, (spa_identity_iff _ _ w hw).mpr (by decide)⟩

/-- A student redeems an invitation where the cookie is still the parent's. -/
def sampleRedemption : List SpaEvent :=
  sampleBoot ++
    [.submitRedeem "student@mes.test", .response 0 (.ok (.token (sampleToken 2 0))),
      .pageResume 0, .request "/courses" (some (sampleToken 2 0)),
      .response 1 (.error 401 AUTH_TOKEN_EXPIRED), .refreshResponse 0 (.ok (sampleToken 1 1))]

/-- The first refresh puts the parent's token beside the student's data. -/
theorem spa_identity_fails :
    ¬ ∀ (roleOf : Nat → UserRole) (cookie : Option Nat) (es : List SpaEvent) (w : Spa),
      follow (step roleOf) (load cookie) es = some w → Identified w := by
  intro hidentified
  have hrun : (follow (step sampleRoleOf) (load (some 1)) sampleRedemption).any
      (fun w => decide (w.store.getState.map AuthState.userId = some 2 ∧
        w.store.getState.map AuthState.accessToken = some (sampleToken 1 1))) = true := by decide
  obtain ⟨w, hw, hstate⟩ := (Option.any_eq_true _ _).mp hrun
  obtain ⟨huser, htoken⟩ := of_decide_eq_true hstate
  obtain ⟨state, hstate', hid⟩ := Option.map_eq_some_iff.mp huser
  rw [hstate'] at htoken
  have hcached := ((hidentified sampleRoleOf (some 1) sampleRedemption w hw).cached state hstate').1
  rw [hid, Option.some.inj htoken] at hcached
  cases hcached

end Sample

end Mes.Web.Spa
