import Mes.Web.EventLoop

/-!
A logout against the requests and refreshes that it overtakes. The flag
`isLoggingOut` is set when the logout is clicked and taken back when it ends, and
only the `then` handler of a refresh and the resumption of a call look at it. An
answer that arrives after the end finds the flag down: whether it changes the
store depends on the answer and on what the store holds by then.
-/

namespace Mes.Web.Spa

open Transact

variable {roleOf : Nat → UserRole}

/-- The call that a page waits for. -/
def awaitedCall : Page → Option Nat
  | .signIn call => some call
  | .profile call _ => some call
  | .redeem call _ => some call
  | .finished => none

/-- The event belongs to a request, or to a refresh for a request, that was under way
when the last logout ended. -/
def stale (w : Spa) : SpaEvent → Bool
  | .response i _ => (w.calls[i]?).any fun c => decide (c.startedAt < w.epoch)
  | .resume i => (w.calls[i]?).any fun c => decide (c.startedAt < w.epoch)
  | .refreshResponse r _ => (w.refreshes[r]?).any fun x => decide (x.startedAt < w.epoch)
  | .refreshFinally r => (w.refreshes[r]?).any fun x => decide (x.startedAt < w.epoch)
  | .pageResume page =>
      (((w.pages[page]?).bind awaitedCall).bind fun call => w.calls[call]?).any
        fun c => decide (c.startedAt < w.epoch)
  | _ => false

/-- A stale event leaves the store as it is. -/
def Undisturbed (roleOf : Nat → UserRole) (w : Spa) (e : SpaEvent) : Prop :=
  w.stale e = true → ∀ w', step roleOf w e = some w' → w'.store = w.store

/-- Whether the store, as it is, can take the event. -/
def Harmless (w : Spa) : SpaEvent → Prop
  | .response i result =>
      ((w.calls[i]?).any fun c => drops c.phase result) = true → w.store.Empty
  | .refreshResponse _ (.ok accessToken) =>
      w.store.isLoggingOut = true ∨ w.store.memoryToken = some accessToken
  | .refreshResponse _ (.error _) => w.store.Empty
  | .pageResume page => ∀ next ∈ w.adopted page, w.store = AuthStore.setState next
  | _ => True

instance (w : Spa) (e : SpaEvent) : Decidable (w.Harmless e) :=
  match e with
  | .response _ _ => inferInstanceAs (Decidable (_ → _))
  | .refreshResponse _ (.ok _) => inferInstanceAs (Decidable (_ ∨ _))
  | .refreshResponse _ (.error _) => inferInstanceAs (Decidable (AuthStore.Empty _))
  | .refreshResponse _ .failed => inferInstanceAs (Decidable True)
  | .pageResume _ => inferInstanceAs (Decidable (∀ _ ∈ _, _))
  | .request _ _ => inferInstanceAs (Decidable True)
  | .refreshFinally _ => inferInstanceAs (Decidable True)
  | .resume _ => inferInstanceAs (Decidable True)
  | .submitLogin => inferInstanceAs (Decidable True)
  | .submitSignup => inferInstanceAs (Decidable True)
  | .submitRedeem _ => inferInstanceAs (Decidable True)
  | .logoutClick => inferInstanceAs (Decidable True)
  | .logoutFinally => inferInstanceAs (Decidable True)
  | .cookieChange _ => inferInstanceAs (Decidable True)
  | .bootRefresh _ => inferInstanceAs (Decidable True)
  | .bootProfile _ => inferInstanceAs (Decidable True)

theorem afterRefresh_eq_iff (store : AuthStore) (accessToken : AccessToken) :
    afterRefresh store (.ok accessToken) = store ↔
      store.isLoggingOut = true ∨ store.memoryToken = some accessToken := by
  simp only [afterRefresh]
  split
  · rename_i hflag
    simp [hflag]
  · rename_i hflag
    rw [AuthStore.setToken_eq_iff]
    simp [hflag]

/-- A network event or a page leaves the store as it is in the harmless cases only. -/
theorem mountedStep_store_iff {w w' : Spa} {e : SpaEvent} (hstale : w.stale e = true)
    (hstep : w.mountedStep roleOf e = some w') : w'.store = w.store ↔ w.Harmless e := by
  cases e with
  | response i result =>
      obtain ⟨c, hget, hstore⟩ := answerCall_store hstep
      rw [hstore]
      simp only [Harmless, hget, Option.any_some]
      split
      · rename_i hdrops
        rw [AuthStore.clear_eq_iff]
        simp [hdrops]
      · rename_i hdrops
        simp [hdrops]
  | refreshResponse r result =>
      rw [answerRefresh_store hstep]
      cases result with
      | ok accessToken => exact afterRefresh_eq_iff w.store accessToken
      | error status => exact AuthStore.clear_eq_iff w.store
      | failed => exact iff_of_true rfl trivial
  | refreshFinally r => exact iff_of_true (finishRefresh_store hstep) trivial
  | resume i => exact iff_of_true (resumeCall_store hstep) trivial
  | pageResume page =>
      rw [resumePage_store hstep]
      simp only [Harmless]
      cases hadopted : w.adopted page with
      | none => simp
      | some next =>
          simp only [Option.map_some, Option.getD_some, Option.mem_def, Option.some.injEq,
            forall_eq']
          exact eq_comm
  | _ => cases hstale

theorem bootStep_not_stale {w w' : Spa} {e : SpaEvent} (hstep : w.bootStep roleOf e = some w') :
    w.stale e = false := by
  cases e with
  | cookieChange cookie => rfl
  | bootRefresh result => rfl
  | bootProfile result => rfl
  | _ => cases hstep

/-- One step: the guard works exactly when the store can take the event. -/
theorem undisturbed_iff {w w' : Spa} {e : SpaEvent} (hstep : step roleOf w e = some w') :
    Undisturbed roleOf w e ↔ (w.stale e = true → w.Harmless e) := by
  apply imp_congr_right
  intro hstale
  have honly : (∀ w'', step roleOf w e = some w'' → w''.store = w.store) ↔
      w'.store = w.store := by
    simp [hstep]
  rw [honly]
  unfold step at hstep
  split at hstep
  · exact mountedStep_store_iff hstale hstep
  · rw [bootStep_not_stale hstep] at hstale
    cases hstale

/-- A run: no answer that a logout has overtaken changes the store exactly when each
of them is harmless where it arrives. -/
theorem logout_guard_iff (cookie : Option Nat) (es : List SpaEvent) (w : Spa)
    (hrun : follow (step roleOf) (load cookie) es = some w) :
    Along (step roleOf) (Undisturbed roleOf) (load cookie) es ↔
      Along (step roleOf) (fun w e => w.stale e = true → w.Harmless e) (load cookie) es :=
  Along.congr (fun _ _ _ hstep => undisturbed_iff hstep) hrun

section Sample

/-- A logout overtakes a request and its refresh; the answer to the refresh finds the
flag still up. -/
def sampleLogout : List SpaEvent :=
  sampleBoot ++
    [.request "/purchases" (some (sampleToken 1 0)), .response 0 (.error 401 AUTH_TOKEN_EXPIRED),
      .logoutClick, .logoutFinally, .logoutClick, .refreshResponse 0 (.ok (sampleToken 1 1)),
      .refreshFinally 0, .resume 0]

theorem sample_logout_guard :
    ∃ w, follow (step sampleRoleOf) (load (some 1)) sampleLogout = some w ∧
      Along (step sampleRoleOf) (Undisturbed sampleRoleOf) (load (some 1)) sampleLogout := by
  have hrun : (follow (step sampleRoleOf) (load (some 1)) sampleLogout).isSome = true := by decide
  obtain ⟨w, hw⟩ := Option.isSome_iff_exists.mp hrun
  have hharmless : Along (step sampleRoleOf) (fun w e => w.stale e = true → w.Harmless e)
      (load (some 1)) sampleLogout := by decide
  exact ⟨w, hw, (logout_guard_iff _ _ w hw).mpr hharmless⟩

/-- The answer to the refresh arrives after the flag has been taken back. -/
def sampleLateRefresh : List SpaEvent :=
  sampleBoot ++
    [.request "/purchases" (some (sampleToken 1 0)), .response 0 (.error 401 AUTH_TOKEN_EXPIRED),
      .logoutClick, .logoutFinally, .refreshResponse 0 (.ok (sampleToken 1 1))]

/-- An answer of before the logout ends the session of the next login. -/
def sampleLateRejection : List SpaEvent :=
  sampleBoot ++
    [.request "/purchases" (some (sampleToken 1 0)), .logoutClick, .logoutFinally,
      .submitLogin, .response 1 (.ok (.token (sampleToken 3 0))), .pageResume 0,
      .response 2 (.ok (.profile { userId := 3, role := .parent, email := "other@mes.test" })),
      .pageResume 0, .response 0 (.error 401 "AUTH_INVALID_TOKEN")]

example : ¬ Along (step sampleRoleOf) (fun w e => w.stale e = true → w.Harmless e)
    (load (some 1)) sampleLateRejection := by decide

/-- The token of a refresh that the logout has overtaken is put into the store. -/
theorem logout_guard_fails :
    ¬ ∀ (roleOf : Nat → UserRole) (cookie : Option Nat) (es : List SpaEvent) (w : Spa),
      follow (step roleOf) (load cookie) es = some w →
        Along (step roleOf) (Undisturbed roleOf) (load cookie) es := by
  intro hguard
  have hrun : (follow (step sampleRoleOf) (load (some 1)) sampleLateRefresh).isSome = true := by
    decide
  obtain ⟨w, hw⟩ := Option.isSome_iff_exists.mp hrun
  have hundisturbed := hguard sampleRoleOf (some 1) sampleLateRefresh w hw
  have hharmless := (Along.congr (fun _ _ _ hstep => undisturbed_iff hstep) hw).mp hundisturbed
  exact absurd hharmless (by decide)

end Sample

end Mes.Web.Spa
