import Mes.Auth.TokenChains

/-!
One logout against one refresh of the same token. Logout revokes the token it is
given and nothing else, and does nothing when it finds the token revoked. So the
presented token never survives the two calls, and a refresh that fails leaves the
family without an active token; but a refresh that commits first keeps its
successor, which is then the only active token of the family.
-/

namespace Mes

open Transact Transact.Logic

variable {rt : Runtime} {seed : Seed}

/-- Only the programs `who` run, among everything else that is going on. -/
abbrev tokenLogicOf (rt : Runtime) (who : Pid → Prop) : Logic (schema rt) (platform rt) :=
  (tokenLogic rt).narrow (Scope.only who) (fun _ hspawn => hspawn) fun _ _ _ => trivial

theorem path_widen {who : Pid → Prop} {v v' : BackendView rt}
    (hpath : (tokenLogicOf rt who).Path v v') : (tokenLogic rt).Path v v' := by
  induction hpath with
  | refl => exact Relation.ReflTransGen.refl
  | tail _ hstep ih =>
      obtain ⟨actor, hstep⟩ := hstep
      exact ih.tail ⟨actor, hstep.widen⟩

section Race

variable {w₀ w : BackendWorld rt} {raw : String} {requestMeta : RequestMeta} {i : Nat}
  {a : RefreshToken} {p q : Pid}

/-- Tokens that were revoked at `old` are revoked now. -/
def RevokedSince (old v : BackendView rt) : Prop :=
  ∀ j, Spent j old → Spent j v

theorem persistent_revokedSince (old : BackendView rt) :
    (tokenLogic rt).Persistent (RevokedSince old) :=
  fun actor v v' hstep hsince j hspent =>
    persistent_spent (overTokens rt) j actor v v' hstep (hsince j hspent)

theorem Spent.inactive {v : BackendView rt} {j : Nat} {b : RefreshToken}
    (hspent : Spent j v) (hb : tokens v j = some b) : b.revokedAt.isSome = true := by
  rcases hspent with hgone | ⟨c, hc, hrevoked⟩
  · rw [hgone.2.1] at hb
    cases hb
  · rw [hb] at hc
    rwa [Option.some.inj hc]

/-- A token that is active now and was there before was active before. -/
theorem RevokedSince.active {old v : BackendView rt} (hsince : RevokedSince old v)
    {j : Nat} {b c : RefreshToken} (hb : tokens v j = some b) (hactive : b.revokedAt = none)
    (hc : tokens old j = some c) : c.revokedAt = none := by
  cases hrevoked : c.revokedAt with
  | none => rfl
  | some r =>
      have hspent : Spent j old := Or.inr ⟨c, hc, by simp [hrevoked]⟩
      have hlater := (hsince j hspent).inactive hb
      rw [hactive] at hlater
      cases hlater

theorem persistent_rotated {L : Logic (schema rt) (platform rt)} (hL : OverTokens L)
    (i j : Nat) : L.Persistent fun v => Rotated v i j := by
  intro actor v v' hstep hrotated
  cases actor with
  | none => exact stable_rotated (p := 0) hL i j none v v' (by simp) hstep hrotated
  | some r =>
      obtain ⟨e, hacts⟩ := hstep.base
      exact hrotated.step hstep.wf hacts.store (hL.guar (some r) v v' hstep.guar)

/-- `q` has inserted at most one token. -/
def InsertsOnce (q : Pid) (v : BackendView rt) : Prop :=
  ∀ j k b c, tokenBorn v j = some (q, b) → tokenBorn v k = some (q, c) → j = k

/-- A token that is new since `old` was inserted by `q`, and in the family it
replaces `i`. -/
def Descends (old : BackendView rt) (i : Nat) (familyId : String) (q : Pid)
    (v : BackendView rt) : Prop :=
  ∀ j b, tokens old j = none → tokens v j = some b →
    (∃ c, tokenBorn v j = some (q, c)) ∧
      (InsertsOnce q v → b.familyId = familyId → Rotated v i j)

/-- One step of two programs of which `p` inserts no token. -/
theorem descends_step {old v v' : BackendView rt} {actor : Option Pid}
    (hold : TokenInv old) (hrow : tokens old i = some a)
    (hborn : ∀ j b, tokenBorn old j = some b → tokenBorn v j = some b)
    (hsince : RevokedSince old v)
    (hstep : (tokenLogicOf rt fun r => r = p ∨ r = q).Step actor v v')
    (hbarren : Barren p v') (hactive : a.revokedAt = none) (hnew : Descends old i a.familyId q v) :
    Descends old i a.familyId q v' := by
  intro j b hnone hb
  have hwide := hstep.widen
  have hkept {k : Nat} {d : Pid × RefreshToken} (hd : tokenBorn v k = some d) :
      tokenBorn v' k = some d := hwide.born_kept hd
  cases hj : tokens v j with
  | some d =>
      obtain ⟨⟨c, hc⟩, hlink⟩ := hnew j d hnone hj
      refine ⟨⟨c, hkept hc⟩, fun honly hfamily => ?_⟩
      have honce : InsertsOnce q v := fun k m e f he hf => honly k m e f (hkept he) (hkept hf)
      have hsame : b.familyId = d.familyId := (fixed_eq (step_evolves hwide hj hb).fixed).2.1
      exact persistent_rotated (overTokens rt) i j actor v v' hwide
        (hlink honce (hsame.symm.trans hfamily))
  | none =>
      cases actor with
      | none =>
          have hrule : TokenDrift v v' := hwide.guar
          rw [hrule.tokens, hj] at hb
          cases hb
      | some r =>
          have hrule : TokenGuar r v v' := hwide.guar
          obtain ⟨⟨c, hc, -⟩, -, horigin⟩ := hrule.appears j b hj hb
          rcases hstep.guar.2 r rfl with rfl | rfl
          · exact absurd (hkept hc) (hbarren j c)
          refine ⟨⟨c, hkept hc⟩, fun honly hfamily => ?_⟩
          rcases horigin with hroot | ⟨k, d, d', hd, hlive, hd', hto, -, hfam⟩
          · -- the family of `i` is not fresh
            obtain ⟨x, e, he, -, hsame⟩ := born_family hold hrow
            have hij := hroot i x e (hborn i _ he) (hsame.trans hfamily.symm)
            rw [hij, hnone] at hrow
            cases hrow
          · cases hk : tokens old k with
            | none =>
                obtain ⟨⟨e, he⟩, -⟩ := hnew k d hk hd
                have hjk := honly j k c e (hkept hc) (hkept he)
                rw [hjk, hd] at hj
                cases hj
            | some e =>
                have heq : e.familyId = d.familyId := by
                  obtain ⟨x, f, hf, -, hfe⟩ := born_family hold hk
                  obtain ⟨y, g, hg, -, hgd⟩ := born_family hwide.inv hd
                  rw [hborn k _ hf] at hg
                  have hfg : f = g := congrArg Prod.snd (Option.some.inj hg)
                  rw [← hfe, ← hgd, hfg]
                have hik : k = i := hold.activeUnique k i e a hk hrow
                  (hsince.active hd hlive hk) hactive (heq.trans (hfam.symm.trans hfamily))
                subst hik
                obtain ⟨-, t, -, -, ht, -⟩ := hwide.inv'.links k j d' hd' hto
                exact Or.inr ⟨d', hd', by simp [ht], Or.inl hto⟩

/-- The same for every step of a run, by what holds at its end. -/
theorem descends_path {v v' : BackendView rt} (hinv : TokenInv v) (hrow : tokens v i = some a)
    (hactive : a.revokedAt = none)
    (hpath : (tokenLogicOf rt fun r => r = p ∨ r = q).Path v v') (hbarren : Barren p v') :
    Descends v i a.familyId q v' := by
  induction hpath with
  | refl =>
      intro j b hnone hb
      rw [hnone] at hb
      cases hb
  | @tail u u' hmid hlast ih =>
      obtain ⟨actor, hstep⟩ := hlast
      have hkept {k : Nat} {d : Pid × RefreshToken} (hd : tokenBorn u k = some d) :
          tokenBorn u' k = some d := hstep.widen.born_kept hd
      have hwide := path_widen hmid
      have hborn (j : Nat) (b : Pid × RefreshToken) (hb : tokenBorn v j = some b) :
          tokenBorn u j = some b :=
        hwide.preserves (fun x y y' hxy hy => hxy.born_kept hy) hb
      have hsince : RevokedSince v u :=
        hwide.preserves (persistent_revokedSince v) fun j hspent => hspent
      exact descends_step hinv hrow hborn hsince hstep hbarren hactive
        (ih fun j b hb => hbarren j b (hkept hb))

/-- How the two calls end. -/
def RacePost (p q : Pid) (i : Nat) (raw : String) (requestMeta : RequestMeta) (r : Pid)
    (_ : Request) (out : Except AppError Response) (v : BackendView rt) : Prop :=
  (r = p → Barren p v ∧ Spent i v) ∧ (r = q → tokenPost q (.refresh raw requestMeta) out v)

theorem logout_post {v : BackendView rt} (hwf : v.store.Wf) (hinv : TokenInv v)
    (hunused : Unused p v) (hrow : tokens v i = some a) (hhash : a.tokenHash = rt.sha256 raw)
    (hraw : raw ≠ "") :
    (tokenLogic rt).Safe p (fun _ u => Barren p u ∧ Spent i u)
      (handler rt (.logout (some raw))) v := by
  have hstable : (tokenLogic rt).Stable p fun u => Barren p u ∧ AllSpent (some i) u :=
    stable_barren.and persistent_allSpent.stable
  have htriple : (tokenLogic rt).Triple p
      (fun u => Barren p u ∧ ∀ j, some i = some j → KnownAs (rt.sha256 raw) j u)
      (handler rt (.logout (some raw))) fun _ u => Barren p u ∧ Spent i u := by
    refine Triple.andThen (logout_rule (some i) hraw) (fun _ => ?_)
      fun _ _ hfalse => hfalse.elim
    exact Triple.ret hstable fun u hpost => ⟨hpost.1, hpost.2 i rfl⟩
  refine htriple v hwf hinv ⟨barren_of_unused hunused, fun j hj => ?_⟩
  rw [← Option.some.inj hj]
  exact Or.inr ⟨a, hrow, hhash⟩

theorem race_called (hverified : (tokenLogic rt).Verified (fun _ _ => True) tokenPost w₀)
    (requestMeta : RequestMeta)
    (hrow : tokens w₀.view i = some a) (hhash : a.tokenHash = rt.sha256 raw) (hraw : raw ≠ "")
    (hp : p = w₀.procs.length) (hq : q = w₀.procs.length + 1) :
    (tokenLogicOf rt fun r => r = p ∨ r = q).Called (handler rt) (fun r => r = p ∨ r = q)
      (RacePost p q i raw requestMeta) w₀
      [.logout (some raw), .refresh raw requestMeta] := by
  have hunused (r : Pid) (hr : w₀.procs.length ≤ r) : Unused r w₀.view :=
    (hverified.fresh r hr).1
  refine ⟨hverified.wf, hverified.inv, hunused, fun v r v' hrun => hrun, ?_, ?_, ?_⟩
  · rintro r (rfl | rfl)
    · simp [hp]
    · simp [hq]
  · intro k req hreq _
    match k, hreq with
    | 0, hreq =>
        have hsame : Request.logout (some raw) = req := Option.some.inj hreq
        subst hsame
        have hsafe := logout_post hverified.wf hverified.inv
          (hunused w₀.procs.length (le_refl _)) hrow hhash hraw
        refine (Safe.post (fun out v hpost => ?_) hsafe).narrow
        refine ⟨fun _ => by rw [hp]; exact hpost, fun heq => ?_⟩
        rw [hq] at heq
        exact absurd heq (Nat.succ_ne_self _).symm
    | 1, hreq =>
        have hsame : Request.refresh raw requestMeta = req := Option.some.inj hreq
        subst hsame
        have hsafe := tokens_covered (w₀.procs.length + 1) (.refresh raw requestMeta) trivial
          w₀.view hverified.wf hverified.inv ⟨hunused _ (Nat.le_add_right _ 1), trivial⟩
        refine (Safe.post (fun out v hpost => ?_) hsafe).narrow
        refine ⟨fun heq => ?_, fun _ => by rw [hq]; exact hpost⟩
        rw [hp] at heq
        exact absurd heq (Nat.succ_ne_self _)
  · rintro r req out v hother
    exact ⟨fun hr => absurd (Or.inl hr) hother, fun hr => absurd (Or.inr hr) hother⟩

/-- After a logout and a refresh of one token have both ended, that token is not
active, and the only token of its family that can be active is the successor
which the refresh recorded for it and handed out. -/
theorem logout_against_refresh {outLogout outRefresh : Except AppError Response}
    (hreach : Runs rt (boot rt seed) w₀) (hraw : raw ≠ "")
    (hrow : tokens w₀.view i = some a) (hhash : a.tokenHash = rt.sha256 raw)
    (hactive : a.revokedAt = none)
    (hcalls : Reach (handler rt)
      (Scope.only fun r => r = w₀.procs.length ∨ r = w₀.procs.length + 1)
      (w₀.call (handler rt) [.logout (some raw), .refresh raw requestMeta]) w)
    (hlogout : w.Ended w₀.procs.length (.logout (some raw)) outLogout)
    (hrefresh : w.Ended (w₀.procs.length + 1) (.refresh raw requestMeta) outRefresh) :
    (∀ b, tokens w.view i = some b → b.revokedAt.isSome = true) ∧
      ∀ j b, tokens w.view j = some b → b.familyId = a.familyId → b.revokedAt = none →
        Rotated w.view i j ∧
          ∃ r, outRefresh = .ok (.session r) ∧ b.tokenHash = rt.sha256 r.refreshToken.raw := by
  have hverified := reached_verified hreach
  obtain ⟨hended, hpath⟩ := (race_called hverified requestMeta hrow hhash hraw
    rfl rfl).reach hcalls
  obtain ⟨hbarren, hspent⟩ := (hended.ended hlogout).1 rfl
  have hpost := (hended.ended hrefresh).2 rfl
  refine ⟨fun b hb => hspent.inactive hb, fun j b hb hfamily hlive => ?_⟩
  have hsince : RevokedSince w₀.view w.view :=
    (path_widen hpath).preserves (persistent_revokedSince _) fun k hk => hk
  -- an active token is new: the only active one from before was `i`
  have hnew : tokens w₀.view j = none := by
    cases hj : tokens w₀.view j with
    | none => rfl
    | some c =>
        have hsame : c.familyId = b.familyId := by
          have hfam := path_token (path_widen hpath) (fun d => d.familyId = c.familyId)
            (fun _ _ _ hevolves hd => (fixed_eq hevolves.fixed).2.1.trans hd) hj rfl hb
          exact hfam.symm
        have hij := hverified.inv.activeUnique j i c a hj hrow
          (hsince.active hb hlive hj) hactive (hsame.trans hfamily)
        subst hij
        have hrevoked := hspent.inactive hb
        rw [hlive] at hrevoked
        cases hrevoked
  have hgone (hg : Gone w.view j) : False := by
    rw [hg.2.1] at hb
    cases hb
  obtain ⟨⟨c, hc⟩, hlink⟩ := descends_path hverified.inv hrow hactive hpath hbarren j b hnew hb
  match outRefresh, hpost with
  | .ok (.session r), hhanded =>
      refine ⟨hlink hhanded.only hfamily, r, rfl, ?_⟩
      rcases hhanded.handed j c hc with hg | hsame
      · exact (hgone hg).elim
      · obtain ⟨x, d, hd, hfixed⟩ := hended.inv.bornAs j b hb
        rw [hc] at hd
        have hcd : c = d := congrArg Prod.snd (Option.some.inj hd)
        rw [← (fixed_eq hfixed).2.2.1, ← hcd, hsame]
  | .error e, ⟨_, hvanished⟩ => exact (hgone (hvanished j c hc)).elim

end Race

/-! ### The order in which logout comes too late -/

/-- Logout reads the row, the refresh runs to its end, and then logout updates. -/
def sampleRace : List (Action (platform sampleRuntime)) :=
  operations 1 1 "" ++ (operations 2 11 "T2" ++ operations 1 3 "")

theorem sample_race : ∃ w₀ w : BackendWorld sampleRuntime,
    Runs sampleRuntime (boot sampleRuntime sampleSeed) w₀ ∧
      tokens w₀.view 0 = some (sampleToken "T1") ∧ w₀.view.store.clock = 0 ∧
      Reach (handler sampleRuntime)
        (Scope.only fun p => p = w₀.procs.length ∨ p = w₀.procs.length + 1)
        (w₀.call (handler sampleRuntime) [.logout (some "T1"), .refresh "T1" sampleMeta]) w ∧
      w.Ended w₀.procs.length (.logout (some "T1")) (.ok .done) ∧
      w.Ended (w₀.procs.length + 1) (.refresh "T1" sampleMeta)
        (.ok (.session (sampleSession "T2"))) ∧
      tokens w.view 1 = some (sampleToken "T2") ∧ Link w.view 0 1 ∧
      w.view.store.clock = 0 := by
  have hrun : ((boot sampleRuntime sampleSeed).run (handler sampleRuntime)
      sampleSignup).any (fun w₀ => ((w₀.call (handler sampleRuntime)
        [.logout (some "T1"), .refresh "T1" sampleMeta]).run (handler sampleRuntime)
          sampleRace).any fun w => decide (w₀.procs.length = 1 ∧
            tokens w₀.view 0 = some (sampleToken "T1") ∧ w₀.view.store.clock = 0 ∧
            w.status 1 = some (.logout (some "T1"), some (.ok .done)) ∧
            w.status 2 = some (.refresh "T1" sampleMeta,
              some (.ok (.session (sampleSession "T2")))) ∧
            tokens w.view 0 = some
              { sampleToken "T1" with revokedAt := some 0, replacedById := some 1 } ∧
            tokens w.view 1 = some (sampleToken "T2") ∧ w.view.store.clock = 0)) = true := by
    decide
  obtain ⟨w₀, hw₀, hrest⟩ := (Option.any_eq_true _ _).mp hrun
  obtain ⟨w, hw, hfacts⟩ := (Option.any_eq_true _ _).mp hrest
  obtain ⟨hlength, hrow, hclock, hlogout, hrefresh, hold, hnew, htime⟩ := of_decide_eq_true hfacts
  refine ⟨w₀, w, runs_of_run hw₀, hrow, hclock, ?_, ?_, ?_, hnew, ⟨_, hold, rfl⟩, htime⟩
  · refine World.reach_of_run ?_ hw
    rw [hlength]
    intro action haction
    simp only [sampleRace, List.mem_append] at haction
    rcases haction with h | h | h
    · exact operations_admitted (Or.inl rfl) action h
    · exact operations_admitted (Or.inr rfl) action h
    · exact operations_admitted (Or.inl rfl) action h
  · rw [hlength]
    exact World.ended_of_status hlogout
  · rw [hlength]
    exact World.ended_of_status hrefresh

/-- Logout does not always win: after both calls the successor of `T1` is active. -/
theorem logout_loses_race : ∃ w₀ w : BackendWorld sampleRuntime,
    Runs sampleRuntime (boot sampleRuntime sampleSeed) w₀ ∧
      tokens w₀.view 0 = some (sampleToken "T1") ∧
      w₀.view.store.clock < (sampleToken "T1").expiresAt ∧
      Reach (handler sampleRuntime)
        (Scope.only fun p => p = w₀.procs.length ∨ p = w₀.procs.length + 1)
        (w₀.call (handler sampleRuntime) [.logout (some "T1"), .refresh "T1" sampleMeta]) w ∧
      w.Ended w₀.procs.length (.logout (some "T1")) (.ok .done) ∧
      (∃ out, w.Ended (w₀.procs.length + 1) (.refresh "T1" sampleMeta) out) ∧
      Link w.view 0 1 ∧
      ∃ b, tokens w.view 1 = some b ∧ b.revokedAt = none ∧ w.view.store.clock < b.expiresAt := by
  obtain ⟨w₀, w, hreach, hrow, hclock, hcalls, hlogout, hrefresh, hnew, hlink, htime⟩ :=
    sample_race
  refine ⟨w₀, w, hreach, hrow, ?_, hcalls, hlogout, ⟨_, hrefresh⟩, hlink, _, hnew, rfl, ?_⟩
  · rw [hclock]
    decide
  · rw [htime]
    decide

theorem sample_logout_against_refresh : ∃ (w : BackendWorld sampleRuntime) (r : LoginResult),
    (∀ b, tokens w.view 0 = some b → b.revokedAt.isSome = true) ∧ Rotated w.view 0 1 ∧
      (sampleToken "T2").tokenHash = sampleRuntime.sha256 r.refreshToken.raw := by
  obtain ⟨w₀, w, hreach, hrow, -, hcalls, hlogout, hrefresh, hnew, -⟩ := sample_race
  obtain ⟨hspent, hothers⟩ := logout_against_refresh hreach (by decide) hrow rfl rfl hcalls
    hlogout hrefresh
  obtain ⟨hrotated, s, -, hhash⟩ := hothers 1 _ hnew rfl rfl
  exact ⟨w, s, hspent, hrotated, hhash⟩

end Mes
