import Mes.Auth.RefreshAlone

/-!
Refreshes of one active token beside one another, while nothing else runs. At
most one of them rotates the token. It writes the grace entry of the token in a
step of its own after its transaction has released the row, so another refresh can
read the cache in between: it finds the token revoked and no entry, and reports
theft. The state of such a duel is an invariant over the history of the calls:
who has written the grace entry, and what the others have read.
-/

namespace Mes

open Transact Transact.Logic

variable {rt : Runtime} {seed : Seed}

/-! ### The state of a duel -/

/-- Who refreshes what: the token `row` with the identifier `id` and the raw value
`raw`, among the tokens `old`. -/
structure Duel where
  who : Pid → Prop
  raw : String
  id : Nat
  row : RefreshToken
  old : Nat → Option RefreshToken

/-- What has happened so far, the last event first. -/
abbrev History (rt : Runtime) := List (Pid × Event (schema rt) (platform rt))

namespace Duel

variable {d : Duel} {v v' : BackendView rt}

/-- One of the calls has written this grace entry. -/
def Wrote (d : Duel) (history : History rt) (y : Pid) (s : String) (t : Time) : Prop :=
  d.who y ∧ (y, graceWritten rt (rt.sha256 d.raw) s t) ∈ history

/-- The token was revoked at the time `r`. -/
def RevokedAt (d : Duel) (r : Time) (v : BackendView rt) : Prop :=
  ∃ b, tokens v d.id = some b ∧ b.revokedAt = some r

/-- `y` has committed a token that was not there before. -/
def Rotator (d : Duel) (y : Pid) (v : BackendView rt) : Prop :=
  ∃ j c, d.old j = none ∧ (tokens v j).isSome = true ∧ tokenBorn v j = some (y, c)

/-- What a call learns when it reads the clock and the cache. Only a call that has
written no entry reads; it finds an entry that was written, and misses one only
when the grace window is over. -/
structure Reading (d : Duel) (v : BackendView rt) (x : Pid) (t : Time)
    (g : String → Option GraceEntry) (earlier : History rt) : Prop where
  unwritten : ∀ s u, ¬ d.Wrote earlier x s u
  found : ∀ entry, g (rt.sha256 d.raw) = some entry →
    ∃ y, d.Wrote earlier y entry.successorRaw entry.successorExpiresAt
  missed : ∀ y s u, d.Wrote earlier y s u →
    (∃ timer, g (rt.sha256 d.raw) = some
      { successorRaw := s, successorExpiresAt := u, timer := timer }) ∨
      ∃ r, d.RevokedAt r v ∧ r + GRACE_MS ≤ t

/-- The invariant of a duel. -/
structure Holds (d : Duel) (v : BackendView rt) : Prop where
  present : ∃ b, tokens v d.id = some b ∧ b.fixed = d.row.fixed
  owner : (v.store.stored Tbl.users d.row.userId).isSome = true
  fresh : ∀ b, tokens v d.id = some b → b.revokedAt = none → tokens v = d.old
  unique : ∀ j k, d.old j = none → d.old k = none → (tokens v j).isSome = true →
    (tokens v k).isSome = true → j = k
  written : ∀ y s u, d.Wrote v.history y s u → d.Rotator y v ∧
    ∃ r, d.RevokedAt r v ∧ ((∃ timer, v.mem.graceCache (rt.sha256 d.raw) = some
      { successorRaw := s, successorExpiresAt := u, timer := timer } ∧
        r + GRACE_MS ≤ timer) ∨ r + GRACE_MS ≤ v.store.clock)
  cached : ∀ entry, v.mem.graceCache (rt.sha256 d.raw) = some entry →
    ∃ y, d.Wrote v.history y entry.successorRaw entry.successorExpiresAt
  readings : ∀ later x t g earlier,
    v.history = later ++ (x, clockRead rt t g) :: earlier → d.who x →
      d.Reading v x t g earlier

/-- No token is deleted, and no user changes. -/
structure Rule (v v' : BackendView rt) : Prop where
  kept : ∀ k, (tokens v k).isSome = true → (tokens v' k).isSome = true
  users : v'.store.stored Tbl.users = v.store.stored Tbl.users

theorem RevokedAt.step {r : Time} (hkept : ∀ k, (tokens v k).isSome = true →
      (tokens v' k).isSome = true)
    (hevolves : ∀ i a a', tokens v i = some a → tokens v' i = some a' →
      ∀ r, a.revokedAt = some r → a'.revokedAt = some r)
    (hrevoked : d.RevokedAt r v) : d.RevokedAt r v' := by
  obtain ⟨b, hb, hr⟩ := hrevoked
  obtain ⟨b', hb'⟩ := Option.isSome_iff_exists.mp (hkept d.id (by rw [hb]; rfl))
  exact ⟨b', hb', hevolves d.id b b' hb hb' r hr⟩

theorem Rotator.step {y : Pid} (hkept : ∀ k, (tokens v k).isSome = true →
      (tokens v' k).isSome = true)
    (hborn : ∀ k c, tokenBorn v k = some c → tokenBorn v' k = some c)
    (hrotator : d.Rotator y v) : d.Rotator y v' := by
  obtain ⟨j, c, hnew, hthere, hc⟩ := hrotator
  exact ⟨j, c, hnew, hkept j hthere, hborn j _ hc⟩

theorem Reading.step {x : Pid} {t : Time} {g : String → Option GraceEntry}
    {earlier : History rt} (hrevoked : ∀ r, d.RevokedAt r v → d.RevokedAt r v')
    (hreading : d.Reading v x t g earlier) : d.Reading v' x t g earlier := by
  refine ⟨hreading.unwritten, hreading.found, fun y s u hwrote => ?_⟩
  rcases hreading.missed y s u hwrote with hfound | ⟨r, hr, hover⟩
  · exact Or.inl hfound
  · exact Or.inr ⟨r, hrevoked r hr, hover⟩

/-- There is one rotator at most. -/
theorem Holds.rotator_unique (hholds : d.Holds v) {y z : Pid} (hy : d.Rotator y v)
    (hz : d.Rotator z v) : y = z := by
  obtain ⟨j, b, hj, hthere, hb⟩ := hy
  obtain ⟨k, c, hk, hthere', hc⟩ := hz
  have hjk := hholds.unique j k hj hk hthere hthere'
  rw [hjk, hc] at hb
  exact (congrArg Prod.fst (Option.some.inj hb)).symm

/-- A step that is neither a reading of the clock nor the writing of an entry. -/
theorem Holds.step {p : Pid} {e : Event (schema rt) (platform rt)} (hholds : d.Holds v)
    (hacts : ActsOn p e v v') (hguar : TokenGuar p v v') (hrule : Rule v v')
    (hcache : v'.mem.graceCache = v.mem.graceCache)
    (hread : ∀ t g, clockRead rt t g ≠ e) (hwrite : ∀ h s u, graceWritten rt h s u ≠ e)
    (hfresh : ∀ b, tokens v' d.id = some b → b.revokedAt = none → tokens v' = d.old)
    (hunique : ∀ j k, d.old j = none → d.old k = none → (tokens v' j).isSome = true →
      (tokens v' k).isSome = true → j = k) : d.Holds v' := by
  have hrevoked (r : Time) (hr : d.RevokedAt r v) : d.RevokedAt r v' :=
    hr.step hrule.kept fun i a a' ha ha' => (hguar.evolves i a a' ha ha').revoked
  have hwrote {y : Pid} {s : String} {u : Time} (hw : d.Wrote v'.history y s u) :
      d.Wrote v.history y s u := by
    refine ⟨hw.1, ?_⟩
    have hmem := hw.2
    rw [hacts.history] at hmem
    rcases List.mem_cons.mp hmem with heq | hold
    · exact absurd (congrArg Prod.snd heq) (hwrite _ s u)
    · exact hold
  obtain ⟨b, hb, hfixed⟩ := hholds.present
  obtain ⟨b', hb'⟩ := Option.isSome_iff_exists.mp (hrule.kept d.id (by rw [hb]; rfl))
  constructor
  · exact ⟨b', hb', (hguar.evolves d.id b b' hb hb').fixed.trans hfixed⟩
  · rw [hrule.users]
    exact hholds.owner
  · exact hfresh
  · exact hunique
  · intro y s u hw
    obtain ⟨hrotator, r, hr, hentry⟩ := hholds.written y s u (hwrote hw)
    refine ⟨hrotator.step hrule.kept fun k c hc => born_step hacts.store hc, r,
      hrevoked r hr, ?_⟩
    rw [hcache, hacts.store.clock]
    exact hentry
  · intro entry hentry
    rw [hcache] at hentry
    obtain ⟨y, hy, hmem⟩ := hholds.cached entry hentry
    exact ⟨y, hy, by rw [hacts.history]; exact List.mem_cons_of_mem _ hmem⟩
  · intro later x t g earlier hsplit hx
    rw [hacts.history] at hsplit
    cases later with
    | nil =>
        have hhead := (List.cons.inj hsplit).1
        exact absurd (congrArg Prod.snd hhead).symm (hread t g)
    | cons first rest =>
        have htail := (List.cons.inj hsplit).2
        exact (hholds.readings rest x t g earlier htail hx).step hrevoked

/-- A step after which the same tokens are committed. -/
theorem Holds.same {p : Pid} {e : Event (schema rt) (platform rt)} (hholds : d.Holds v)
    (hacts : ActsOn p e v v') (hguar : TokenGuar p v v') (htokens : tokens v' = tokens v)
    (husers : v'.store.stored Tbl.users = v.store.stored Tbl.users)
    (hcache : v'.mem.graceCache = v.mem.graceCache)
    (hread : ∀ t g, clockRead rt t g ≠ e) (hwrite : ∀ h s u, graceWritten rt h s u ≠ e) :
    d.Holds v' ∧ Rule v v' := by
  have hrule : Rule v v' := ⟨fun k hk => by rw [htokens, hk], husers⟩
  refine ⟨hholds.step hacts hguar hrule hcache hread hwrite ?_ ?_, hrule⟩
  · rw [htokens]
    exact hholds.fresh
  · rw [htokens]
    exact hholds.unique

/-- The clock and the timers. An entry goes only when its window is over. -/
theorem Holds.drift (hholds : d.Holds v) (hdrift : TokenDrift v v')
    (hhistory : v'.history = v.history)
    (husers : v'.store.stored Tbl.users = v.store.stored Tbl.users)
    (hclock : v.store.clock ≤ v'.store.clock)
    (hcache : ∀ h entry, v.mem.graceCache h = some entry →
      v'.mem.graceCache h = some entry ∨
        v'.mem.graceCache h = none ∧ entry.timer ≤ v'.store.clock)
    (hcached : ∀ h entry, v'.mem.graceCache h = some entry →
      v.mem.graceCache h = some entry) : d.Holds v' ∧ Rule v v' := by
  have hrevoked (r : Time) (hr : d.RevokedAt r v) : d.RevokedAt r v' := by
    obtain ⟨b, hb, hat⟩ := hr
    exact ⟨b, by rw [hdrift.tokens, hb], hat⟩
  refine ⟨?_, fun k hk => by rw [hdrift.tokens, hk], husers⟩
  constructor
  · rw [hdrift.tokens]
    exact hholds.present
  · rw [husers]
    exact hholds.owner
  · rw [hdrift.tokens]
    exact hholds.fresh
  · rw [hdrift.tokens]
    exact hholds.unique
  · intro y s u hw
    rw [hhistory] at hw
    obtain ⟨⟨j, c, hnew, hthere, hc⟩, r, hr, hentry⟩ := hholds.written y s u hw
    refine ⟨⟨j, c, hnew, by rw [hdrift.tokens, hthere], by rw [hdrift.born, hc]⟩, r,
      hrevoked r hr, ?_⟩
    rcases hentry with ⟨timer, hcached, hlong⟩ | hover
    · rcases hcache _ _ hcached with hstill | ⟨-, hdue⟩
      · exact Or.inl ⟨timer, hstill, hlong⟩
      · exact Or.inr (le_trans hlong hdue)
    · exact Or.inr (le_trans hover hclock)
  · intro entry hentry
    rw [hhistory]
    exact hholds.cached entry (hcached _ entry hentry)
  · intro later x t g earlier hsplit hx
    rw [hhistory] at hsplit
    exact (hholds.readings later x t g earlier hsplit hx).step hrevoked

theorem Holds.tick (hholds : d.Holds v) (n : Time) :
    d.Holds { v with store := v.store.tick n } ∧
      Rule v { v with store := v.store.tick n } :=
  hholds.drift ⟨rfl, rfl, rfl⟩ rfl rfl (Nat.le_add_right _ n) (fun _ _ hentry => Or.inl hentry)
    fun _ _ hentry => hentry

theorem Holds.fire (hholds : d.Holds v) {timer : String} {mem : Memory}
    (hfire : v.mem.fire v.store.clock timer = some mem) :
    d.Holds { v with mem := mem } ∧ Rule v { v with mem := mem } := by
  obtain ⟨entry, hentry, hdue, rfl⟩ := Memory.fire_cases hfire
  refine hholds.drift ⟨rfl, rfl, rfl⟩ rfl rfl (le_refl _) (fun h e he => ?_) fun h e he => ?_
  · rcases eq_or_ne h timer with heq | hne
    · subst heq
      rw [hentry] at he
      rw [← Option.some.inj he]
      exact Or.inr ⟨Function.update_self _ _ _, hdue⟩
    · exact Or.inl (by simpa [Function.update_of_ne hne] using he)
  · rcases eq_or_ne h timer with heq | hne
    · simp [heq] at he
    · simpa [Function.update_of_ne hne] using he

/-- One of the calls reads the clock and the cache. -/
theorem Holds.turn {p : Pid} (hholds : d.Holds v)
    (hunwritten : ∀ s u, ¬ d.Wrote v.history p s u)
    (hv' : v' = v.remember p (clockRead rt v.store.clock v.mem.graceCache) v.mem) :
    d.Holds v' ∧ Rule v v' := by
  subst hv'
  refine ⟨?_, fun k hk => hk, rfl⟩
  have hwrote {y : Pid} {s : String} {u : Time}
      (hw : d.Wrote ((p, clockRead rt v.store.clock v.mem.graceCache) :: v.history) y s u) :
      d.Wrote v.history y s u := by
    refine ⟨hw.1, ?_⟩
    rcases List.mem_cons.mp hw.2 with heq | hold
    · cases heq
    · exact hold
  constructor
  · exact hholds.present
  · exact hholds.owner
  · exact hholds.fresh
  · exact hholds.unique
  · exact fun y s u hw => hholds.written y s u (hwrote hw)
  · intro entry hentry
    obtain ⟨y, hy, hmem⟩ := hholds.cached entry hentry
    exact ⟨y, hy, List.mem_cons_of_mem _ hmem⟩
  · intro later x t g earlier hsplit hx
    cases later with
    | nil =>
        obtain ⟨hhead, htail⟩ := List.cons.inj hsplit
        simp only [Prod.mk.injEq, Sigma.mk.injEq, heq_eq_eq, true_and] at hhead
        obtain ⟨rfl, hanswer⟩ := hhead
        obtain ⟨rfl, rfl⟩ := Prod.mk.inj hanswer
        subst htail
        refine ⟨hunwritten, hholds.cached, fun y s u hw => ?_⟩
        obtain ⟨-, r, hr, hentry⟩ := hholds.written y s u hw
        rcases hentry with ⟨timer, hcached, -⟩ | hover
        · exact Or.inl ⟨timer, hcached⟩
        · exact Or.inr ⟨r, hr, hover⟩
    | cons first rest =>
        have htail := (List.cons.inj hsplit).2
        exact (hholds.readings rest x t g earlier htail hx).step
          fun r (hr : d.RevokedAt r v) => hr

/-- The rotator writes the entry. -/
theorem Holds.grace {p : Pid} {s : String} {u r : Time} (hholds : d.Holds v)
    (hwho : d.who p) (hunwritten : ∀ s u, ¬ d.Wrote v.history p s u)
    (hrotator : d.Rotator p v) (hrevoked : d.RevokedAt r v) (hclock : r ≤ v.store.clock)
    (hv' : v' = v.remember p (graceWritten rt (rt.sha256 d.raw) s u) { v.mem with
      graceCache := Function.update v.mem.graceCache (rt.sha256 d.raw) (some
        { successorRaw := s, successorExpiresAt := u,
          timer := v.store.clock + GRACE_MS }) }) :
    d.Holds v' ∧ Rule v v' := by
  subst hv'
  refine ⟨?_, fun k hk => hk, rfl⟩
  constructor
  · exact hholds.present
  · exact hholds.owner
  · exact hholds.fresh
  · exact hholds.unique
  · intro y s' u' hw
    rcases List.mem_cons.mp hw.2 with heq | hold
    · simp only [Prod.mk.injEq, Sigma.mk.injEq, Call.node.injEq, NodeOp.setGraceEntry.injEq,
        true_and] at heq
      obtain ⟨rfl, ⟨rfl, rfl⟩, -⟩ := heq
      exact ⟨hrotator, r, hrevoked, Or.inl ⟨v.store.clock + GRACE_MS,
        Function.update_self _ _ _, Nat.add_le_add_right hclock GRACE_MS⟩⟩
    · -- nobody else has rotated, and `p` has not written yet
      have hother := (hholds.written y s' u' ⟨hw.1, hold⟩).1
      have hy := hholds.rotator_unique hother hrotator
      rw [hy] at hold
      exact absurd ⟨hwho, hold⟩ (hunwritten s' u')
  · intro entry hentry
    have hsame : (Function.update v.mem.graceCache (rt.sha256 d.raw) (some
        { successorRaw := s, successorExpiresAt := u, timer := v.store.clock + GRACE_MS }))
          (rt.sha256 d.raw) = some entry := hentry
    rw [Function.update_self] at hsame
    rw [← Option.some.inj hsame]
    exact ⟨p, hwho, List.mem_cons_self⟩
  · intro later x t g earlier hsplit hx
    cases later with
    | nil => cases (List.cons.inj hsplit).1
    | cons first rest =>
        have htail := (List.cons.inj hsplit).2
        exact (hholds.readings rest x t g earlier htail hx).step
          fun r (hr : d.RevokedAt r v) => hr

/-! ### The logic of a duel -/

/-- The rules of the tokens and of the duel, for the programs in it. -/
def logic (rt : Runtime) (d : Duel) : Logic (schema rt) (platform rt) where
  scope := Scope.only d.who
  starts := fun _ => True
  Inv := fun v => TokenInv v ∧ d.Holds v
  Guar := fun actor v v' =>
    (TokenRule actor v v' ∧ Rule v v') ∧ ∀ q, actor = some q → d.who q
  spawns := fun _ _ => trivial
  quiet := fun p e v v' hwf hinv hacts hevent hquiet hwho => by
    have hsame := quiet_tokens hquiet
    have hread (t : Time) (g : String → Option GraceEntry) : clockRead rt t g ≠ e :=
      fun heq => hevent NodeOp.turn (by rw [← heq])
    have hwrite (h s : String) (u : Time) : graceWritten rt h s u ≠ e :=
      fun heq => hevent (NodeOp.setGraceEntry h s u) (by rw [← heq])
    obtain ⟨hholds, hrule⟩ := hinv.2.same hacts hsame.guar hsame.tokens
      (congrFun hquiet.store.stored Tbl.users) hsame.graceCache hread hwrite
    exact ⟨⟨hinv.1.of_same hwf hacts.store hsame, hholds⟩, ⟨hsame.guar, hrule⟩,
      fun q hq => by rw [← Option.some.inj hq]; exact hwho⟩
  tick := fun v n hwf hinv => by
    obtain ⟨hholds, hrule⟩ := hinv.2.tick n
    exact ⟨⟨tick_inv hinv.1 n, hholds⟩, ⟨⟨rfl, rfl, rfl⟩, hrule⟩, fun q hq => by cases hq⟩
  fire := fun v timer mem hwf hinv hfire => by
    obtain ⟨hinv', hdrift⟩ := fire_inv hinv.1 hfire
    obtain ⟨hholds, hrule⟩ := hinv.2.fire hfire
    exact ⟨⟨hinv', hholds⟩, ⟨hdrift, hrule⟩, fun q hq => by cases hq⟩

theorem overTokens (rt : Runtime) (d : Duel) : OverTokens (d.logic rt) where
  inv := fun _ hinv => hinv.1
  guar := fun _ _ _ hguar => hguar.1.1
  minor := fun p v v' hwf hinv hminor hwho => by
    obtain ⟨e, hacts, hevent⟩ := hminor.acts
    have hstored : v'.store.stored = v.store.stored := by
      rcases hacts.committed with hsame | hcommit
      · exact hsame
      · rw [hcommit] at hevent
        exact absurd trivial hevent
    obtain ⟨hholds, hrule⟩ := hinv.2.same hacts hminor.guar hminor.tokens
      (congrFun hstored Tbl.users) hminor.graceCache
      (fun t g heq => hevent (by rw [← heq]; trivial))
      (fun h s u heq => hevent (by rw [← heq]; trivial))
    exact ⟨⟨hminor.inv, hholds⟩, ⟨hminor.guar, hrule⟩,
      fun q hq => by rw [← Option.some.inj hq]; exact hwho⟩

variable {p : Pid}

theorem step_rule {actor : Option Pid} (hstep : (d.logic rt).Step actor v v') : Rule v v' :=
  hstep.guar.1.2

theorem step_revoked {actor : Option Pid} (hstep : (d.logic rt).Step actor v v') {r : Time}
    (hrevoked : d.RevokedAt r v) : d.RevokedAt r v' := by
  have hrule : TokenRule actor v v' := hstep.guar.1.1
  refine hrevoked.step (step_rule hstep).kept fun i a a' ha ha' r hr => ?_
  cases actor with
  | none =>
      rw [hrule.tokens, ha] at ha'
      rw [← Option.some.inj ha', hr]
  | some q => exact (hrule.evolves i a a' ha ha').revoked r hr

/-- The token is there, under the presented hash. -/
def Presented (d : Duel) (v : BackendView rt) : Prop :=
  ∃ b, tokens v d.id = some b ∧ b.tokenHash = rt.sha256 d.raw

theorem step_presented {actor : Option Pid} (hstep : (d.logic rt).Step actor v v')
    (hpresented : d.Presented v) : d.Presented v' := by
  have hrule : TokenRule actor v v' := hstep.guar.1.1
  obtain ⟨b, hb, hhash⟩ := hpresented
  obtain ⟨b', hb'⟩ := Option.isSome_iff_exists.mp
    ((step_rule hstep).kept d.id (by rw [hb]; rfl))
  refine ⟨b', hb', ?_⟩
  cases actor with
  | none =>
      rw [hrule.tokens, hb] at hb'
      rw [← Option.some.inj hb', hhash]
  | some q => exact (fixed_eq (hrule.evolves d.id b b' hb hb').fixed).2.2.1.trans hhash

/-- `p` has written no grace entry. -/
def Unwritten (p : Pid) (d : Duel) (v : BackendView rt) : Prop :=
  ∀ s u, (p, graceWritten rt (rt.sha256 d.raw) s u) ∉ v.history

/-- `p` has written this grace entry and no other. -/
def WrittenAs (p : Pid) (d : Duel) (r : RefreshTokenPair) (v : BackendView rt) : Prop :=
  ∀ s u, (p, graceWritten rt (rt.sha256 d.raw) s u) ∈ v.history ↔
    s = r.raw ∧ u = r.expiresAt

theorem context_unwritten {L : Logic (schema rt) (platform rt)} :
    Context L p (@Unwritten rt p d) where
  stable := fun _ _ _ hactor hstep hunwritten s u hmem =>
    hunwritten s u ((hstep.own_history hactor _).mp hmem)
  calm := fun _ _ hcalm hunwritten s u hmem => hunwritten s u
    ((hcalm.milestone (e := graceWritten rt (rt.sha256 d.raw) s u) trivial).mp hmem)

/-- Any other event leaves the entries of `p` as they are. -/
theorem Unwritten.other {e : Event (schema rt) (platform rt)}
    (hunwritten : Unwritten p d v) (hevent : ∀ h s u, graceWritten rt h s u ≠ e)
    (hhistory : v'.history = (p, e) :: v.history) : Unwritten p d v' := by
  intro s u hmem
  rw [hhistory] at hmem
  rcases List.mem_cons.mp hmem with heq | hold
  · exact hevent _ s u (congrArg Prod.snd heq)
  · exact hunwritten s u hold

theorem Unwritten.grace {r : RefreshTokenPair} (hunwritten : Unwritten p d v)
    (hhistory : v'.history =
      (p, graceWritten rt (rt.sha256 d.raw) r.raw r.expiresAt) :: v.history) :
    WrittenAs p d r v' := by
  intro s u
  rw [hhistory, List.mem_cons, or_iff_left (hunwritten s u)]
  constructor
  · intro heq
    simp only [Prod.mk.injEq, Sigma.mk.injEq, Call.node.injEq, NodeOp.setGraceEntry.injEq,
      true_and] at heq
    exact heq.1
  · rintro ⟨rfl, rfl⟩
    rfl

theorem stable_writtenAs {L : Logic (schema rt) (platform rt)} (r : RefreshTokenPair) :
    L.Stable p (@WrittenAs rt p d r) :=
  fun _ _ _ hactor hstep hwritten s u => (hstep.own_history hactor _).trans (hwritten s u)

/-- The call has read the clock when the row was `a`. If `a` was active, nobody
had written an entry. -/
structure Checked (d : Duel) (p : Pid) (i : Nat) (a : RefreshToken) (now : Time)
    (g : String → Option GraceEntry) (v : BackendView rt) : Prop where
  read : ReadAt p now g v
  unwritten : Unwritten p d v
  id : i = d.id
  hash : a.tokenHash = rt.sha256 d.raw
  fixed : a.fixed = d.row.fixed
  owner : (v.store.stored Tbl.users d.row.userId).isSome = true
  revoked : ∀ r, a.revokedAt = some r → d.RevokedAt r v
  early : a.revokedAt = none → g (rt.sha256 d.raw) = none

/-- The call has read the clock before the expiry of the token and committed its
successor. -/
structure Rotated (d : Duel) (p : Pid) (requestMeta : RequestMeta) (r : RefreshTokenPair)
    (now : Time) (g : String → Option GraceEntry) (v : BackendView rt) : Prop where
  read : ReadAt p now g v
  live : now < d.row.expiresAt
  early : g (rt.sha256 d.raw) = none
  inet : requestMeta.ip.all rt.isInet = true
  minted : v.mem.minted r.raw = some p

/-- The call has found the token revoked and an entry for it. -/
structure Retried (d : Duel) (p : Pid) (r : RefreshTokenPair) (now : Time)
    (g : String → Option GraceEntry) (v : BackendView rt) : Prop where
  read : ReadAt p now g v
  unwritten : Unwritten p d v
  live : now < d.row.expiresAt
  cached : ∃ entry, g (rt.sha256 d.raw) = some entry ∧ r.raw = entry.successorRaw ∧
    r.expiresAt = entry.successorExpiresAt

/-- How a call of a duel succeeds. -/
def Success (d : Duel) (p : Pid) (requestMeta : RequestMeta) (r : RefreshTokenPair)
    (v : BackendView rt) : Prop :=
  ∃ now g, d.Rotated p requestMeta r now g v ∧ WrittenAs p d r v ∨ d.Retried p r now g v

/-- Why a call of a duel fails. -/
def Failure (d : Duel) (p : Pid) (requestMeta : RequestMeta) (v : BackendView rt) : Prop :=
  Unwritten p d v ∧ ∃ now g, ReadAt p now g v ∧
    (d.row.expiresAt ≤ now ∨
      (∃ r, d.RevokedAt r v ∧ (g (rt.sha256 d.raw) = none ∨ r + GRACE_MS ≤ now ∨
        d.row.userAgent ≠ requestMeta.userAgent)) ∨
      g (rt.sha256 d.raw) = none ∧
        (¬ CollisionFree v ∨ requestMeta.ip.all rt.isInet = false))

theorem context_checked (i : Nat) (a : RefreshToken) (now : Time)
    (g : String → Option GraceEntry) :
    Context (d.logic rt) p (@Checked rt d p i a now g) where
  stable := by
    intro actor v v' hactor hstep hchecked
    exact
      { hchecked with
        read := (context_readAt now g).stable actor v v' hactor hstep hchecked.read
        unwritten := context_unwritten.stable actor v v' hactor hstep hchecked.unwritten
        owner := by
          rw [(step_rule hstep).users]
          exact hchecked.owner
        revoked := fun r hr => step_revoked hstep (hchecked.revoked r hr) }
  calm := by
    intro v v' hcalm hchecked
    exact
      { hchecked with
        read := (@context_readAt rt p (d.logic rt) now g).calm v v' hcalm hchecked.read
        unwritten := (@context_unwritten rt d p (d.logic rt)).calm v v' hcalm
          hchecked.unwritten
        owner := by
          rw [hcalm.users]
          exact hchecked.owner
        revoked := fun r hr => by
          obtain ⟨b, hb, hat⟩ := hchecked.revoked r hr
          exact ⟨b, by rw [hcalm.tokens, hb], hat⟩ }

theorem context_start : Context (d.logic rt) p fun v : BackendView rt =>
    d.Presented v ∧ Unread p v ∧ Unwritten p d v :=
  Context.and
    ⟨fun _ _ _ _ hstep hpresented => step_presented hstep hpresented,
      fun v v' hcalm hpresented => by
        unfold Presented
        rw [hcalm.tokens]
        exact hpresented⟩
    (Context.and context_unread context_unwritten)

theorem stable_rotated (requestMeta : RequestMeta) (r : RefreshTokenPair) (now : Time)
    (g : String → Option GraceEntry) :
    (d.logic rt).Stable p (@Rotated rt d p requestMeta r now g) := by
  intro actor v v' hactor hstep hrotated
  exact
    { hrotated with
      read := (context_readAt now g).stable actor v v' hactor hstep hrotated.read
      minted := stable_minted (overTokens rt d) r.raw p actor v v' hactor hstep
        hrotated.minted }

theorem stable_success (requestMeta : RequestMeta) (r : RefreshTokenPair) :
    (d.logic rt).Stable p (@Success rt d p requestMeta r) := by
  intro actor v v' hactor hstep hsuccess
  obtain ⟨now, g, ⟨hrotated, hwritten⟩ | hretried⟩ := hsuccess
  · exact ⟨now, g, Or.inl
      ⟨stable_rotated requestMeta r now g actor v v' hactor hstep hrotated,
        stable_writtenAs r actor v v' hactor hstep hwritten⟩⟩
  · exact ⟨now, g, Or.inr { hretried with
      read := (context_readAt now g).stable actor v v' hactor hstep hretried.read
      unwritten := context_unwritten.stable actor v v' hactor hstep hretried.unwritten }⟩

theorem stable_failure (requestMeta : RequestMeta) :
    (d.logic rt).Stable p (@Failure rt d p requestMeta) := by
  intro actor v v' hactor hstep hfailure
  obtain ⟨hunwritten, now, g, hread, hreason⟩ := hfailure
  refine ⟨context_unwritten.stable actor v v' hactor hstep hunwritten, now, g,
    (context_readAt now g).stable actor v v' hactor hstep hread, ?_⟩
  rcases hreason with hlate | ⟨r, hr, hwhy⟩ | ⟨hnone, hcollision | hinet⟩
  · exact Or.inl hlate
  · exact Or.inr (Or.inl ⟨r, step_revoked hstep hr, hwhy⟩)
  · refine Or.inr (Or.inr ⟨hnone, Or.inl fun hfree => hcollision (hfree.earlier ?_)⟩)
    intro s q hs
    have hrule : TokenRule actor v v' := hstep.guar.1.1
    cases actor with
    | none => rw [hrule.minted, hs]
    | some x => exact hrule.mintKept s q hs
  · exact Or.inr (Or.inr ⟨hnone, Or.inr hinet⟩)

/-- Between the commit of a rotation and its grace entry. -/
structure Committed (d : Duel) (p : Pid) (requestMeta : RequestMeta) (r : LoginResult)
    (s : String) (u : Time) (v : BackendView rt) : Prop where
  unwritten : Unwritten p d v
  rotator : d.Rotator p v
  revoked : ∃ r₀, d.RevokedAt r₀ v ∧ r₀ ≤ v.store.clock
  rotated : ∃ now g, d.Rotated p requestMeta r.refreshToken now g v
  raw : r.refreshToken.raw = s
  expiresAt : r.refreshToken.expiresAt = u
  cached : ∀ timer, CachedRotation v (rt.sha256 d.raw)
    { successorRaw := s, successorExpiresAt := u, timer := timer }

theorem stable_committed (requestMeta : RequestMeta) (r : LoginResult) (s : String)
    (u : Time) : (d.logic rt).Stable p (@Committed rt d p requestMeta r s u) := by
  intro actor v v' hactor hstep hcommitted
  obtain ⟨r₀, hr₀, hclock⟩ := hcommitted.revoked
  obtain ⟨now, g, hrotated⟩ := hcommitted.rotated
  exact
    { hcommitted with
      unwritten := context_unwritten.stable actor v v' hactor hstep hcommitted.unwritten
      rotator := hcommitted.rotator.step (step_rule hstep).kept
        fun k c hc => hstep.born_kept hc
      revoked := ⟨r₀, step_revoked hstep hr₀, le_trans hclock hstep.clock_le⟩
      rotated := ⟨now, g, stable_rotated requestMeta _ now g actor v v' hactor hstep hrotated⟩
      cached := fun timer => by
        obtain ⟨i, j, q, a, r', b, hi, hhash, hj, hhash', hexpires, hminted, hlink⟩ :=
          hcommitted.cached timer
        exact ⟨i, j, q, a, r', b, hstep.born_kept hi, hhash, hstep.born_kept hj, hhash',
          hexpires, stable_minted (overTokens rt d) _ r' actor v v' hactor hstep hminted,
          Mes.stable_rotated (overTokens rt d) i j actor v v' hactor hstep hlink⟩ }

/-! ### The outline of a call -/

theorem users_commit {e : Event (schema rt) (platform rt)}
    (hnone : ∀ k, v.store.draft p Tbl.users k = none) :
    (v.put p e (v.store.finish p true)).store.stored Tbl.users =
      v.store.stored Tbl.users := by
  funext k
  rw [View.put_store, Store.finish_stored_keep]
  exact Drafts.onto_of_none (hnone k)

/-- The clock and the cache are read while the row is locked. -/
theorem turn_obligation {t₀ : Time} {i : Nat} {a : RefreshToken} (hwf : v.store.Wf)
    (hinv : TokenInv v ∧ d.Holds v)
    (hstart : d.Presented v ∧ Unread p v ∧ Unwritten p d v) (hlocks : LocksOnly p t₀ v)
    (hfound : Found p (rt.sha256 d.raw) (i, a) v) (hwho : d.who p)
    (hacts : ActsOn p (clockRead rt v.store.clock v.mem.graceCache) v v')
    (hv' : v' = v.remember p (clockRead rt v.store.clock v.mem.graceCache) v.mem) :
    (TokenInv v' ∧ d.Holds v') ∧ (d.logic rt).Guar (some p) v v' ∧
      Checked d p i a v.store.clock v.mem.graceCache v' := by
  obtain ⟨hinv', hguar⟩ := turn_step hwf hinv.1 hv'
  obtain ⟨⟨b, hb, hhash⟩, hunread, hunwritten⟩ := hstart
  have hrow : tokens v i = some a := hlocks.committed hfound.1
  obtain ⟨rfl, rfl⟩ := same_hash hwf hrow hb (hfound.2.trans hhash.symm)
  obtain ⟨hholds, hrule⟩ := hinv.2.turn (fun s u hwrote => hunwritten s u hwrote.2) hv'
  have hread := hunread.read hacts.history
  have hunwritten' := hunwritten.other (by simp) hacts.history
  subst hv'
  refine ⟨⟨hinv', hholds⟩, ⟨⟨hguar, hrule⟩, fun q hq => ?_⟩, ?_⟩
  · rw [← Option.some.inj hq]
    exact hwho
  · obtain ⟨c, hc, hfixed⟩ := hinv.2.present
    rw [hb] at hc
    have hac : a = c := Option.some.inj hc
    constructor
    · exact hread
    · exact hunwritten'
    · rfl
    · exact hhash
    · rw [hac, hfixed]
    · exact hinv.2.owner
    · intro r hr
      exact ⟨a, hb, hr⟩
    · intro hactive
      -- an entry would have been written after the token was revoked
      cases hentry : v.mem.graceCache (rt.sha256 d.raw) with
      | none => rfl
      | some entry =>
          obtain ⟨y, hwrote⟩ := hinv.2.cached entry hentry
          obtain ⟨-, r, ⟨x, hx, hr⟩, -⟩ := hinv.2.written y _ _ hwrote
          rw [hb] at hx
          rw [← Option.some.inj hx, hactive] at hr
          cases hr

/-- The transaction of a retry has changed nothing. -/
theorem retried_obligation {t₀ now : Time} {i : Nat} {a : RefreshToken}
    {g : String → Option GraceEntry} {requestMeta : RequestMeta} {r : LoginResult}
    (hwf : v.store.Wf) (hinv : TokenInv v ∧ d.Holds v) (hchecked : Checked d p i a now g v)
    (hlocks : LocksOnly p t₀ v) (hretry : Retry rt d.raw requestMeta a now g r)
    (hlive : now < a.expiresAt) (hwho : d.who p) (hacts : ActsOn p (committed rt) v v')
    (hv' : v' = v.put p (committed rt) (v.store.finish p true)) :
    (TokenInv v' ∧ d.Holds v') ∧ (d.logic rt).Guar (some p) v v' ∧
      Success d p requestMeta r.refreshToken v' := by
  have hread := hchecked.read.other (by simp) hacts.history
  have hunwritten := hchecked.unwritten.other (by simp) hacts.history
  subst hv'
  have hguar : TokenGuar p v (v.put p (committed rt) (v.store.finish p true)) :=
    tame_commit_guar hwf hlocks.tame
  obtain ⟨hholds, hrule⟩ := hinv.2.same hacts hguar (tokens_locks_commit hlocks _)
    (users_commit hlocks.noUsers) rfl (by simp) (by simp)
  refine ⟨⟨tame_commit_inv hwf hinv.1 hlocks.tame, hholds⟩,
    ⟨⟨hguar, hrule⟩, fun q hq => ?_⟩, now, g, Or.inr ?_⟩
  · rw [← Option.some.inj hq]
    exact hwho
  · obtain ⟨entry, hentry, hpair⟩ := hretry.cached
    constructor
    · exact hread
    · exact hunwritten
    · rw [← (fixed_eq hchecked.fixed).2.2.2.1]
      exact hlive
    · exact ⟨entry, hentry, by rw [hpair], by rw [hpair]⟩

/-- The commit of a rotation: it was the first one. -/
theorem rotation_obligation {t₀ now : Time} {i j : Nat} {a : RefreshToken}
    {g : String → Option GraceEntry} {requestMeta : RequestMeta} {s : String}
    (user : Entity .users) (hwf : v.store.Wf) (hinv : TokenInv v ∧ d.Holds v)
    (hchecked : Checked d p i a now g v)
    (hrotating : Rotating p i a (a.rotatedTo j t₀) s requestMeta now t₀ j v)
    (hlive : now < a.expiresAt) (hwho : d.who p) (hacts : ActsOn p (committed rt) v v')
    (hv' : v' = v.put p (committed rt) (v.store.finish p true)) :
    (TokenInv v' ∧ d.Holds v') ∧ (d.logic rt).Guar (some p) v v' ∧
      Committed d p requestMeta
        { accessToken := AuthService.issueToken rt user
          refreshToken := { raw := s, expiresAt := now + TOKEN_TTL } }
        s (now + TOKEN_TTL) v' := by
  have hdone := rotation_done user hinv.1 hchecked.hash hrotating hv'
  have hread := hchecked.read.other (by simp) hacts.history
  have hunwritten := hchecked.unwritten.other (by simp) hacts.history
  have hwrites := hrotating.writes
  have hold : tokens v = d.old := by
    refine hinv.2.fresh a ?_ hwrites.active
    rw [← hchecked.id, hwrites.old]
  have hnew : d.old j = none := by rw [← hold, hwrites.vacant]
  have hrows (k : Nat) : tokens v' k = if k = j then
      some (successor rt a s requestMeta now t₀) else if k = i then
        some (a.rotatedTo j t₀) else tokens v k := by
    rw [hv', rotation_commit_tokens hwrites]
  have hrow : tokens v' d.id = some (a.rotatedTo j t₀) := by
    rw [← hchecked.id, hrows, if_neg (Nat.ne_of_lt hwrites.order), if_pos rfl]
  have honly (k : Nat) (hk : d.old k = none) (hthere : (tokens v' k).isSome = true) :
      k = j := by
    rw [hrows] at hthere
    split at hthere
    · assumption
    · split at hthere
      · rename_i hki
        rw [← hold, hki, hwrites.old] at hk
        cases hk
      · rw [hold, hk] at hthere
        cases hthere
  have hguar : TokenGuar p v v' := by
    rw [hv']
    exact rotation_commit_guar hwrites
  have hrule : Rule v v' := by
    refine ⟨fun k hk => ?_, ?_⟩
    · rw [hrows]
      split
      · rfl
      · split
        · rfl
        · exact hk
    · rw [hv']
      exact users_commit hrotating.noUsers
  have hholds : d.Holds v' := by
    refine hinv.2.step hacts hguar hrule (by rw [hv']; rfl) (by simp) (by simp) ?_ ?_
    · intro b hb hactive
      rw [hrow] at hb
      rw [← Option.some.inj hb] at hactive
      cases hactive
    · intro k l hk hl hthere hthere'
      rw [honly k hk hthere, honly l hl hthere']
  refine ⟨⟨?_, hholds⟩, ⟨⟨hguar, hrule⟩, fun q hq => ?_⟩, ?_⟩
  · rw [hv']
    exact rotation_commit_inv hwf hinv.1 hwrites
  · rw [← Option.some.inj hq]
    exact hwho
  · constructor
    · exact hunwritten
    · exact ⟨j, _, hnew, by rw [hrows, if_pos rfl]; rfl, born_step hacts.store hwrites.born⟩
    · refine ⟨t₀, ⟨_, hrow, rfl⟩, ?_⟩
      rw [hacts.store.clock]
      exact hwf.started p _ hrotating.opened
    · refine ⟨now, g, hread, ?_, hchecked.early hwrites.active, hrotating.inet, ?_⟩
      · rw [← (fixed_eq hchecked.fixed).2.2.2.1]
        exact hlive
      · exact hguar.mintKept s p hrotating.minted
    · rfl
    · rfl
    · exact hdone.cached

/-- The grace entry of a rotation. -/
theorem grace_obligation {requestMeta : RequestMeta} {r : LoginResult} {s : String}
    {u : Time} (hwf : v.store.Wf) (hinv : TokenInv v ∧ d.Holds v)
    (hcommitted : Committed d p requestMeta r s u v) (hwho : d.who p)
    (hacts : ActsOn p (graceWritten rt (rt.sha256 d.raw) s u) v v')
    (hv' : v' = v.remember p (graceWritten rt (rt.sha256 d.raw) s u) { v.mem with
      graceCache := Function.update v.mem.graceCache (rt.sha256 d.raw) (some
        { successorRaw := s, successorExpiresAt := u,
          timer := v.store.clock + GRACE_MS }) }) :
    (TokenInv v' ∧ d.Holds v') ∧ (d.logic rt).Guar (some p) v v' ∧
      Success d p requestMeta r.refreshToken v' := by
  obtain ⟨hinv', hguar⟩ := grace_step hwf hinv.1 hcommitted.cached hv'
  obtain ⟨r₀, hrevoked, hclock⟩ := hcommitted.revoked
  obtain ⟨hholds, hrule⟩ := hinv.2.grace hwho
    (fun s u hwrote => hcommitted.unwritten s u hwrote.2) hcommitted.rotator hrevoked
    hclock hv'
  obtain ⟨now, g, hrotated⟩ := hcommitted.rotated
  refine ⟨⟨hinv', hholds⟩, ⟨⟨hguar, hrule⟩, fun q hq => ?_⟩, now, g, Or.inl ⟨?_, ?_⟩⟩
  · rw [← Option.some.inj hq]
    exact hwho
  · exact
      { hrotated with
        read := hrotated.read.other (by simp) hacts.history
        minted := hguar.mintKept _ p hrotated.minted }
  · refine hcommitted.unwritten.grace ?_
    rw [hcommitted.raw, hcommitted.expiresAt]
    exact hacts.history

/-- Why a rolled back call has failed. -/
theorem failure_of_rejected {now : Time} {i : Nat} {a : RefreshToken}
    {g : String → Option GraceEntry} {requestMeta : RequestMeta}
    (hchecked : Checked d p i a now g v)
    (hreason : a.expiresAt ≤ now ∨
      (a.revokedAt.isSome = true ∧
        (¬ ((g (rt.sha256 d.raw)).isSome = true ∧
            AuthService.withinGraceWindow a now = true ∧
            a.userAgent = requestMeta.userAgent) ∨ ¬ True)) ∨
      (a.revokedAt = none ∧ @Unlucky rt requestMeta True v)) : Failure d p requestMeta v := by
  obtain ⟨-, -, -, hexpires, hagent⟩ := fixed_eq hchecked.fixed
  refine ⟨hchecked.unwritten, now, g, hchecked.read, ?_⟩
  rcases hreason with hlate | ⟨hrevoked, hmiss⟩ | ⟨hactive, hunlucky⟩
  · exact Or.inl (by rw [← hexpires]; exact hlate)
  · obtain ⟨r, hr⟩ := Option.isSome_iff_exists.mp hrevoked
    refine Or.inr (Or.inl ⟨r, hchecked.revoked r hr, ?_⟩)
    have hmiss' := hmiss.resolve_right fun hnot => hnot trivial
    simp only [AuthService.withinGraceWindow, hr, Option.any_some, decide_eq_true_eq,
      hagent] at hmiss'
    cases hentry : g (rt.sha256 d.raw) with
    | none => exact Or.inl rfl
    | some entry =>
        rw [hentry] at hmiss'
        rcases Nat.lt_or_ge now (r + GRACE_MS) with hwithin | hover
        · exact Or.inr (Or.inr fun hsame => hmiss' ⟨rfl, hwithin, hsame⟩)
        · exact Or.inr (Or.inl hover)
  · refine Or.inr (Or.inr ⟨hchecked.early hactive, ?_⟩)
    rcases hunlucky with hcollision | hinet | hnot
    · exact Or.inl hcollision
    · exact Or.inr hinet
    · exact absurd trivial hnot

/-- The outline of a call in a duel. -/
def refreshProof (d : Duel) (p : Pid) (requestMeta : RequestMeta) :
    RefreshProof (d.logic rt) p d.raw requestMeta where
  start := fun v => d.Presented v ∧ Unread p v ∧ Unwritten p d v
  checked := Checked d p
  rotated := Committed d p requestMeta
  success := fun r => Success d p requestMeta r.refreshToken
  failure := Failure d p requestMeta
  presented := some d.id
  owner := True
  startContext := context_start
  checkedContext := context_checked
  rotatedStable := stable_committed requestMeta
  successStable := fun r => stable_success requestMeta r.refreshToken
  failureStable := stable_failure requestMeta
  there := fun v i hstart hi => by
    rw [← Option.some.inj hi]
    exact hstart.1
  known := fun i a now g v hchecked _ => by
    rw [(fixed_eq hchecked.fixed).1]
    exact hchecked.owner
  turn := fun v v' t₀ i a hwf hinv hstart hlocks hfound hrun hacts hv' =>
    turn_obligation hwf hinv hstart hlocks hfound hrun hacts hv'
  retried := fun v v' t₀ i a now g r hwf hinv hchecked hlocks _ hretry hlive hrun hacts
      hv' =>
    retried_obligation hwf hinv hchecked hlocks hretry hlive hrun hacts hv'
  rotation := fun v v' t₀ i a now g user s j hwf hinv hchecked hrotating hlive hrun hacts
      hv' =>
    rotation_obligation user hwf hinv hchecked hrotating hlive hrun hacts hv'
  grace := fun v v' r s u hwf hinv hcommitted hrun hacts hv' =>
    grace_obligation hwf hinv hcommitted hrun hacts hv'
  missing := fun v _ hnone _ => by cases hnone
  rejected := fun v i a now g hchecked _ hreason => failure_of_rejected hchecked hreason

/-- How a call of a duel ends. -/
def Post (d : Duel) (p : Pid) (req : Request) (out : Except AppError Response)
    (v : BackendView rt) : Prop :=
  ∀ requestMeta, d.who p → req = .refresh d.raw requestMeta →
    match out with
    | .ok (.session r) => Success d p requestMeta r.refreshToken v
    | .ok _ => False
    | .error _ => Failure d p requestMeta v

variable {w₀ w : BackendWorld rt} {i : Nat} {a : RefreshToken} {raw : String}

/-- Two calls that have just arrived join a duel over the active token `a`. -/
def joined (w₀ : BackendWorld rt) (raw : String) (i : Nat) (a : RefreshToken) : Duel where
  who := fun p => p = w₀.procs.length ∨ p = w₀.procs.length + 1
  raw := raw
  id := i
  row := a
  old := tokens w₀.view

theorem unused_of_who (hverified : (tokenLogic rt).Verified (fun _ _ => True) tokenPost w₀)
    (hwho : (joined w₀ raw i a).who p) : Unused p w₀.view := by
  refine (hverified.fresh p ?_).1
  rcases hwho with rfl | rfl
  · exact le_refl _
  · exact Nat.le_succ _

/-- A duel begins without an entry for its token. -/
theorem joined_holds (hverified : (tokenLogic rt).Verified (fun _ _ => True) tokenPost w₀)
    (hfree : CollisionFree w₀.view) (hrow : tokens w₀.view i = some a)
    (hhash : a.tokenHash = rt.sha256 raw) (hactive : a.revokedAt = none)
    (howner : (w₀.view.store.stored Tbl.users a.userId).isSome = true) :
    (joined w₀ raw i a).Holds w₀.view := by
  have hinv : TokenInv w₀.view := hverified.inv
  constructor
  · exact ⟨a, hrow, rfl⟩
  · exact howner
  · exact fun _ _ _ => rfl
  · intro j k hj hk hthere hthere'
    have hnone : tokens w₀.view j = none := hj
    rw [hnone] at hthere
    cases hthere
  · intro y s u hwrote
    exact absurd hwrote.2 ((unused_of_who hverified hwrote.1).silent _)
  · intro entry hentry
    obtain ⟨i', j, q, c, r, b, hc, hhash', -, -, -, -, hrotated⟩ := hinv.cached _ entry hentry
    obtain ⟨x, e, he, hfixed⟩ := hinv.bornAs i a hrow
    have hi : i' = i := hinv.hashedOnce hfree i' i q x c e hc he
      (hhash'.trans (hhash.symm.trans (fixed_eq hfixed).2.2.1.symm))
    subst hi
    rcases hrotated with hgone | ⟨f, hf, hrevoked, -⟩
    · rw [hgone.2.1] at hrow
      cases hrow
    · rw [hrow] at hf
      rw [← Option.some.inj hf, hactive] at hrevoked
      cases hrevoked
  · intro later x t g earlier hsplit hx
    refine absurd ?_ ((unused_of_who hverified hx).silent (clockRead rt t g))
    rw [hsplit]
    exact List.mem_append_right _ List.mem_cons_self

theorem joined_called (hverified : (tokenLogic rt).Verified (fun _ _ => True) tokenPost w₀)
    (hholds : (joined w₀ raw i a).Holds w₀.view) (hrow : tokens w₀.view i = some a)
    (hhash : a.tokenHash = rt.sha256 raw) (meta₁ meta₂ : RequestMeta) :
    ((joined w₀ raw i a).logic rt).Called (handler rt) (joined w₀ raw i a).who
      (joined w₀ raw i a).Post w₀ [.refresh raw meta₁, .refresh raw meta₂] := by
  refine ⟨hverified.wf, ⟨hverified.inv, hholds⟩, fun p hp => (hverified.fresh p hp).1,
    fun _ _ _ hrun => hrun, ?_, ?_, ?_⟩
  · rintro p (rfl | rfl) <;> simp
  · intro k req hreq hwho
    obtain ⟨requestMeta, rfl⟩ : ∃ requestMeta, req = .refresh raw requestMeta := by
      match k, hreq with
      | 0, hreq => exact ⟨meta₁, (Option.some.inj hreq).symm⟩
      | 1, hreq => exact ⟨meta₂, (Option.some.inj hreq).symm⟩
    have hunused := unused_of_who hverified hwho
    have hrule : ((joined w₀ raw i a).logic rt).Triple (w₀.procs.length + k)
        (fun v => ((joined w₀ raw i a).Presented v ∧ Unread (w₀.procs.length + k) v ∧
          Unwritten (w₀.procs.length + k) (joined w₀ raw i a) v) ∧
            Barren (w₀.procs.length + k) v)
        (handler rt (.refresh raw requestMeta))
        ((joined w₀ raw i a).Post (w₀.procs.length + k) (.refresh raw requestMeta)) := by
      have hcall := (@refreshProof rt (joined w₀ raw i a) (w₀.procs.length + k)
        requestMeta).refresh_rule (overTokens rt _) fun _ => trivial
      refine Triple.andThen hcall (fun r => ?_) fun e v hfailure => ?_
      · refine Triple.ret (stable_success requestMeta r.refreshToken) ?_
        intro v hsuccess requestMeta' _ hreq
        cases hreq
        exact hsuccess
      · intro requestMeta' _ hreq
        cases hreq
        exact hfailure
    refine hrule w₀.view hverified.wf ⟨hverified.inv, hholds⟩ ⟨⟨?_, ?_, ?_⟩, ?_⟩
    · exact ⟨a, hrow, hhash⟩
    · exact fun t g => hunused.silent _
    · exact fun s u => hunused.silent _
    · exact barren_of_unused hunused
  · exact fun p req out v hother requestMeta hwho => absurd hwho hother

/-! ### Both calls -/

section Both

variable {first second : Pid} {meta₁ meta₂ : RequestMeta} {r₁ r₂ : RefreshTokenPair}
  {t₁ t₂ : Time} {g₁ g₂ : String → Option GraceEntry} {later earlier : History rt}

theorem ReadAt.eq {p : Pid} {t now : Time} {g h : String → Option GraceEntry}
    (hread : ReadAt p now g v) (hmem : (p, clockRead rt t h) ∈ v.history) :
    now = t ∧ g = h := by
  obtain ⟨rfl, rfl⟩ := (hread t h).mp hmem
  exact ⟨rfl, rfl⟩

/-- What the later reader has read. -/
theorem Holds.reading (hholds : d.Holds v)
    (hhistory : v.history = later ++ (second, clockRead rt t₂ g₂) :: earlier)
    (hsecond : d.who second) : d.Reading v second t₂ g₂ earlier :=
  hholds.readings later second t₂ g₂ earlier hhistory hsecond

/-- The call that reads the clock first cannot be a retry. -/
theorem Holds.first_rotates (hholds : d.Holds v)
    (hhistory : v.history = later ++ (second, clockRead rt t₂ g₂) :: earlier)
    (hfirst : (first, clockRead rt t₁ g₁) ∈ earlier) (hwho₁ : d.who first)
    (hwho₂ : d.who second) (honly : ∀ y, d.who y → y = first ∨ y = second)
    (hsuccess : Success d first meta₁ r₁ v) :
    (∃ now g, d.Rotated first meta₁ r₁ now g v) ∧ WrittenAs first d r₁ v := by
  obtain ⟨now, g, ⟨hrotated, hwritten⟩ | hretried⟩ := hsuccess
  · exact ⟨⟨now, g, hrotated⟩, hwritten⟩
  · obtain ⟨middle, start, rfl⟩ := List.append_of_mem hfirst
    have hmem : (first, clockRead rt t₁ g₁) ∈ v.history := by
      rw [hhistory]
      simp
    obtain ⟨rfl, rfl⟩ := ReadAt.eq hretried.read hmem
    have hsplit : v.history = (later ++ (second, clockRead rt t₂ g₂) :: middle) ++
        (first, clockRead rt now g) :: start := by
      rw [hhistory]
      simp
    have hreading := hholds.readings _ first now g start hsplit hwho₁
    obtain ⟨entry, hentry, -⟩ := hretried.cached
    obtain ⟨y, hwrote⟩ := hreading.found entry hentry
    rcases honly y hwrote.1 with rfl | rfl
    · exact absurd hwrote (hreading.unwritten _ _)
    · -- the other one has not even read the clock
      refine absurd ⟨hwho₂, ?_⟩ ((hholds.reading hhistory hwho₂).unwritten
        entry.successorRaw entry.successorExpiresAt)
      exact List.mem_append_right _ (List.mem_cons_of_mem _ hwrote.2)

/-- The call that reads the clock second finds the entry of the first. -/
theorem Holds.second_retries (hholds : d.Holds v)
    (hhistory : v.history = later ++ (second, clockRead rt t₂ g₂) :: earlier)
    (hwho₂ : d.who second) (honly : ∀ y, d.who y → y = first ∨ y = second)
    (hne : first ≠ second) (hrotated : ∃ now g, d.Rotated first meta₁ r₁ now g v)
    (hsuccess : Success d second meta₂ r₁ v) :
    t₂ < d.row.expiresAt ∧
      ∃ s u, (first, graceWritten rt (rt.sha256 d.raw) s u) ∈ earlier := by
  have hmem : (second, clockRead rt t₂ g₂) ∈ v.history := by
    rw [hhistory]
    simp
  obtain ⟨now, g, ⟨htwice, -⟩ | hretried⟩ := hsuccess
  · obtain ⟨t, h, hfirst⟩ := hrotated
    have hsame := htwice.minted
    rw [hfirst.minted] at hsame
    exact absurd (Option.some.inj hsame) hne
  · obtain ⟨rfl, rfl⟩ := ReadAt.eq hretried.read hmem
    obtain ⟨entry, hentry, -⟩ := hretried.cached
    have hreading := hholds.reading hhistory hwho₂
    obtain ⟨y, hwrote⟩ := hreading.found entry hentry
    rcases honly y hwrote.1 with rfl | rfl
    · exact ⟨hretried.live, _, _, hwrote.2⟩
    · exact absurd hwrote (hreading.unwritten _ _)

/-- A call that has written an entry has rotated. -/
theorem first_written {out : Except AppError Response} {s : String} {u : Time}
    (hpost : d.Post first (.refresh d.raw meta₁) out v) (hwho₁ : d.who first)
    (hwritten : (first, graceWritten rt (rt.sha256 d.raw) s u) ∈ v.history) :
    ∃ r, out = .ok (.session r) ∧ s = r.refreshToken.raw ∧
      u = r.refreshToken.expiresAt := by
  have hend := hpost meta₁ hwho₁ rfl
  match out, hend with
  | .ok (.session r), ⟨now, g, hcase⟩ =>
      rcases hcase with ⟨-, hentries⟩ | hretried
      · exact ⟨r, rfl, (hentries s u).mp hwritten⟩
      · exact absurd hwritten (hretried.unwritten s u)
  | .error _, hfailure => exact absurd hwritten (hfailure.1 s u)

/-- A call that finds the entry of the other one succeeds with its successor. -/
theorem Holds.second_found {out : Except AppError Response} {s : String} {u : Time}
    (hholds : d.Holds v)
    (hhistory : v.history = later ++ (second, clockRead rt t₂ g₂) :: earlier)
    (hwho₁ : d.who first) (hwho₂ : d.who second)
    (hpost : d.Post second (.refresh d.raw meta₂) out v)
    (hagent : d.row.userAgent = meta₂.userAgent)
    (hwithin : ∀ r, d.RevokedAt r v → t₂ < r + GRACE_MS) (hlive : t₂ < d.row.expiresAt)
    (hwritten : (first, graceWritten rt (rt.sha256 d.raw) s u) ∈ earlier) :
    ∃ r, out = .ok (.session r) ∧ s = r.refreshToken.raw ∧
      u = r.refreshToken.expiresAt := by
  have hmem : (second, clockRead rt t₂ g₂) ∈ v.history := by
    rw [hhistory]
    simp
  have hfound : ∃ timer, g₂ (rt.sha256 d.raw) = some
      { successorRaw := s, successorExpiresAt := u, timer := timer } := by
    rcases (hholds.reading hhistory hwho₂).missed first s u ⟨hwho₁, hwritten⟩ with
      hfound | ⟨r, hr, hover⟩
    · exact hfound
    · exact absurd hover (Nat.not_le_of_lt (hwithin r hr))
  obtain ⟨timer, hentry⟩ := hfound
  have hend := hpost meta₂ hwho₂ rfl
  match out, hend with
  | .ok (.session r), ⟨now, g, hcase⟩ =>
      rcases hcase with ⟨hrotated, -⟩ | hretried
      · obtain ⟨rfl, rfl⟩ := ReadAt.eq hrotated.read hmem
        have hearly := hrotated.early
        rw [hentry] at hearly
        cases hearly
      · obtain ⟨rfl, rfl⟩ := ReadAt.eq hretried.read hmem
        obtain ⟨entry, hsome, hraw, hexpires⟩ := hretried.cached
        rw [hentry] at hsome
        have hsame := Option.some.inj hsome
        subst hsame
        exact ⟨r, rfl, hraw.symm, hexpires.symm⟩
  | .error _, ⟨_, now, g, hread, hreason⟩ =>
      obtain ⟨rfl, rfl⟩ := ReadAt.eq hread hmem
      rcases hreason with hlate | ⟨r, hr, hnone | hover | hother⟩ | ⟨hnone, -⟩
      · exact absurd hlate (Nat.not_le_of_lt hlive)
      · rw [hentry] at hnone
        cases hnone
      · exact absurd hover (Nat.not_le_of_lt (hwithin r hr))
      · exact absurd hagent hother
      · rw [hentry] at hnone
        cases hnone

end Both

end Duel

open Duel in
/-- Two refreshes of one active token both succeed with the same successor exactly
when the call that reads the clock second does so before the token expires, and
after the other one has written its grace entry. -/
theorem duplicate_refresh_benign_iff {w₀ w : BackendWorld rt} {raw : String} {i : Nat}
    {a : RefreshToken} {first second : Pid} {meta₁ meta₂ : RequestMeta} {t₁ t₂ : Time}
    {g₁ g₂ : String → Option GraceEntry} {later earlier : History rt}
    {out₁ out₂ : Except AppError Response}
    (hreach : Runs rt (boot rt seed) w₀) (hrow : tokens w₀.view i = some a)
    (hhash : a.tokenHash = rt.sha256 raw) (hactive : a.revokedAt = none)
    (howner : (w₀.view.store.stored Tbl.users a.userId).isSome = true)
    (hagent : a.userAgent = meta₂.userAgent)
    (hpair : first = w₀.procs.length ∧ second = w₀.procs.length + 1 ∨
      first = w₀.procs.length + 1 ∧ second = w₀.procs.length)
    (hcalls : ∃ m m', Reach (handler rt)
      (Scope.only fun p => p = w₀.procs.length ∨ p = w₀.procs.length + 1)
      (w₀.call (handler rt) [.refresh raw m, .refresh raw m']) w)
    (hfirst : w.Ended first (.refresh raw meta₁) out₁)
    (hsecond : w.Ended second (.refresh raw meta₂) out₂)
    (hhistory : w.view.history = later ++ (second, clockRead rt t₂ g₂) :: earlier)
    (hearlier : (first, clockRead rt t₁ g₁) ∈ earlier)
    (hwithin : ∀ b r, tokens w.view i = some b → b.revokedAt = some r → t₂ < r + GRACE_MS)
    (hfree : CollisionFree w.view) :
    (∃ s₁ s₂, out₁ = .ok (.session s₁) ∧ out₂ = .ok (.session s₂) ∧
        s₁.refreshToken = s₂.refreshToken) ↔
      t₂ < a.expiresAt ∧ ∃ s u, (first, graceWritten rt (rt.sha256 raw) s u) ∈ earlier := by
  obtain ⟨m, m', hcalls⟩ := hcalls
  have hverified := reached_verified hreach
  have hfree₀ : CollisionFree w₀.view := by
    refine hfree.earlier fun s q hs => ?_
    exact (runs_verified hverified (runs_of_calls hcalls)).2.preserves
      (persistent_minted (Mes.overTokens rt) s q) hs
  have hholds₀ := joined_holds hverified hfree₀ hrow hhash hactive howner
  obtain ⟨hended, -⟩ := (joined_called hverified hholds₀ hrow hhash m m').reach hcalls
  have hholds : (joined w₀ raw i a).Holds w.view := hended.inv.2
  have hwho₁ : (joined w₀ raw i a).who first := by
    rcases hpair with ⟨h, -⟩ | ⟨h, -⟩
    · exact Or.inl h
    · exact Or.inr h
  have hwho₂ : (joined w₀ raw i a).who second := by
    rcases hpair with ⟨-, h⟩ | ⟨-, h⟩
    · exact Or.inr h
    · exact Or.inl h
  have honly (y : Pid) (hy : (joined w₀ raw i a).who y) : y = first ∨ y = second := by
    rcases hpair with ⟨rfl, rfl⟩ | ⟨rfl, rfl⟩
    · exact hy
    · exact hy.symm
  have hne : first ≠ second := by
    rcases hpair with ⟨rfl, rfl⟩ | ⟨rfl, rfl⟩
    · exact Nat.ne_of_lt (Nat.lt_succ_self _)
    · exact Nat.ne_of_gt (Nat.lt_succ_self _)
  have hpost₁ := hended.ended hfirst
  have hpost₂ := hended.ended hsecond
  constructor
  · rintro ⟨s₁, s₂, rfl, rfl, hsame⟩
    obtain ⟨hrotated, -⟩ := hholds.first_rotates hhistory hearlier hwho₁ hwho₂ honly
      (hpost₁ meta₁ hwho₁ rfl)
    have hsuccess : Success (joined w₀ raw i a) second meta₂ s₂.refreshToken w.view :=
      hpost₂ meta₂ hwho₂ rfl
    rw [← hsame] at hsuccess
    exact hholds.second_retries hhistory hwho₂ honly hne hrotated hsuccess
  · rintro ⟨hlive, s, u, hwritten⟩
    have hwritten' : (first, graceWritten rt (rt.sha256 raw) s u) ∈ w.view.history := by
      rw [hhistory]
      exact List.mem_append_right _ (List.mem_cons_of_mem _ hwritten)
    obtain ⟨s₁, rfl, hraw, hexpires⟩ := first_written hpost₁ hwho₁ hwritten'
    obtain ⟨s₂, rfl, hraw', hexpires'⟩ := hholds.second_found hhistory hwho₁ hwho₂ hpost₂
      hagent (fun r hr => hr.elim fun b hb => hwithin b r hb.1 hb.2) hlive hwritten
    refine ⟨s₁, s₂, rfl, rfl, ?_⟩
    have hpairs (pair pair' : RefreshTokenPair) (hraw : pair.raw = pair'.raw)
        (hexpires : pair.expiresAt = pair'.expiresAt) : pair = pair' := by
      cases pair
      simp_all
    exact hpairs _ _ (hraw.symm.trans hraw') (hexpires.symm.trans hexpires')

/-! ### The second call between the commit and the grace entry -/

/-- Whether an event is a reading of the clock by `p` at the time `t`. -/
def readsClock (p : Pid) (t : Time) : Pid × Event (schema rt) (platform rt) → Bool
  | (q, ⟨.node .turn, answer⟩) => q == p && answer.1 == t
  | _ => false

theorem readsClock_cases {p : Pid} {t : Time} {e : Pid × Event (schema rt) (platform rt)}
    (hreads : readsClock p t e = true) : ∃ g, e = (p, clockRead rt t g) := by
  unfold readsClock at hreads
  split at hreads
  · rename_i q answer
    simp only [Bool.and_eq_true, beq_iff_eq] at hreads
    obtain ⟨rfl, rfl⟩ := hreads
    exact ⟨answer.2, rfl⟩
  · cases hreads

/-- `second` reads the clock, at the time `t`, after `first` has. -/
def readsAfter (first second : Pid) (t : Time)
    (history : List (Pid × Event (schema rt) (platform rt))) : Bool :=
  match history.dropWhile fun e => !readsClock second t e with
  | [] => false
  | _ :: earlier => earlier.any (readsClock first t)

theorem readsAfter_cases {first second : Pid} {t : Time}
    {history : List (Pid × Event (schema rt) (platform rt))}
    (hreads : readsAfter first second t history = true) :
    ∃ later g₂ earlier g₁, history = later ++ (second, clockRead rt t g₂) :: earlier ∧
      (first, clockRead rt t g₁) ∈ earlier := by
  unfold readsAfter at hreads
  split at hreads
  · cases hreads
  · rename_i e earlier hdrop
    have hsplit := List.takeWhile_append_dropWhile
      (p := fun e => !readsClock second t e) (l := history)
    have hhead : readsClock second t e = true := by
      have hnot := List.head?_dropWhile_not (fun e => !readsClock second t e) history
      rw [hdrop] at hnot
      simpa using hnot
    obtain ⟨g₂, rfl⟩ := readsClock_cases hhead
    obtain ⟨e', hmem, hreads'⟩ := List.any_eq_true.mp hreads
    obtain ⟨g₁, rfl⟩ := readsClock_cases hreads'
    exact ⟨_, g₂, earlier, g₁, by rw [← hdrop, hsplit], hmem⟩

/-- The first refresh commits, the second runs to its end, and then the first one
writes its grace entry. -/
def sampleDuel : List (Action (platform sampleRuntime)) :=
  operations 1 10 "T2" ++ (operations 2 7 "" ++ operations 1 1 "")

theorem sample_duel : ∃ w₀ w : BackendWorld sampleRuntime,
    Runs sampleRuntime (boot sampleRuntime sampleSeed) w₀ ∧ w₀.procs.length = 1 ∧
      tokens w₀.view 0 = some (sampleToken "T1") ∧
      (w₀.view.store.stored Tbl.users 0).isSome = true ∧
      Reach (handler sampleRuntime)
        (Scope.only fun p => p = w₀.procs.length ∨ p = w₀.procs.length + 1)
        (w₀.call (handler sampleRuntime)
          [.refresh "T1" sampleMeta, .refresh "T1" sampleMeta]) w ∧
      w.Ended 1 (.refresh "T1" sampleMeta) (.ok (.session (sampleSession "T2"))) ∧
      w.Ended 2 (.refresh "T1" sampleMeta) (.error (.domain (.refreshToken .reused))) ∧
      tokens w.view 0 = some
        { sampleToken "T1" with revokedAt := some 0, replacedById := some 1 } ∧
      w.view.store.clock = 0 ∧ readsAfter 1 2 0 w.view.history = true := by
  have hrun : ((boot sampleRuntime sampleSeed).run (handler sampleRuntime)
      sampleSignup).any (fun w₀ => ((w₀.call (handler sampleRuntime)
        [.refresh "T1" sampleMeta, .refresh "T1" sampleMeta]).run (handler sampleRuntime)
          sampleDuel).any fun w => decide (w₀.procs.length = 1 ∧
            tokens w₀.view 0 = some (sampleToken "T1") ∧
            (w₀.view.store.stored Tbl.users 0).isSome = true ∧
            w.status 1 = some (.refresh "T1" sampleMeta,
              some (.ok (.session (sampleSession "T2")))) ∧
            w.status 2 = some (.refresh "T1" sampleMeta,
              some (.error (.domain (.refreshToken .reused)))) ∧
            tokens w.view 0 = some
              { sampleToken "T1" with revokedAt := some 0, replacedById := some 1 } ∧
            w.view.store.clock = 0 ∧ readsAfter 1 2 0 w.view.history = true)) = true := by
    decide
  obtain ⟨w₀, hw₀, hrest⟩ := (Option.any_eq_true _ _).mp hrun
  obtain ⟨w, hw, hfacts⟩ := (Option.any_eq_true _ _).mp hrest
  obtain ⟨hlength, hrow, howner, hfirst, hsecond, hold, hclock, hreads⟩ :=
    of_decide_eq_true hfacts
  refine ⟨w₀, w, runs_of_run hw₀, hlength, hrow, howner, ?_,
    World.ended_of_status hfirst, World.ended_of_status hsecond, hold, hclock, hreads⟩
  refine World.reach_of_run ?_ hw
  rw [hlength]
  intro action haction
  simp only [sampleDuel, List.mem_append] at haction
  rcases haction with h | h | h
  · exact operations_admitted (Or.inl rfl) action h
  · exact operations_admitted (Or.inr rfl) action h
  · exact operations_admitted (Or.inl rfl) action h

/-- A duplicate refresh is not always benign: while no time passes at all, the
second call reports that its token was reused. -/
theorem duplicate_refresh_reused : ∃ w₀ w : BackendWorld sampleRuntime,
    Runs sampleRuntime (boot sampleRuntime sampleSeed) w₀ ∧
      tokens w₀.view 0 = some (sampleToken "T1") ∧
      (w₀.view.store.stored Tbl.users (sampleToken "T1").userId).isSome = true ∧
      (sampleToken "T1").userAgent = sampleMeta.userAgent ∧
      Reach (handler sampleRuntime)
        (Scope.only fun p => p = w₀.procs.length ∨ p = w₀.procs.length + 1)
        (w₀.call (handler sampleRuntime)
          [.refresh "T1" sampleMeta, .refresh "T1" sampleMeta]) w ∧
      w.view.store.clock < (sampleToken "T1").expiresAt ∧
      (∃ r, (∃ b, tokens w.view 0 = some b ∧ b.revokedAt = some r) ∧
        w.view.store.clock < r + GRACE_MS) ∧
      (∃ s, w.Ended w₀.procs.length (.refresh "T1" sampleMeta) (.ok (.session s))) ∧
      w.Ended (w₀.procs.length + 1) (.refresh "T1" sampleMeta)
        (.error (.domain (.refreshToken .reused))) := by
  obtain ⟨w₀, w, hreach, hlength, hrow, howner, hcalls, hfirst, hsecond, hold, hclock, -⟩ :=
    sample_duel
  refine ⟨w₀, w, hreach, hrow, howner, rfl, hcalls, ?_, ⟨0, ⟨_, hold, rfl⟩, ?_⟩, ?_, ?_⟩
  · rw [hclock]
    decide
  · rw [hclock]
    decide
  · rw [hlength]
    exact ⟨_, hfirst⟩
  · rw [hlength]
    exact hsecond

theorem sample_duplicate_refresh : ∃ (out₁ out₂ : Except AppError Response)
    (earlier : List (Pid × Event (schema sampleRuntime) (platform sampleRuntime))),
    (∃ s₁ s₂, out₁ = .ok (.session s₁) ∧ out₂ = .ok (.session s₂) ∧
        s₁.refreshToken = s₂.refreshToken) ↔
      0 < (sampleToken "T1").expiresAt ∧ ∃ s u,
        (1, graceWritten sampleRuntime (sampleRuntime.sha256 "T1") s u) ∈ earlier := by
  obtain ⟨w₀, w, hreach, hlength, hrow, howner, hcalls, hfirst, hsecond, hold, hclock, hreads⟩ :=
    sample_duel
  obtain ⟨later, g₂, earlier, g₁, hhistory, hearlier⟩ := readsAfter_cases hreads
  refine ⟨_, _, earlier, duplicate_refresh_benign_iff hreach hrow rfl rfl howner rfl
    (Or.inl ⟨hlength.symm, by rw [hlength]⟩) ⟨_, _, hcalls⟩ hfirst hsecond hhistory hearlier
    ?_ (sample_collisionFree w.view)⟩
  intro b r hb hr
  rw [hold] at hb
  rw [← Option.some.inj hb] at hr
  rw [← Option.some.inj hr]
  decide

end Mes
