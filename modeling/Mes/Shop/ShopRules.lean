import Mes.Shop.ShopLogic

/-!
Proof rules of the shop. A statement before the commit changes nothing that others
see, so a rule asks only for the next assertion. `Trail` is what a request knows of
its own history while it has changed nothing, and the frame rule covers every
request that writes none of the four tables a sale and a redemption write.
-/

namespace Mes

open Transact Transact.Logic

variable {rt : Runtime} {L : Logic (schema rt) (platform rt)} {p : Pid}

/-- `p` has changed nothing so far, and has read `ss` on the pool. -/
structure Trail (p : Pid) (ss : List (Snapshot (schema rt))) (v : BackendView rt) :
    Prop where
  harmless : Harmless p v
  reads : reads p v = ss

theorem stable_trail (ss : List (Snapshot (schema rt))) : L.Stable p (Trail p ss) :=
  fun actor v v' hactor hstep htrail =>
    ⟨stable_harmless actor v v' hactor hstep htrail.harmless,
      stable_reads ss actor v v' hactor hstep htrail.reads⟩

theorem Trail.grow {ss : List (Snapshot (schema rt))} {v v' : BackendView rt}
    {e : Event (schema rt) (platform rt)} (htrail : Trail p ss v) (he : ¬ Durable e)
    (hquery : poolAnswer e = none) (hhistory : v'.history = (p, e) :: v.history) :
    Trail p ss v' := by
  refine ⟨htrail.harmless.grow he hhistory, ?_⟩
  rw [reads_grow hhistory, htrail.reads, hquery, Option.toList_none, List.append_nil]

theorem Trail.read {ss : List (Snapshot (schema rt))} {v : BackendView rt}
    {s : Snapshot (schema rt)} (htrail : Trail p ss v) (st : Store (schema rt)) :
    Trail p (ss ++ [s]) (v.put p ⟨.sql (.read .pool), .ok s⟩ st) := by
  refine ⟨htrail.harmless.grow (e := ⟨.sql (.read .pool), .ok s⟩)
    (fun hdurable => hdurable) rfl, ?_⟩
  rw [reads_grow rfl, htrail.reads]
  rfl

theorem trail_of_unused {v : BackendView rt} (hunused : Unused p v) : Trail p [] v :=
  ⟨harmless_of_silent hunused.silent, reads_of_silent hunused.silent⟩

/-- An operation on the memory that leaves the queue alone. -/
theorem quiet_node_rule (hL : OverShop L) {op : NodeOp} {A : BackendView rt → Prop}
    {R : op.Res → BackendView rt → Prop} {E : AppError → BackendView rt → Prop}
    (hstable : L.Stable p A) (hR : ∀ res, L.Stable p (R res))
    (hquiet : ∀ q now choice m m' res, Memory.exec rt q now op choice m = some (res, m') →
      m'.invitationEmailQueue = m.invitationEmailQueue)
    (hnext : ∀ v choice res mem, A v →
      Memory.exec rt p v.store.clock op choice v.mem = some (res, mem) →
        R res (v.remember p ⟨.node op, res⟩ mem)) :
    L.Triple p A (nodeCall op) (ends R E) := by
  refine Triple.node hstable ?_ fun res => Triple.ret (hR res) fun _ hR => hR
  intro v choice res mem v' hwf hinv hA hop hrun hacts hv'
  subst hv'
  obtain ⟨hinv', hguar⟩ := hL.minor p v _ hwf hinv ⟨_, hacts⟩ rfl
    (hquiet _ _ _ _ _ _ hop) hrun
  exact ⟨hinv', hguar, hnext v choice res mem hA hop⟩

theorem mint_queue {m m' : Memory} {q : Pid} {text res : String}
    (hmint : m.mint q text = some (res, m')) :
    m'.invitationEmailQueue = m.invitationEmailQueue := by
  obtain ⟨-, -, rfl⟩ := Memory.mint_cases hmint
  rfl

theorem randomBytes_quiet_rule (hL : OverShop L) {A : BackendView rt → Prop}
    {E : AppError → BackendView rt → Prop} (hstable : L.Stable p A)
    (hkeeps : ∀ v raw mem, A v → A (v.remember p ⟨.node .randomBytes, raw⟩ mem)) :
    L.Triple p A randomBytes (ends (fun _ => A) E) :=
  quiet_node_rule hL hstable (fun _ => hstable)
    (fun _ _ _ _ _ _ hmint => mint_queue hmint) fun v _ raw mem hA _ => hkeeps v raw mem hA

theorem turn_quiet_rule (hL : OverShop L) {A : BackendView rt → Prop}
    {E : AppError → BackendView rt → Prop} (hstable : L.Stable p A)
    (hkeeps : ∀ v answer mem, A v → A (v.remember p ⟨.node .turn, answer⟩ mem)) :
    L.Triple p A turn (ends (fun _ => A) E) :=
  quiet_node_rule hL hstable (fun _ => hstable)
    (fun _ _ _ _ _ _ hturn => congrArg Memory.invitationEmailQueue
      (congrArg Prod.snd (Option.some.inj hturn)).symm)
    fun v _ answer mem hA _ => hkeeps v answer mem hA

theorem hash_quiet_rule (hL : OverShop L) {plain : String} {A : BackendView rt → Prop}
    {E : AppError → BackendView rt → Prop} (hstable : L.Stable p A)
    (hkeeps : ∀ v digest mem, A v → A (v.remember p ⟨.node (.argon2Hash plain), digest⟩ mem)) :
    L.Triple p A (AuthService.hashPassword plain)
      (ends (fun digest v => (∃ salt, digest = rt.argon2Hash plain salt) ∧ A v) E) :=
  quiet_node_rule hL hstable (fun _ => (Stable.const _).and hstable)
    (fun _ _ _ _ _ _ hhash => congrArg Memory.invitationEmailQueue
      (congrArg Prod.snd (Option.some.inj hhash)).symm)
    fun v choice digest mem hA hhash =>
      ⟨⟨choice.text, (congrArg Prod.fst (Option.some.inj hhash)).symm⟩, hkeeps v digest mem hA⟩

/-- An insert into the open transaction. -/
theorem save_rule (hL : OverShop L) {t : Tbl} {row : Time → t.Row} {t₀ : Time}
    {A : BackendView rt → Prop} {R : Nat → BackendView rt → Prop}
    {E : SqlError → BackendView rt → Prop} (hstable : L.Stable p A)
    (hinside : ∀ v, A v → ∃ W, Inside p t₀ W v) (hR : ∀ i, L.Stable p (R i))
    (hE : ∀ e, L.Stable p (E e))
    (haccepted : ∀ v W, v.store.Wf → L.Inv v → A v → Inside p t₀ W v →
      v.store.Accepts p t (row t₀) →
        R (v.store.next t) (v.put p
          ⟨.sql (.insert t row), .ok (v.store.next t, row t₀)⟩ (v.store.push p t (row t₀))))
    (hrefused : ∀ v v' W e, v.store.Wf → L.Inv v → A v → Inside p t₀ W v →
      v.store.Refuses p t (row t₀) e → L.scope.run v p v' →
      v' = v.put p ⟨.sql (.insert t row), .error e⟩
        (v.store.setTx p (some { startedAt := t₀, aborted := true })) → E e v') :
    L.Triple p A (BaseRepository.save t row)
      (ends (fun entity v => entity.2 = row t₀ ∧ R entity.1 v)
        fun error v => ∃ e, error = .queryFailed e ∧ E e v) := by
  refine Triple.insert (R := R) (E := E) hstable hinside hrefused ?_ ?_ ?_
  · intro v v' e W hwf hinv hA hin haccepts hrun hacts hevent hv'
    have hvacant := (hwf.vacant t _ (le_refl _)).1
    subst hv'
    obtain ⟨hinv', hguar⟩ := hL.minor p v _ hwf hinv ⟨e, hacts⟩
      (Store.push_stored v.store p t _ hvacant) rfl hrun
    subst hevent
    exact ⟨hinv', hguar, haccepted v W hwf hinv hA hin haccepts⟩
  · exact fun i => Triple.ret (hR i) fun v hR => ⟨rfl, hR⟩
  · exact fun e => Triple.throw (hE e) fun v hE => ⟨e, rfl, hE⟩

/-! ### Transactions that only insert -/

/-- `p` has inserted the rows of `W`, and none of them is committed. -/
structure Inserts (p : Pid) (W : Drafts (schema rt)) (v : BackendView rt) : Prop where
  fresh : ∀ t i x, W t i = some x → v.store.stored t i = none
  born : ∀ t i r, W t i = some (some r) → v.store.born t i = some (p, r)

theorem inserts_nothing (v : BackendView rt) : Inserts p Drafts.empty v where
  fresh := fun t i x hW => by cases hW
  born := fun t i r hW => by cases hW

theorem Inserts.push {W : Drafts (schema rt)} {v : BackendView rt}
    (hinserts : Inserts p W v) (hwf : v.store.Wf) (t : Tbl) (r : t.Row)
    (e : Event (schema rt) (platform rt)) :
    Inserts p (W.set t (v.store.next t) (some r)) (v.put p e (v.store.push p t r)) := by
  have hvacant := (hwf.vacant t _ (le_refl _)).1
  refine ⟨?_, ?_⟩
  · intro t' i x hW
    rw [View.put_store, Store.push_stored v.store p t r hvacant]
    rcases eq_or_ne t' t with rfl | htable
    · rw [Drafts.set_apply] at hW
      split at hW
      · rename_i hrow
        rw [hrow]
        exact hvacant
      · exact hinserts.fresh t' i x hW
    · rw [Drafts.set_other _ _ _ htable] at hW
      exact hinserts.fresh t' i x hW
  · intro t' i r' hW
    rw [View.put_store]
    rcases eq_or_ne t' t with rfl | htable
    · rw [Drafts.set_apply] at hW
      rw [Store.push_born_self]
      split at hW
      · rename_i hrow
        rw [if_pos hrow, Option.some.inj (Option.some.inj hW)]
      · rename_i hrow
        rw [if_neg hrow]
        exact hinserts.born t' i r' hW
    · rw [Drafts.set_other _ _ _ htable] at hW
      rw [Store.push_born_other v.store p t r htable]
      exact hinserts.born t' i r' hW

/-- Nobody else commits or forgets the rows that `p` has inserted. -/
theorem Inserts.step {W : Drafts (schema rt)} {actor : Option Pid} {v v' : BackendView rt}
    (hinserts : Inserts p W v) (hactor : actor ≠ some p) (hstep : L.Step actor v v')
    (hdraft : ∀ t i x, W t i = some x → v.store.draft p t i = some x) : Inserts p W v' := by
  refine ⟨fun t i x hW => ?_, fun t i r hW => hstep.born_kept (hinserts.born t i r hW)⟩
  rw [hstep.stored_locked hactor (hdraft t i x hW)]
  exact hinserts.fresh t i x hW

/-- The open transaction of `p` has inserted the rows of `W` and written nothing
else, and `p` has changed nothing yet. -/
structure Writing (p : Pid) (t₀ : Time) (W : Drafts (schema rt))
    (ss : List (Snapshot (schema rt))) (v : BackendView rt) : Prop
    extends Inserts p W v where
  inside : Inside p t₀ W v
  trail : Trail p ss v

section Writing

variable {t₀ : Time} {W : Drafts (schema rt)} {ss : List (Snapshot (schema rt))}

theorem stable_writing : L.Stable p (Writing p t₀ W ss) := by
  intro actor v v' hactor hstep hwriting
  refine ⟨hwriting.toInserts.step hactor hstep fun t i x hW => ?_,
    stable_inside t₀ W actor v v' hactor hstep hwriting.inside,
    stable_trail ss actor v v' hactor hstep hwriting.trail⟩
  rw [hwriting.inside.2, hW]

theorem writing_begin {v : BackendView rt} (hidle : Idle p v) (htrail : Trail p ss v) :
    Writing p v.store.clock Drafts.empty ss (v.put p ⟨.sql .begin, ()⟩ (v.store.setTx p
      (some { startedAt := v.store.clock, aborted := false }))) where
  toInserts := inserts_nothing _
  inside := ⟨Store.setTx_tx_self v.store p _, hidle.2⟩
  trail := htrail.grow (e := ⟨.sql .begin, ()⟩) (fun hdurable => hdurable) rfl rfl

theorem Writing.remember {v : BackendView rt} (hwriting : Writing p t₀ W ss v)
    {e : Event (schema rt) (platform rt)} (mem : Memory) (he : ¬ Durable e)
    (hquery : poolAnswer e = none) : Writing p t₀ W ss (v.remember p e mem) where
  inside := hwriting.inside
  fresh := hwriting.fresh
  born := hwriting.born
  trail := hwriting.trail.grow he hquery rfl

theorem Writing.push {v : BackendView rt} (hwriting : Writing p t₀ W ss v)
    (hwf : v.store.Wf) (t : Tbl) (r : t.Row) {e : Event (schema rt) (platform rt)}
    (he : ¬ Durable e) (hquery : poolAnswer e = none) :
    Writing p t₀ (W.set t (v.store.next t) (some r)) ss
      (v.put p e (v.store.push p t r)) :=
  ⟨hwriting.toInserts.push hwf t r e, inside_push hwriting.inside e t r,
    hwriting.trail.grow he hquery rfl⟩

/-- `ok` is what a refusal of the row tells. -/
theorem insert_rule (hL : OverShop L) {t : Tbl} {row : Time → t.Row}
    {ok : SqlError → Prop}
    (hok : ∀ v e, v.store.Wf → L.Inv v → Writing p t₀ W ss v →
      v.store.Refuses p t (row t₀) e → ok e) :
    L.Triple p (Writing p t₀ W ss) (BaseRepository.save t row)
      (ends (fun entity v => entity.2 = row t₀ ∧
          Writing p t₀ (W.set t entity.1 (some (row t₀))) ss v)
        fun error v => ∃ e, error = .queryFailed e ∧ ok e ∧ Trail p ss v) := by
  refine save_rule (R := fun i => Writing p t₀ (W.set t i (some (row t₀))) ss)
    (E := fun e v => ok e ∧ Trail p ss v) hL stable_writing
    (fun v hwriting => ⟨W, hwriting.inside⟩) (fun i => stable_writing)
    (fun e => (Stable.const _).and (stable_trail ss)) ?_ ?_
  · intro v W' hwf hinv hwriting hin haccepts
    exact hwriting.push hwf t (row t₀)
      (e := ⟨.sql (.insert t row), .ok (v.store.next t, row t₀)⟩)
      (fun hdurable => hdurable) rfl
  · intro v v' W' e hwf hinv hwriting hin hrefuses hrun hv'
    subst hv'
    exact ⟨hok v e hwf hinv hwriting hrefuses,
      hwriting.trail.grow (e := ⟨.sql (.insert t row), .error e⟩)
        (fun hdurable => hdurable) rfl rfl⟩

end Writing

end Mes
