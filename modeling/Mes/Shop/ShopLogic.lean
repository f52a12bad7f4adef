import Mes.Auth.TokenRules
import Mes.Shop.Shop

/-!
The program logic of the shop: the committed tables and the email queue are one
`Shop`, every step of a request either leaves it alone or is one of the shop's own
steps, and the rows change only as `rowVersions` says, which is a fact about every
schedule already. A request enqueues emails for its own invitations only.

`Harmless` and `reads` are what a request can say about itself afterwards: it has
committed and enqueued nothing, and these are the snapshots that it has read.
-/

namespace Mes

open Transact Transact.Logic

variable {rt : Runtime}

/-- The shop behind a view. -/
def shop (v : BackendView rt) : Shop where
  users := v.store.stored Tbl.users
  courses := v.store.stored Tbl.courses
  purchases := v.store.stored Tbl.purchases
  invitations := v.store.stored Tbl.invitations
  idempotencyKeys := v.store.stored Tbl.idempotencyKeys
  enrolments := v.store.stored Tbl.enrolments
  queue := v.mem.invitationEmailQueue

theorem shop_same {v v' : BackendView rt} (hstored : v'.store.stored = v.store.stored)
    (hqueue : v'.mem.invitationEmailQueue = v.mem.invitationEmailQueue) :
    shop v' = shop v := by
  unfold shop
  rw [hstored, hqueue]

/-- The emails that `p` enqueues are for invitations that `p` has inserted. -/
def OwnQueue (p : Pid) (v v' : BackendView rt) : Prop :=
  v'.mem.invitationEmailQueue = v.mem.invitationEmailQueue ∨
    ∃ job I, v'.mem.invitationEmailQueue = v.mem.invitationEmailQueue ++ [job] ∧
      v.store.born Tbl.invitations job.invitationId = some (p, I)

/-- What a step may do to the shop. -/
def ShopRule : Option Pid → BackendView rt → BackendView rt → Prop
  | some p, v, v' => (rowVersions rt).Revises p v v' ∧ OwnQueue p v v' ∧
      (shop v' = shop v ∨ Shop.Step rt (shop v) (shop v'))
  | none, v, v' => v'.store.stored = v.store.stored ∧
      v'.mem.invitationEmailQueue = v.mem.invitationEmailQueue

/-- A step that leaves the shop alone keeps to the rule. -/
theorem ShopRule.quiet {p : Pid} {v v' : BackendView rt}
    (hstored : v'.store.stored = v.store.stored)
    (hqueue : v'.mem.invitationEmailQueue = v.mem.invitationEmailQueue) :
    ShopRule (some p) v v' :=
  ⟨fun t i a ha => Or.inl (by rw [hstored, ha]), Or.inl hqueue,
    Or.inl (shop_same hstored hqueue)⟩

theorem fire_queue {now : Time} {timer : String} {m m' : Memory}
    (hfire : m.fire now timer = some m') :
    m'.invitationEmailQueue = m.invitationEmailQueue := by
  obtain ⟨entry, -, -, rfl⟩ := Memory.fire_cases hfire
  rfl

/-- Any requests on the schedules of `sc`, which keep to the versions of the rows. -/
def shopLogic (rt : Runtime) (sc : Scope (schema rt) (platform rt)) :
    Logic (schema rt) (platform rt) where
  scope := ((rowVersions rt).logic sc).layered
  starts := fun _ => True
  Inv := fun v => (shop v).Sound rt
  Guar := fun a v v' => ShopRule a v v' ∧
    ∀ p, a = some p → ((rowVersions rt).logic sc).layered.run v p v'
  spawns := fun _ _ => trivial
  quiet := fun p e v v' _ hinv _ _ hquiet hrun => by
    have hqueue := congrArg Memory.invitationEmailQueue hquiet.mem
    rw [shop_same hquiet.store.stored hqueue]
    exact ⟨hinv, ShopRule.quiet hquiet.store.stored hqueue,
      fun q hq => by rwa [← Option.some.inj hq]⟩
  tick := fun v n _ hinv => ⟨hinv, ⟨rfl, rfl⟩, fun q hq => by cases hq⟩
  fire := fun v timer mem _ hinv hfire => by
    have hqueue := fire_queue hfire
    have hsame : shop { v with mem := mem } = shop v := shop_same rfl hqueue
    rw [hsame]
    exact ⟨hinv, ⟨rfl, hqueue⟩, fun q hq => by cases hq⟩

/-- A logic in which everybody keeps to the rules of the shop. -/
structure OverShop (L : Logic (schema rt) (platform rt)) : Prop where
  inv : ∀ v, L.Inv v → (shop v).Sound rt
  guar : ∀ a v v', L.Guar a v v' → ShopRule a v v'
  run : ∀ v p v', L.scope.run v p v' → (rowVersions rt).Revises p v v'
  minor : ∀ p v v', v.store.Wf → L.Inv v → (∃ e, ActsOn p e v v') →
    v'.store.stored = v.store.stored →
    v'.mem.invitationEmailQueue = v.mem.invitationEmailQueue → L.scope.run v p v' →
      L.Inv v' ∧ L.Guar (some p) v v'

theorem overShop (rt : Runtime) (sc : Scope (schema rt) (platform rt)) :
    OverShop (shopLogic rt sc) where
  inv := fun _ hinv => hinv
  guar := fun _ _ _ hguar => hguar.1
  run := fun _ _ _ hrun => hrun.guar.2
  minor := fun p v v' _ hinv _ hstored hqueue hrun =>
    ⟨by
      show (shop v').Sound rt
      rw [shop_same hstored hqueue]
      exact hinv,
      ShopRule.quiet hstored hqueue, fun q hq => by rwa [← Option.some.inj hq]⟩

/-! ### What stays -/

section Stays

variable {L : Logic (schema rt) (platform rt)} {p : Pid} (hL : OverShop L)
include hL

/-- A committed row stays, and keeps what every allowed version of it has. -/
theorem persistent_row {t : Tbl} {i : Nat} {test : t.Row → Prop}
    (htest : ∀ now a x, t.allows now a x → test a → ∃ b, x = some b ∧ test b) :
    L.Persistent fun v => ∃ r, v.store.stored t i = some r ∧ test r := by
  intro actor v v' hstep hrow
  obtain ⟨r, hr, hholds⟩ := hrow
  have hrule := hL.guar actor v v' hstep.guar
  cases actor with
  | none => exact ⟨r, by rw [hrule.1, hr], hholds⟩
  | some q =>
      rcases hrule.1 t i r hr with hsame | hreplaces
      · exact ⟨r, hsame, hholds⟩
      · obtain ⟨y, -, hallowed⟩ := hreplaces.allowed
        exact htest y.startedAt r _ hallowed hholds

/-- A row of a table that is never updated. -/
theorem persistent_fixed (t : Tbl) (hfixed : ∀ now a x, t.allows now a x → x = some a)
    (i : Nat) (r : t.Row) : L.Persistent fun v => v.store.stored t i = some r := by
  intro actor v v' hstep hrow
  have hkept : L.Persistent fun v => ∃ a, v.store.stored t i = some a ∧ a = r :=
    persistent_row hL fun now a x hallowed ha => ⟨a, hfixed now a x hallowed, ha⟩
  obtain ⟨r', hr', rfl⟩ := hkept actor v v' hstep ⟨r, hrow, rfl⟩
  exact hr'

theorem persistent_purchase (i : Nat) (P : Purchase) :
    L.Persistent fun v => v.store.stored Tbl.purchases i = some P :=
  persistent_fixed hL .purchases (fun _ _ _ hallowed => hallowed) i P

theorem persistent_idempotencyKey (k : Nat) (K : IdempotencyKey) :
    L.Persistent fun v => v.store.stored Tbl.idempotencyKeys k = some K :=
  persistent_fixed hL .idempotencyKeys (fun _ _ _ hallowed => hallowed) k K

theorem persistent_enrolment (k : Nat) (e : Enrolment) :
    L.Persistent fun v => v.store.stored Tbl.enrolments k = some e :=
  persistent_fixed hL .enrolments (fun _ _ _ hallowed => hallowed) k e

theorem persistent_course (i : Nat) (c : Course) :
    L.Persistent fun v => v.store.stored Tbl.courses i = some c :=
  persistent_fixed hL .courses (fun _ _ _ hallowed => hallowed) i c

theorem persistent_user (i : Nat) (email : String) (role : UserRole) :
    L.Persistent fun v => ∃ user, v.store.stored Tbl.users i = some user ∧
      user.email = email ∧ user.role = role :=
  persistent_row hL (fun now a x hallowed ha => by
    obtain ⟨passwordHash, rfl⟩ := hallowed
    exact ⟨_, rfl, ha⟩)

/-- An invitation stays the same but for its redemption and the mark of its email. -/
theorem persistent_invitation (j : Nat) (I : Invitation) :
    L.Persistent fun v => ∃ J, v.store.stored Tbl.invitations j = some J ∧ Becomes I J :=
  persistent_row hL fun _ _ _ hallowed ha => ha.handled hallowed

/-- What a snapshot of the committed rows still tells of a later view. -/
structure Past (s : Snapshot (schema rt)) (v : BackendView rt) : Prop where
  fixed : ∀ t : Tbl, (∀ now a x, t.allows now a x → x = some a) →
    ∀ i r, s.get t i = some r → v.store.stored t i = some r
  users : ∀ i user, s.get Tbl.users i = some user →
    ∃ user', v.store.stored Tbl.users i = some user' ∧ user'.email = user.email ∧
      user'.role = user.role
  invitations : ∀ j I, s.get Tbl.invitations j = some I →
    ∃ J, v.store.stored Tbl.invitations j = some J ∧ Becomes I J

omit hL in
theorem past_snapshot (v : BackendView rt) :
    Past (v.store.snapshot v.store.clock v.store.stored) v where
  fixed := fun _ _ _ _ hrow => hrow
  users := fun _ user huser => ⟨user, huser, rfl, rfl⟩
  invitations := fun _ I hI => ⟨I, hI, Becomes.refl I⟩

omit hL in
theorem past_read {v : BackendView rt} {s : Snapshot (schema rt)}
    (hs : s = v.store.snapshot v.store.clock v.store.stored)
    {e : Event (schema rt) (platform rt)} : Past s (v.put p e v.store) := by
  subst hs
  exact { past_snapshot v with }

theorem persistent_past (s : Snapshot (schema rt)) : L.Persistent (Past s) := by
  intro actor v v' hstep hpast
  refine ⟨fun t hfixed i r hr => ?_, fun i user huser => ?_, fun j I hI => ?_⟩
  · exact persistent_fixed hL t hfixed i r actor v v' hstep (hpast.fixed t hfixed i r hr)
  · exact persistent_user hL i _ _ actor v v' hstep (hpast.users i user huser)
  · exact persistent_invitation hL j I actor v v' hstep (hpast.invitations j I hI)

/-- Nobody else enqueues an email for an invitation of `p`. -/
theorem stable_unannounced (j : Nat) (I : Invitation) :
    L.Stable p fun v => v.store.born Tbl.invitations j = some (p, I) ∧
      j ∉ v.mem.invitationEmailQueue.map InvitationEmailJob.invitationId := by
  intro actor v v' hactor hstep hown
  obtain ⟨hborn, hfirst⟩ := hown
  refine ⟨hstep.born_kept hborn, ?_⟩
  have hrule := hL.guar actor v v' hstep.guar
  cases actor with
  | none =>
      rw [hrule.2]
      exact hfirst
  | some q =>
      rcases hrule.2.1 with hsame | ⟨job, J, hqueue, hjob⟩
      · rw [hsame]
        exact hfirst
      · rw [hqueue, List.map_append, List.map_singleton, List.mem_append,
          List.mem_singleton, not_or]
        refine ⟨hfirst, ?_⟩
        rintro rfl
        rw [hborn] at hjob
        exact hactor (congrArg some (congrArg Prod.fst (Option.some.inj hjob)).symm)

end Stays

/-! ### What a request can say about itself -/

/-- The events that change the committed tables or the queue. -/
def Durable : Event (schema rt) (platform rt) → Prop
  | ⟨.sql .commit, true⟩ => True
  | ⟨.node (.addJob _), _⟩ => True
  | _ => False

/-- `p` has committed nothing and has enqueued nothing. -/
def Harmless (p : Pid) (v : BackendView rt) : Prop :=
  ∀ e, (p, e) ∈ v.history → ¬ Durable e

/-- The answer of a query on the pool. -/
def poolAnswer : Event (schema rt) (platform rt) → Option (Snapshot (schema rt))
  | ⟨.sql (.read .pool), .ok s⟩ => some s
  | _ => none

/-- The snapshots that `p` has read on the pool, in this order. -/
def reads (p : Pid) (v : BackendView rt) : List (Snapshot (schema rt)) :=
  (v.history.filterMap fun entry =>
    if entry.1 = p then poolAnswer entry.2 else none).reverse

section Own

variable {L : Logic (schema rt) (platform rt)} {p : Pid} {v v' : BackendView rt}

theorem stable_harmless : L.Stable p (Harmless p) :=
  fun _ _ _ hactor hstep hharmless e hmem =>
    hharmless e ((hstep.own_history hactor e).mp hmem)

theorem Harmless.grow {e : Event (schema rt) (platform rt)}
    (hharmless : Harmless p v) (he : ¬ Durable e)
    (hhistory : v'.history = (p, e) :: v.history) : Harmless p v' := by
  intro e' hmem
  rw [hhistory] at hmem
  rcases List.mem_cons.mp hmem with heq | hold
  · obtain rfl : e' = e := congrArg Prod.snd heq
    exact he
  · exact hharmless e' hold

theorem harmless_of_silent (hsilent : ∀ e, (p, e) ∉ v.history) : Harmless p v :=
  fun e hmem => absurd hmem (hsilent e)

theorem reads_grow {e : Event (schema rt) (platform rt)}
    (hhistory : v'.history = (p, e) :: v.history) :
    reads p v' = reads p v ++ (poolAnswer e).toList := by
  unfold reads
  rw [hhistory, List.filterMap_cons, if_pos rfl]
  cases poolAnswer e with
  | none => simp
  | some s => simp

theorem reads_other {q : Pid} {e : Event (schema rt) (platform rt)} (hpid : q ≠ p)
    (hhistory : v'.history = (q, e) :: v.history) : reads p v' = reads p v := by
  unfold reads
  rw [hhistory, List.filterMap_cons, if_neg hpid]

theorem stable_reads (ss : List (Snapshot (schema rt))) :
    L.Stable p fun v => reads p v = ss := by
  intro actor v v' hactor hstep hreads
  cases actor with
  | none =>
      rw [← hreads]
      unfold reads
      rw [hstep.base.1]
  | some q =>
      obtain ⟨e, hacts⟩ := hstep.base
      rw [reads_other (fun heq => hactor (congrArg some heq)) hacts.history, hreads]

theorem reads_of_silent (hsilent : ∀ e, (p, e) ∉ v.history) : reads p v = [] := by
  unfold reads
  rw [List.reverse_eq_nil_iff, List.filterMap_eq_nil_iff]
  intro entry hmem
  split
  · rename_i howner
    rw [← howner] at hsilent
    exact absurd hmem (hsilent entry.2)
  · rfl

end Own

end Mes
