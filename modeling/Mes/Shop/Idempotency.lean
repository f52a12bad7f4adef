import Mes.Shop.ShopRuns
import Mes.Transact.Provenance

/-!
Requests that carry the same idempotency key. Whatever their order, a user gets at most
one purchase, one invitation, one idempotency row and one email for a key, and a request
that does not create them changes nothing.

The answers to the other requests depend on one query. A request whose lookup has found
the row of the winner gets the stored answer or a mismatch. A request that was overtaken
later runs into the guard against duplicates or into the unique index of the purchases,
which nothing translates.
-/

namespace Mes

open Transact Transact.Logic PurchasesService

variable {rt : Runtime} {seed : Seed}

/-! ### At most one of each -/

namespace Shop

/-- The purchases of a user under an idempotency key. -/
def purchasesOf (s : Shop) (userId : Nat) (key : String) : Set Nat :=
  {i | ∃ P, s.purchases i = some P ∧ P.parentUserId = userId ∧ P.idempotencyKey = key}

def invitationsOf (s : Shop) (userId : Nat) (key : String) : Set Nat :=
  {j | ∃ I, s.invitations j = some I ∧ I.purchaseId ∈ s.purchasesOf userId key}

def rowsOf (s : Shop) (userId : Nat) (key : String) : Set Nat :=
  {k | ∃ K, s.idempotencyKeys k = some K ∧ K.userId = userId ∧ K.key = key}

/-- The places in the queue where their emails wait. -/
def emailsOf (s : Shop) (userId : Nat) (key : String) : Set Nat :=
  {n | ∃ job, s.queue[n]? = some job ∧ job.invitationId ∈ s.invitationsOf userId key}

variable {s : Shop} {userId : Nat} {key : String}

theorem Sound.onePurchase (hsound : s.Sound rt) : (s.purchasesOf userId key).Subsingleton := by
  intro i hi i' hi'
  obtain ⟨P, hP, hparent, hkey⟩ := hi
  obtain ⟨P', hP', hparent', hkey'⟩ := hi'
  exact hsound.keyedOnce i i' P P' hP hP' (hparent.trans hparent'.symm)
    (hkey.trans hkey'.symm)

theorem Sound.oneInvitation (hsound : s.Sound rt) :
    (s.invitationsOf userId key).Subsingleton := by
  intro j hj j' hj'
  obtain ⟨I, hI, hpurchase⟩ := hj
  obtain ⟨I', hI', hpurchase'⟩ := hj'
  exact hsound.invitedOnce j j' I I' hI hI' (hsound.onePurchase hpurchase hpurchase')

theorem Sound.oneRow (hsound : s.Sound rt) : (s.rowsOf userId key).Subsingleton := by
  intro k hk k' hk'
  obtain ⟨K, hK, huser, hkey⟩ := hk
  obtain ⟨K', hK', huser', hkey'⟩ := hk'
  exact hsound.rowOnce k k' K K' hK hK' (huser.trans huser'.symm) (hkey.trans hkey'.symm)

theorem Sound.oneEmail (hsound : s.Sound rt) : (s.emailsOf userId key).Subsingleton := by
  intro n hn n' hn'
  obtain ⟨job, hjob, hinvitation⟩ := hn
  obtain ⟨job', hjob', hinvitation'⟩ := hn'
  have hsame := hsound.oneInvitation hinvitation hinvitation'
  have hlen := (List.getElem?_eq_some_iff.mp hjob).1
  refine (List.getElem?_inj (by simpa using hlen) hsound.announcedOnce).mp ?_
  rw [List.getElem?_map, List.getElem?_map, hjob, hjob']
  exact congrArg some hsame

end Shop

/-- What was there at one moment is there at the next, and then there is one at most. -/
def OnceFrom (before after : Set Nat) : Prop :=
  before ⊆ after ∧ after.Subsingleton

/-- Nothing is taken out of the queue. -/
theorem persistent_queue {L : Logic (schema rt) (platform rt)} (hL : OverShop L) (n : Nat)
    (job : InvitationEmailJob) :
    L.Persistent fun v => v.mem.invitationEmailQueue[n]? = some job := by
  intro actor v v' hstep hjob
  have hrule := hL.guar actor v v' hstep.guar
  cases actor with
  | none => rw [hrule.2]; exact hjob
  | some q =>
      rcases hrule.2.1 with hsame | ⟨job', I, hqueue, -⟩
      · rw [hsame]
        exact hjob
      · rw [hqueue]
        exact (List.getElem?_append_left (List.getElem?_eq_some_iff.mp hjob).1).trans hjob

section Kept

variable {sc : Scope (schema rt) (platform rt)} {u w : BackendWorld rt} {userId : Nat}
  {key : String} (hpath : (shopLogic rt sc).Path u.view w.view)
include hpath

theorem purchases_kept :
    (shop u.view).purchasesOf userId key ⊆ (shop w.view).purchasesOf userId key := by
  rintro i ⟨P, hP, hcolumns⟩
  exact ⟨P, hpath.preserves (persistent_purchase (overShop rt sc) i P) hP, hcolumns⟩

theorem invitations_kept :
    (shop u.view).invitationsOf userId key ⊆ (shop w.view).invitationsOf userId key := by
  rintro j ⟨I, hI, hpurchase⟩
  obtain ⟨J, hJ, hcolumns⟩ := hpath.preserves (persistent_invitation (overShop rt sc) j I)
    ⟨I, hI, Becomes.refl I⟩
  refine ⟨J, hJ, ?_⟩
  rw [hcolumns.same.1]
  exact purchases_kept hpath hpurchase

theorem rows_kept : (shop u.view).rowsOf userId key ⊆ (shop w.view).rowsOf userId key := by
  rintro k ⟨K, hK, hcolumns⟩
  exact ⟨K, hpath.preserves (persistent_idempotencyKey (overShop rt sc) k K) hK, hcolumns⟩

theorem emails_kept :
    (shop u.view).emailsOf userId key ⊆ (shop w.view).emailsOf userId key := by
  rintro n ⟨job, hjob, hinvitation⟩
  exact ⟨job, hpath.preserves (persistent_queue (overShop rt sc) n job) hjob,
    invitations_kept hpath hinvitation⟩

end Kept

/-- A request that has not created a purchase has committed and enqueued nothing. -/
theorem PurchaseEnd.harmless {p : Pid} {s₀ : Snapshot (schema rt)} {user : JwtPayload}
    {header : Option String} {body : String} {v : BackendView rt}
    {out : Except AppError Response} (hend : PurchaseEnd p s₀ user header body v out)
    (hout : ∀ response,
      out ≠ .ok (.purchase PURCHASE_CREATED_STATUS (.created response))) : Harmless p v := by
  cases hend with
  | refused e htrail => exact htrail.harmless
  | answered s key row hkey htrail => exact htrail.harmless
  | invalid s key hkey hdto htrail => exact htrail.harmless
  | unknownCourse s c key dto hkey hdto htrail => exact htrail.harmless
  | duplicate s c g key dto hkey hdto htrail => exact htrail.harmless
  | failed s c g key dto e hkey hdto htrail => exact htrail.harmless
  | created => exact absurd rfl (hout _)

/-- `u` and `w` are two moments of a run. -/
theorem idempotency_safe {u w : BackendWorld rt} (hbefore : Runs rt (boot rt seed) u)
    (hafter : Runs rt u w) :
    (∀ userId key,
      OnceFrom ((shop u.view).purchasesOf userId key) ((shop w.view).purchasesOf userId key) ∧
      OnceFrom ((shop u.view).invitationsOf userId key)
        ((shop w.view).invitationsOf userId key) ∧
      OnceFrom ((shop u.view).rowsOf userId key) ((shop w.view).rowsOf userId key) ∧
      OnceFrom ((shop u.view).emailsOf userId key) ((shop w.view).emailsOf userId key)) ∧
    ∀ p user header body out, w.Ended p (.createPurchase user header body) out →
      (∀ response, out ≠ .ok (.purchase PURCHASE_CREATED_STATUS (.created response))) →
        ChangesNothing p (boot rt seed) w := by
  obtain ⟨htrading, hpath⟩ := trading_run hbefore hafter
  have hsound := htrading.sound
  refine ⟨fun userId key => ⟨⟨purchases_kept hpath, hsound.onePurchase⟩,
    ⟨invitations_kept hpath, hsound.oneInvitation⟩, ⟨rows_kept hpath, hsound.oneRow⟩,
    ⟨emails_kept hpath, hsound.oneEmail⟩⟩, ?_⟩
  intro p user header body out hended hout
  have hwhole := (trading_run Relation.ReflTransGen.refl (hbefore.trans hafter)).1
  have hend : PurchaseEnd p _ user header body w.view out := hwhole.ended hended (Nat.zero_le p)
  exact (hend.harmless hout).changesNothing

/-! ### Who has written an idempotency row -/

/-- The rows that a request may insert into `idempotency_keys`. -/
def KeyRow (rt : Runtime) : Request → (t : Tbl) → t.Row → Prop
  | .createPurchase user header body, .idempotencyKeys, K =>
      Admitted rt user header K.key ∧ K.userId = user.sub ∧
        K.requestHash = IdempotencyInterceptor.hashCanonicalBody rt body
  | _, .idempotencyKeys, _ => False
  | _, _, _ => True

abbrev SignsKeys (req : Request) {α : Type} (x : Method rt α) : Prop :=
  x.Uses (Signs (KeyRow rt) req)

/-- A program that does not write the table. -/
theorem signs_of_within {fp : Footprint} (htable : .idempotencyKeys ∉ fp.tables) {α : Type}
    {x : Method rt α} (hwithin : Within fp x) (req : Request) : SignsKeys req x := by
  refine hwithin.mono fun c hc => ?_
  cases c with
  | node | fork => trivial
  | sql stmt =>
      cases stmt with
      | begin | commit | rollback | read | touch => trivial
      | insert t row =>
          intro now
          cases t with
          | idempotencyKeys => exact absurd hc htable
          | users | courses | lessons | purchases | invitations | enrolments
          | refreshTokens => cases req <;> trivial

theorem signs_transaction {req : Request} {user : JwtPayload} {header : Option String}
    {key body : String} {dto : CreatePurchaseDto}
    (hreq : req = .createPurchase user header body) (hkey : Admitted rt user header key)
    (course : Entity .courses) :
    SignsKeys req (@runCreateTransaction rt (createArgs rt user key body dto) course) := by
  let fp : Footprint := { tables := [.purchases, .invitations] }
  have hother {α : Type} {x : Method rt α} (hkeeps : Keeps fp x) : SignsKeys req x :=
    signs_of_within (by simp [fp]) hkeeps.within req
  have hanswer {α : Type} (r : Except SqlError α) :
      SignsKeys req (Sql.answer r : Method rt α) := by
    cases r <;> trivial
  refine ⟨trivial, fun _ => Prog.Uses.attempt ?_ fun _ => ⟨trivial, fun _ => trivial⟩⟩
  refine Prog.Uses.andThen ?_ fun _ => ⟨trivial, fun _ => trivial⟩
  refine Prog.Uses.andThen (hother (keeps_save (by simp [fp]) _)) fun purchase => ?_
  refine Prog.Uses.andThen (hother ?_) fun issued => Prog.Uses.andThen ?_ fun _ => trivial
  · exact keeps_bind keeps_random fun _ => keeps_bind keeps_turn fun _ =>
      keeps_bind (keeps_save (by simp [fp]) _) fun _ => trivial
  · refine Prog.Uses.attempt ⟨?_, hanswer⟩ fun error => hother ?_
    · subst hreq
      exact fun now => ⟨hkey, rfl, rfl⟩
    · split
      · refine keeps_bind (keeps_findOne _ _) fun existing => ?_
        split <;> trivial
      · trivial

theorem handler_signs (rt : Runtime) (req : Request) : SignsKeys req (handler rt req) := by
  cases req with
  | createPurchase user header body =>
      let fp : Footprint := { queue := true }
      have hother {α : Type} {x : Method rt α} (hkeeps : Keeps fp x) :
          SignsKeys (.createPurchase user header body) x :=
        signs_of_within (by simp [fp]) hkeeps.within _
      show SignsKeys _ (PurchasesController.post user header body)
      unfold PurchasesController.post PurchasesController.requireRole
      split
      · rename_i hrole
        unfold IdempotencyInterceptor.intercept
        cases hheader : header.map rt.trim with
        | none => trivial
        | some key =>
            dsimp only
            split
            · trivial
            · rename_i hvalid
              have hkey : Admitted rt user header key :=
                ⟨hrole, hheader, Bool.eq_true_of_not_eq_false hvalid⟩
              refine Prog.Uses.andThen (hother (keeps_findOne _ _)) fun found => ?_
              cases found with
              | some existing =>
                  dsimp only
                  split <;> trivial
              | none =>
                  show SignsKeys _ (PurchasesController.create user body _)
                  unfold PurchasesController.create
                  cases rt.createPurchaseDto body with
                  | none => trivial
                  | some dto =>
                      refine Prog.Uses.andThen ?_ fun _ => trivial
                      refine Prog.Uses.andThen (hother (keeps_findCourseOrThrow _)) fun course =>
                        Prog.Uses.andThen ?_ fun _ => Prog.Uses.andThen
                          (signs_transaction rfl hkey course) fun result =>
                            Prog.Uses.andThen ?_ fun _ => trivial
                      · refine hother (keeps_bind (keeps_bind (keeps_read .pool) fun _ => trivial)
                          fun found => ?_)
                        split <;> trivial
                      · exact hother (keeps_bind (keeps_node rfl) fun _ => trivial)
      · trivial
  | signup | login | refresh | logout | cleanup | listMine | redeem | listLessonsForCourse
  | getLesson | sendInvitationEmail | revokeFamily | rehashIfNeeded =>
      exact signs_of_within (by simp [footprint]) (handler_within rt _) _

theorem boot_signed (rt : Runtime) (seed : Seed) : (boot rt seed).Signed (KeyRow rt) where
  wf := boot_wf rt seed
  progs := fun p proc hproc => by cases hproc
  rows := fun t i q r hborn => by cases hborn

/-! ### The answers to the other requests -/

/-- What the documentation promises to a request whose key belongs to the response
`winner`, which was made for the body `body₀`. -/
def Promised (rt : Runtime) (body₀ : String) (winner : ReplayBody) (body : String)
    (out : Except AppError Response) : Prop :=
  if rt.canonicaliseBody body = rt.canonicaliseBody body₀ then
    out = .ok (.purchase PURCHASE_CREATED_STATUS (.replayed winner)) ∨
      out = .error (.domain .idempotencyKeyReused)
  else out = .error (.domain .idempotencyBodyMismatch)

/-- The lookup of `p` has found a row. -/
def FoundAtLookup (p : Pid) (userId : Nat) (key : String) (v : BackendView rt) : Prop :=
  ∃ s, (reads p v)[0]? = some s ∧ (replayRow userId key s).isSome = true

theorem replay_promised {body₀ body : String} {K : IdempotencyKey}
    (hinjective : Function.Injective rt.sha256)
    (hstatus : K.responseStatus = PURCHASE_CREATED_STATUS)
    (hhash : K.requestHash = IdempotencyInterceptor.hashCanonicalBody rt body₀) :
    Promised rt body₀ K.responseBody body (replay rt body K) := by
  have hhashes : IdempotencyInterceptor.hashCanonicalBody rt body₀ =
      IdempotencyInterceptor.hashCanonicalBody rt body ↔
        rt.canonicaliseBody body = rt.canonicaliseBody body₀ :=
    hinjective.eq_iff.trans eq_comm
  unfold Promised replay
  rw [hhash, hstatus]
  split
  · rename_i hsame
    exact Or.inl (if_neg (not_not_intro (hhashes.mpr hsame)))
  · rename_i hother
    exact if_pos fun hsame => hother (hhashes.mp hsame)

theorem not_promised_of_error {body₀ body : String} {winner : ReplayBody} {e : AppError}
    (hreused : e ≠ .domain .idempotencyKeyReused)
    (hmismatch : e ≠ .domain .idempotencyBodyMismatch) :
    ¬ Promised rt body₀ winner body (.error e) := by
  unfold Promised
  split
  · rintro (hout | hout)
    · cases hout
    · exact hreused (Except.error.inj hout)
  · exact fun hout => hmismatch (Except.error.inj hout)

/-- `q` has committed the row `K` under the key of a request `p`. -/
structure Keyed (rt : Runtime) (w : BackendWorld rt) (q : Pid) (k : Nat) (K : IdempotencyKey)
    (user : JwtPayload) (header₀ header : Option String) (body₀ : String) : Prop where
  stored : w.view.store.stored Tbl.idempotencyKeys k = some K
  winner : w.view.store.born Tbl.idempotencyKeys k = some (q, K)
  request : w.procs[q]?.map Proc.req = some (.createPurchase user header₀ body₀)
  same : header.map rt.trim = header₀.map rt.trim

section Keyed

variable {w : BackendWorld rt} {q p : Pid} {k : Nat} {K : IdempotencyKey} {user : JwtPayload}
  {header₀ header : Option String} {body₀ body : String}

/-- The row names the request that committed it. -/
theorem Keyed.columns (hkeyed : Keyed rt w q k K user header₀ header body₀)
    (hruns : Runs rt (boot rt seed) w) :
    Admitted rt user header₀ K.key ∧ K.userId = user.sub ∧
      K.requestHash = IdempotencyInterceptor.hashCanonicalBody rt body₀ := by
  obtain ⟨proc, hproc, hrow⟩ := ((boot_signed rt seed).reach (handler_signs rt) hruns).rows
    Tbl.idempotencyKeys k q K hkeyed.winner
  have hreq : proc.req = .createPurchase user header₀ body₀ := by
    have hq := hkeyed.request
    rw [hproc] at hq
    exact Option.some.inj hq
  rw [hreq] at hrow
  exact hrow

theorem Keyed.key (hkeyed : Keyed rt w q k K user header₀ header body₀)
    (hruns : Runs rt (boot rt seed) w) {key : String} (hkey : Admitted rt user header key) :
    key = K.key :=
  Option.some.inj
    (hkey.header.symm.trans (hkeyed.same.trans (hkeyed.columns hruns).1.header))

/-- A request that has found a row answers from the row of the winner. -/
theorem Keyed.found (hkeyed : Keyed rt w q k K user header₀ header body₀)
    (hruns : Runs rt (boot rt seed) w) {out : Except AppError Response}
    (hended : w.Ended p (.createPurchase user header body) out)
    (hfound : FoundAtLookup p user.sub K.key w.view) : out = replay rt body K := by
  have htrading := (trading_run Relation.ReflTransGen.refl hruns).1
  have hsound := htrading.sound
  obtain ⟨hadmitted, huser, -⟩ := hkeyed.columns hruns
  have hmissed {s : Snapshot (schema rt)} {ss : List (Snapshot (schema rt))} {key : String}
      (hkey : Admitted rt user header key) (hreads : reads p w.view = s :: ss)
      (hmiss : replayRow user.sub key s = none) : False := by
    obtain ⟨s', hs', hsome⟩ := hfound
    rw [hreads, List.getElem?_cons_zero] at hs'
    rw [← Option.some.inj hs', ← hkeyed.key hruns hkey, hmiss] at hsome
    cases hsome
  have hend : PurchaseEnd p _ user header body w.view out := htrading.ended hended (Nat.zero_le p)
  cases hend with
  | refused e htrail hrefused =>
      exact absurd ⟨hadmitted.role, hkeyed.same.trans hadmitted.header, hadmitted.valid⟩
        (hrefused K.key)
  | answered s key row hkey htrail hrow hstored =>
      have hcolumns : row.2.userId = user.sub ∧ row.2.key = key := by
        have hmatch := List.find?_some hrow
        simp only [Bool.and_eq_true, beq_iff_eq] at hmatch
        exact ⟨hmatch.1.1, hmatch.2⟩
      have hplace : row.1 = k := hsound.rowOnce row.1 k row.2 K hstored hkeyed.stored
        (hcolumns.1.trans huser.symm) (hcolumns.2.trans (hkeyed.key hruns hkey))
      rw [hplace, hkeyed.stored] at hstored
      rw [Option.some.inj hstored]
  | invalid s key hkey hnone htrail hmiss => exact (hmissed hkey htrail.reads hmiss).elim
  | unknownCourse s c key dto hkey hdto htrail hmiss => exact (hmissed hkey htrail.reads hmiss).elim
  | duplicate s c g key dto hkey hdto htrail hmiss => exact (hmissed hkey htrail.reads hmiss).elim
  | failed s c g key dto e hkey hdto htrail hmiss => exact (hmissed hkey htrail.reads hmiss).elim
  | created s c g key dto course t₀ result hkey hdto hmiss hcourse hfirst hguard hsale hsold =>
      exact (hmissed hkey hsold.reads hmiss).elim

end Keyed

/-- `q` has committed the row `K` under the key, and `p` is another request of the same
user with that key. -/
theorem idempotency_law_iff (hinjective : Function.Injective rt.sha256)
    {w : BackendWorld rt} (hruns : Runs rt (boot rt seed) w) {q p : Pid} {k : Nat}
    {K : IdempotencyKey} (hstored : w.view.store.stored Tbl.idempotencyKeys k = some K)
    (hwinner : w.view.store.born Tbl.idempotencyKeys k = some (q, K))
    {user : JwtPayload} {header₀ header : Option String} {body₀ body : String}
    (hq : w.procs[q]?.map Proc.req = some (.createPurchase user header₀ body₀))
    (hother : p ≠ q) (hsame : header.map rt.trim = header₀.map rt.trim)
    {dto : CreatePurchaseDto} (hdto : rt.createPurchaseDto body = some dto)
    (hcourse : dto.courseId < seed.courses.length) {out : Except AppError Response}
    (hended : w.Ended p (.createPurchase user header body) out) :
    Promised rt body₀ K.responseBody body out ↔ FoundAtLookup p user.sub K.key w.view := by
  have htrading := (trading_run Relation.ReflTransGen.refl hruns).1
  have hsound := htrading.sound
  have hkeyed : Keyed rt w q k K user header₀ header body₀ := ⟨hstored, hwinner, hq, hsame⟩
  obtain ⟨hadmitted, huser, hhash⟩ := hkeyed.columns hruns
  have hstatus : K.responseStatus = PURCHASE_CREATED_STATUS := by
    obtain ⟨P, I, -, -, hbundle⟩ := hsound.keyed k K hstored
    exact hbundle.status
  constructor
  · intro hpromised
    have hend : PurchaseEnd p _ user header body w.view out :=
      htrading.ended hended (Nat.zero_le p)
    cases hend with
    | refused e htrail hrefused =>
        exact absurd ⟨hadmitted.role, hsame.trans hadmitted.header, hadmitted.valid⟩
          (hrefused K.key)
    | answered s key row hkey htrail hfound =>
        refine ⟨s, ?_, ?_⟩
        · rw [htrail.reads]
          rfl
        · rw [← hkeyed.key hruns hkey, hfound]
          rfl
    | invalid s key hkey hnone =>
        rw [hnone] at hdto
        cases hdto
    | unknownCourse s c key dto' hkey hdto' htrail hmiss hunknown =>
        rw [hdto] at hdto'
        obtain rfl := Option.some.inj hdto'
        have hthere : seed.courses[dto.courseId]? = none := hunknown
        rw [List.getElem?_eq_none_iff] at hthere
        exact absurd hcourse (Nat.not_lt_of_le hthere)
    | duplicate => exact absurd hpromised (not_promised_of_error (by simp) (by simp))
    | failed => exact absurd hpromised (not_promised_of_error (by simp) (by simp))
    | created s c g key dto' course t₀ result hkey hdto' hmiss hcourse' hfirst hguard hsale hsold =>
        obtain ⟨k', hk', hborn'⟩ := hsold.row
        have hplace : k' = k :=
          hsound.rowOnce k' k _ K hk' hstored huser.symm (hkeyed.key hruns hkey)
        rw [hplace, hwinner] at hborn'
        exact absurd (congrArg Prod.fst (Option.some.inj hborn')).symm hother
  · intro hfound
    rw [hkeyed.found hruns hended hfound]
    exact replay_promised hinjective hstatus hhash

/-! ### Two requests that race -/

def sampleCheckout : Request :=
  .createPurchase ⟨0, .parent⟩ (some "checkout-1") "student@example.com"

/-- A parent sends the same checkout twice, and both lookups run before the first sale
is committed. -/
def sampleCheckouts : List (Action (platform sampleRuntime)) :=
  sampleSignup ++ .spawn sampleCheckout :: .spawn sampleCheckout ::
    (operations 1 3 "" ++ (operations 2 3 "" ++ (operations 1 8 "I1" ++ operations 2 3 "")))

def sampleKeyRow : IdempotencyKey where
  key := "checkout-1"
  userId := 0
  endpoint := PURCHASE_ENDPOINT_SIGNATURE
  requestHash := sampleSha256 "student@example.com"
  responseStatus := 201
  responseBody := { purchaseId := 0, invitationId := 0 }

theorem sample_checkouts : ∃ w : BackendWorld sampleRuntime,
    Runs sampleRuntime (boot sampleRuntime sampleSeed) w ∧
      w.view.store.stored Tbl.idempotencyKeys 0 = some sampleKeyRow ∧
      w.view.store.born Tbl.idempotencyKeys 0 = some (1, sampleKeyRow) ∧
      w.procs[1]?.map Proc.req = some sampleCheckout ∧
      w.Ended 2 sampleCheckout (.error (.queryFailed .uniqueViolation)) := by
  have hrun : ((boot sampleRuntime sampleSeed).run (handler sampleRuntime)
      sampleCheckouts).any (fun w =>
        decide (w.view.store.stored Tbl.idempotencyKeys 0 = some sampleKeyRow) &&
        decide (w.view.store.born Tbl.idempotencyKeys 0 = some (1, sampleKeyRow)) &&
        decide (w.procs[1]?.map Proc.req = some sampleCheckout) &&
        decide (w.status 2 =
          some (sampleCheckout, some (.error (.queryFailed .uniqueViolation))))) = true := by
    decide
  obtain ⟨w, hw, hchecks⟩ := (Option.any_eq_true _ _).mp hrun
  simp only [Bool.and_eq_true, decide_eq_true_eq] at hchecks
  exact ⟨w, runs_of_run hw, hchecks.1.1.1, hchecks.1.1.2, hchecks.1.2,
    World.ended_of_status hchecks.2⟩

theorem idempotency_law_iff_sample : ∃ w : BackendWorld sampleRuntime,
    Runs sampleRuntime (boot sampleRuntime sampleSeed) w ∧
      (Promised sampleRuntime "student@example.com" sampleKeyRow.responseBody
          "student@example.com" (.error (.queryFailed .uniqueViolation)) ↔
        FoundAtLookup 2 0 "checkout-1" w.view) := by
  obtain ⟨w, hruns, hstored, hwinner, hq, hended⟩ := sample_checkouts
  exact ⟨w, hruns, idempotency_law_iff sampleSha256_injective hruns hstored hwinner hq
    (by decide) rfl rfl (by decide) hended⟩

/-- The second of the two ends in a database error. -/
theorem idempotency_law_broken : ∃ w : BackendWorld sampleRuntime,
    Runs sampleRuntime (boot sampleRuntime sampleSeed) w ∧
      w.view.store.stored Tbl.idempotencyKeys 0 = some sampleKeyRow ∧
      w.view.store.born Tbl.idempotencyKeys 0 = some (1, sampleKeyRow) ∧
      w.procs[1]?.map Proc.req = some sampleCheckout ∧
      w.Ended 2 sampleCheckout (.error (.queryFailed .uniqueViolation)) ∧
      ¬ Promised sampleRuntime "student@example.com" sampleKeyRow.responseBody
        "student@example.com" (.error (.queryFailed .uniqueViolation)) := by
  obtain ⟨w, hruns, hstored, hwinner, hq, hended⟩ := sample_checkouts
  exact ⟨w, hruns, hstored, hwinner, hq, hended,
    not_promised_of_error (by simp) (by simp)⟩

/-- Of the two, one purchase remains. -/
theorem idempotency_safe_sample : ∃ w : BackendWorld sampleRuntime,
    Runs sampleRuntime (boot sampleRuntime sampleSeed) w ∧
      ((shop w.view).purchasesOf 0 "checkout-1").Subsingleton ∧
      ChangesNothing 2 (boot sampleRuntime sampleSeed) w := by
  obtain ⟨w, hruns, -, -, -, hended⟩ := sample_checkouts
  obtain ⟨honce, hnothing⟩ := idempotency_safe hruns Relation.ReflTransGen.refl
  exact ⟨w, hruns, (honce 0 "checkout-1").1.2, hnothing 2 _ _ _ _ hended (by simp)⟩

end Mes
