import Mes.Backend
import Mes.Mandate

/-!
Every request keeps to its mandate. The walk over the handlers carries what a program knows
of the rows that it has read: where they stand, and that accounts, invitations and purchases
stay. So the branches for a missing account or a missing purchase are never taken.
-/

namespace Mes

open Transact

variable {rt : Runtime} {seed : Seed} {w : BackendWorld rt} {p : Pid} {req : Request}
  {κ : Lore (schema rt)} {α β : Type}

/-- A method that keeps to the mandate of `req`. -/
abbrev Minding (seed : Seed) (w : BackendWorld rt) (p : Pid) (req : Request) (x : Method rt α)
    (κ : Lore (schema rt)) (R : α → Lore (schema rt) → Prop) (E : AppError → Prop) : Prop :=
  (charter seed w).Minds p req R E x κ

/-- The error is not one that only an inconsistent database gives. -/
def Regular : AppError → Prop
  | .domain (.dataIntegrity _ _) | .domain .purchaseNotFound
  | .domain (.unauthorized .invalidToken) => False
  | _ => True

/-- What is known of a row that was read. -/
structure Known (seed : Seed) (w : BackendWorld rt) (κ : Lore (schema rt)) (t : Tbl)
    (row : Entity t) : Prop where
  agrees : Agrees seed w t row.1 row.2
  guarded : Guarded seed w t row.1 row.2
  taken : row.1 < κ.floor t
  there : t.Lasting → κ.there t row.1

section Queries

variable {E : AppError → Prop} (hE : ∀ e, E (.queryFailed e)) {R : α → Lore (schema rt) → Prop}

theorem minding_bind {x : Method rt α} {f : α → Method rt β} {Q : β → Lore (schema rt) → Prop}
    (hx : Minding seed w p req x κ R E)
    (hf : ∀ a κ', κ ≤ κ' → R a κ' → Minding seed w p req (f a) κ' Q E) :
    Minding seed w p req (x >>= f) κ Q E :=
  Charter.Minds.andThen hx hf

include hE

/-- A query on the pool. -/
theorem minding_query : Minding seed w p req (Sql.read .pool) κ
    (fun s κ' => (charter seed w).Reads κ s ∧
      ∀ (t : Tbl) (row : Entity t), row ∈ s.rows t → Known seed w κ' t row) E := by
  refine Charter.Minds.post (Charter.minds_read hE .pool) ?_
  rintro s κ' - ⟨hreads, rfl⟩
  refine ⟨hreads, fun t row hrow => ?_⟩
  obtain ⟨hlt, hget⟩ := Snapshot.mem_rows.mp hrow
  obtain ⟨⟨hagrees, hguarded⟩, -⟩ := hreads.rows t row.1 row.2 hget
  refine ⟨hagrees, hguarded, lt_of_lt_of_le hlt (le_max_right _ _), fun hlasting => ?_⟩
  exact Or.inr ⟨hlasting, Or.inl rfl, Option.isSome_iff_exists.mpr ⟨row.2, hget⟩⟩

theorem minding_findAll (t : Tbl) (where_ : Nat → t.Row → Bool) :
    Minding seed w p req (BaseRepository.findAll t where_) κ
      (fun rows κ' => ∀ row ∈ rows, Known seed w κ' t row ∧ where_ row.1 row.2 = true) E := by
  refine minding_bind (minding_query hE) ?_
  rintro s κ' - ⟨-, hknown⟩ row hrow
  obtain ⟨hmem, hwhere⟩ := List.mem_filter.mp hrow
  exact ⟨hknown t row hmem, hwhere⟩

/-- The row that was found, and what a miss says about the rows that are there. -/
structure FoundOne (seed : Seed) (w : BackendWorld rt) (κ : Lore (schema rt)) (t : Tbl)
    (where_ : Nat → t.Row → Bool) (found : Option (Entity t)) (κ' : Lore (schema rt)) : Prop where
  hit : ∀ row, found = some row → Known seed w κ' t row ∧ where_ row.1 row.2 = true
  miss : found = none → ∀ i, κ.there t i → ∃ r, Agrees seed w t i r ∧ where_ i r = false

theorem minding_findOne (t : Tbl) (where_ : Nat → t.Row → Bool) :
    Minding seed w p req (BaseRepository.findOne t where_) κ (FoundOne seed w κ t where_) E := by
  refine minding_bind (minding_query hE) ?_
  rintro s κ' - ⟨hreads, hknown⟩
  constructor
  · intro row hfound
    refine ⟨hknown t row (List.mem_of_find?_eq_some hfound), ?_⟩
    have hwhere := List.find?_some hfound
    exact hwhere
  · intro hnone i hthere
    obtain ⟨r, hget⟩ := Option.isSome_iff_exists.mp (hreads.there t i hthere)
    obtain ⟨⟨hagrees, -⟩, hlt⟩ := hreads.rows t i r hget
    have hrow : (i, r) ∈ s.rows t := Snapshot.mem_rows.mpr ⟨hlt, hget⟩
    have hmiss := List.find?_eq_none.mp hnone (i, r) hrow
    exact ⟨r, hagrees, Bool.not_eq_true _ ▸ hmiss⟩

theorem minding_save (t : Tbl) {row : Time → t.Row}
    (hrow : ∀ now i, κ.floor t ≤ i → Adds seed w p req t i (row now)) :
    Minding seed w p req (BaseRepository.save t row) κ
      (fun out _ => (charter seed w).Inserted p κ t row out) E :=
  Charter.minds_insert (C := charter seed w) hE t hrow

end Queries

theorem regular_query (e : SqlError) : Regular (.queryFailed e) := trivial

/-- The operations on the memory are everybody's right. -/
theorem minding_node (op : NodeOp) : Minding seed w p req (nodeCall op) κ
    (fun res _ => ∃ now choice m m', Memory.exec rt p now op choice m = some (res, m'))
    Regular := by
  refine Charter.Minds.node (C := charter seed w) (fun _ _ _ _ _ _ _ => trivial) ?_
  rintro res ⟨now, choice, m, m', -, hexec⟩
  exact ⟨now, choice, m, m', hexec⟩

theorem minding_attempt {x : Method rt α} {recover : AppError → Method rt α}
    {R : α → Lore (schema rt) → Prop} {E : AppError → Prop} (hx : Minding seed w p req x κ R E)
    (hrecover : ∀ e κ', κ ≤ κ' → E e → Minding seed w p req (recover e) κ' R Regular) :
    Minding seed w p req (x.attempt recover) κ R Regular :=
  Charter.Minds.attempt hx hrecover

/-- Two rows that may stand at one place keep the same. -/
theorem Agrees.same {t : Tbl} {i : Nat} {a b : t.Row} (ha : Agrees seed w t i a)
    (hb : Agrees seed w t i b) : t.frozen a = t.frozen b := by
  obtain ⟨r, hr, hsame⟩ := ha
  obtain ⟨r', hr', hsame'⟩ := hb
  obtain rfl := Option.some.inj (hr.symm.trans hr')
  exact hsame.trans hsame'.symm

section Tokens

/-- A refresh token that agrees with the one inserted at its place. -/
theorem Agrees.token {i : Nat} {a : RefreshToken} (ha : Agrees seed w .refreshTokens i a) :
    ∃ b, origin seed w Tbl.refreshTokens i = some b ∧ a.userId = b.userId ∧
      a.familyId = b.familyId ∧ a.tokenHash = b.tokenHash := by
  obtain ⟨b, hb, hsame⟩ := ha
  obtain ⟨huser, hfamily, hhash, -⟩ := fixed_eq hsame
  exact ⟨b, hb, huser, hfamily, hhash⟩

theorem minding_transaction {x : Method rt α} {R : α → Lore (schema rt) → Prop}
    (hx : Minding seed w p req x κ R Regular) :
    Minding seed w p req (Sql.transaction x) κ R Regular :=
  Charter.minds_transaction hx

theorem minding_issueRefreshToken {userId : Nat} {requestMeta : RequestMeta}
    (hadds : ∀ j (row : RefreshToken), row.userId = userId → AddsToken seed w p req j row) :
    Minding seed w p req (AuthService.issueRefreshToken userId requestMeta) κ
      (fun _ _ => True) Regular := by
  refine minding_bind (minding_node .randomBytes) fun raw _ _ _ =>
    minding_bind (minding_node .randomUUID) fun familyId _ _ _ =>
      minding_bind (minding_node .turn) fun out _ _ _ => ?_
  refine minding_bind (R := fun _ _ => True) (minding_transaction ?_) fun _ _ _ _ => trivial
  exact minding_bind (minding_save regular_query .refreshTokens fun now j _ => hadds j _ rfl)
    fun _ _ _ _ => trivial

/-- An update by id touches that row only. -/
theorem minding_revokeById {id : Nat} {link : Option Nat}
    (hrow : ∀ now (a : RefreshToken), Agrees seed w .refreshTokens id a → a.revokedAt = none →
      TokenMandate seed w req now a ((RefreshTokensRepository.revoke rt now link).apply a)) :
    Minding seed w p req (RefreshTokensRepository.revokeById id link) κ
      (fun _ _ => True) Regular := by
  refine minding_bind (Charter.minds_read regular_query .manager) ?_
  rintro s κ' - ⟨hreads, rfl⟩
  refine minding_bind (Charter.minds_touchEach (C := charter seed w) regular_query
    Tbl.refreshTokens (fun i hi => ?_) (fun row hnone => by cases hnone)) fun _ _ _ _ => trivial
  obtain ⟨row, hmem, rfl⟩ := List.mem_map.mp hi
  obtain ⟨hrows, hmatch⟩ := List.mem_filter.mp hmem
  have hid : row.1 = id := beq_iff_eq.mp (Bool.and_eq_true_iff.mp hmatch).1
  refine ⟨lt_of_lt_of_le (Snapshot.mem_rows.mp hrows).1 (le_max_right _ _), ?_⟩
  rintro now a ⟨hagrees, -⟩ hactive
  have hmandate := hrow now a (hid ▸ hagrees) (Option.isNone_iff_eq_none.mp hactive)
  refine ⟨hmandate, ?_⟩
  rintro b hb
  obtain rfl := Option.some.inj hb
  obtain ⟨c, hc, hsame⟩ := hagrees
  exact ⟨⟨c, hc, hsame⟩, trivial⟩

/-- A theft: the tokens of the presented token's family are revoked. -/
theorem minding_revokeFamily {familyId : String}
    (hrow : ∀ now (a : RefreshToken), a.familyId = familyId → a.revokedAt = none →
      TokenMandate seed w req now a ((RefreshTokensRepository.revoke rt now none).apply a)) :
    Minding seed w p req (RefreshTokensRepository.revokeFamily familyId) κ
      (fun _ _ => True) Regular := by
  refine minding_bind (Charter.minds_sweep (C := charter seed w) regular_query
    Tbl.refreshTokens ?_) fun _ _ _ _ => trivial
  rintro i now a ⟨hagrees, -⟩ hmatch
  obtain ⟨hfamily, hactive⟩ := Bool.and_eq_true_iff.mp hmatch
  refine ⟨hrow now a (beq_iff_eq.mp hfamily) (Option.isNone_iff_eq_none.mp hactive), ?_⟩
  rintro b hb
  obtain rfl := Option.some.inj hb
  exact ⟨hagrees, trivial⟩

/-- The row that a rotation locks is one that the request presents, and its account is there. -/
theorem minding_selectForUpdate (raw : String) (requestMeta : RequestMeta) :
    Minding seed w p (.refresh raw requestMeta)
      (RefreshTokensRepository.selectForUpdate (rt.sha256 raw)) κ
      (fun found κ' => ∀ row, found = some row → Agrees seed w .refreshTokens row.1 row.2 ∧
        row.2.tokenHash = rt.sha256 raw ∧ row.1 < κ'.floor Tbl.refreshTokens ∧
          κ'.there Tbl.users row.2.userId) Regular := by
  refine minding_bind (Charter.minds_sweep (C := charter seed w) regular_query
    Tbl.refreshTokens ?_) ?_
  · intro i now a hholds _
    have hkeep : Mandate seed w (.refresh raw requestMeta) Tbl.refreshTokens i now a (some a) :=
      mandate_refl Tbl.refreshTokens i a
    refine ⟨hkeep, ?_⟩
    rintro b hb
    exact Option.some.inj hb ▸ hholds
  · intro rows κ' _ hfound row hrow
    obtain ⟨⟨hagrees, -⟩, htaken, ⟨now, hmatch⟩, hrefs⟩ :=
      hfound row (List.mem_of_mem_head? hrow)
    refine ⟨hagrees, beq_iff_eq.mp hmatch, htaken, ?_⟩
    exact hrefs (Tbl.users, row.2.userId) List.mem_cons_self (by decide : Tbl.Lasting .users)
      fun _ _ hadds => hadds

/-- The account of a token is found. -/
theorem minding_findById {userId : Nat} (hthere : κ.there Tbl.users userId) :
    Minding seed w p req (UsersRepository.findById userId) κ
      (fun found κ' => ∃ user, found = some (userId, user) ∧
        Agrees seed w .users userId user ∧ κ'.there Tbl.users userId) Regular := by
  refine Charter.Minds.post (minding_findOne regular_query .users fun id _ => id == userId) ?_
  intro found κ' hle hfound
  cases found with
  | none =>
      obtain ⟨r, -, hmiss⟩ := hfound.miss rfl userId hthere
      simp at hmiss
  | some user =>
      obtain ⟨hknown, hid⟩ := hfound.hit user rfl
      obtain rfl : user.1 = userId := beq_iff_eq.mp hid
      exact ⟨user.2, rfl, hknown.agrees, hle.2 _ _ hthere⟩

end Tokens

section Sessions

/-- The account of an access token, and why the request got it. -/
structure Vouched (seed : Seed) (w : BackendWorld rt) (p : Pid) (req : Request)
    (token : JwtPayload) (κ : Lore (schema rt)) : Prop where
  role : ∃ user, origin seed w Tbl.users token.sub = some user ∧ user.role = token.role
  earned : match req with
    | .signup _ _ => ∃ user, w.view.store.born Tbl.users token.sub = some (p, user)
    | .login input _ => (HonestVerify rt → Opens seed w token.sub input.password) ∧
        κ.there Tbl.users token.sub
    | .refresh raw _ => (∃ i row, Presents seed w raw i row ∧ row.userId = token.sub) ∧
        κ.there Tbl.users token.sub
    | .redeem dto => HonestVerify rt → Opens seed w token.sub dto.password
    | _ => False

theorem Vouched.mono {token : JwtPayload} {κ' : Lore (schema rt)}
    (hvouched : Vouched seed w p req token κ) (hle : κ ≤ κ') : Vouched seed w p req token κ' := by
  refine ⟨hvouched.role, ?_⟩
  have hearned := hvouched.earned
  cases req with
  | signup | redeem => exact hearned
  | login | refresh => exact ⟨hearned.1, hle.2 _ _ hearned.2⟩
  | logout | cleanup | createPurchase | listMine | listLessonsForCourse | getLesson
  | sendInvitationEmail | revokeFamily | rehashIfNeeded => exact hearned.elim

/-- The role of an account is the one it was created with. -/
theorem Agrees.role {i : Nat} {user : User} (hagrees : Agrees seed w .users i user) :
    ∃ b, origin seed w Tbl.users i = some b ∧ b.role = user.role ∧ b.email = user.email := by
  obtain ⟨b, hb, hsame⟩ := hagrees
  refine ⟨b, hb, ?_, ?_⟩
  · exact (@congrArg User UserRole (Tbl.frozen .users user) (Tbl.frozen .users b)
      User.role hsame).symm
  · exact (@congrArg User String (Tbl.frozen .users user) (Tbl.frozen .users b)
      User.email hsame).symm

theorem minding_findByEmail (email : String) :
    Minding seed w p req (UsersRepository.findByEmail email) κ
      (fun found κ' => ∀ user, found = some user → Known seed w κ' .users user ∧
        user.2.email = rt.normaliseEmail email) Regular := by
  refine Charter.Minds.post (minding_findOne regular_query .users
    fun _ user => user.email == rt.normaliseEmail email) ?_
  intro found κ' _ hfound user huser
  obtain ⟨hknown, hemail⟩ := hfound.hit user huser
  exact ⟨hknown, beq_iff_eq.mp hemail⟩

theorem minding_hashPassword (plain : String) :
    Minding seed w p req (AuthService.hashPassword plain) κ
      (fun digest _ => ∃ salt, digest = rt.argon2Hash plain salt) Regular := by
  refine Charter.Minds.post (minding_node (.argon2Hash plain)) ?_
  rintro digest κ' - ⟨now, choice, m, m', hexec⟩
  exact ⟨choice.text, (congrArg Prod.fst (Option.some.inj hexec)).symm⟩

/-- The account that a sign-up inserts is its own. -/
theorem minding_insertParent (input : SignupDto) (requestMeta : RequestMeta) {digest : String}
    (hdigest : ∃ salt, digest = rt.argon2Hash input.password salt) :
    Minding seed w p (.signup input requestMeta)
      (AuthService.insertParent
        { email := input.email
          passwordHash := digest
          role := .parent
          firstName := input.firstName
          lastName := input.lastName
          dateOfBirth := none }) κ
      (fun user _ => w.view.store.born Tbl.users user.1 = some (p, user.2)) Regular := by
  refine minding_attempt (E := Regular) (Charter.Minds.post (minding_transaction
    (minding_save regular_query .users fun now j _ => ?_)) fun user _ _ hinserted =>
      hinserted.born) fun e κ' _ he => ?_
  · obtain ⟨salt, rfl⟩ := hdigest
    exact ⟨salt, rfl⟩
  · split
    · exact trivial
    · exact he

theorem minding_signup (input : SignupDto) (requestMeta : RequestMeta) :
    Minding seed w p (.signup input requestMeta) (AuthService.signup input requestMeta) κ
      (fun result κ' => Vouched seed w p (.signup input requestMeta)
        result.accessToken.accessToken κ') Regular := by
  refine minding_bind (minding_findByEmail input.email) fun found κ₁ _ _ => ?_
  cases found with
  | some user => exact trivial
  | none =>
      refine minding_bind (minding_hashPassword input.password) fun digest κ₂ _ hdigest =>
        minding_bind (minding_insertParent input requestMeta hdigest) fun user κ₃ _ hborn =>
          minding_bind (minding_issueRefreshToken fun j row howner => ?_) fun pair κ₄ _ _ => ?_
      · exact ⟨user.2, howner ▸ hborn⟩
      · refine ⟨⟨user.2, ?_, rfl⟩, user.2, hborn⟩
        rw [AuthService.issueToken, origin, hborn]

theorem minding_argon2Verify (digest plain : String) :
    Minding seed w p req (argon2Verify digest plain) κ
      (fun matched _ => rt.argon2Verify digest plain = some matched) Regular := by
  unfold argon2Verify
  split
  · assumption
  · exact trivial

/-- The session of a login; the task that it leaves behind knows the password. -/
theorem minding_login (input : LoginDto) (requestMeta : RequestMeta) :
    Minding seed w p (.login input requestMeta) (AuthService.login input requestMeta) κ
      (fun result κ' => Vouched seed w p (.login input requestMeta)
        result.accessToken.accessToken κ') Regular := by
  refine minding_bind (minding_findByEmail input.email) fun found κ₁ _ hfound => ?_
  cases found with
  | none => exact trivial
  | some user =>
      obtain ⟨hknown, hemail⟩ := hfound user rfl
      obtain ⟨b, hb, hrole, hsame⟩ := hknown.agrees.role
      refine minding_bind (minding_argon2Verify _ _) fun matched κ₂ hle₂ hmatched => ?_
      cases matched with
      | false => exact trivial
      | true =>
          have hopens (hhonest : HonestVerify rt) : Opens seed w user.1 input.password :=
            hknown.guarded hhonest input.password hmatched
          refine minding_bind (R := fun _ κ' => κ₂ ≤ κ') (Charter.Minds.fork hopens (le_refl κ₂))
            fun _ κ₃ _ hle₃ => minding_bind (minding_issueRefreshToken fun j row howner => ?_)
              fun pair κ₄ hle₄ _ => ⟨⟨b, hb, hrole⟩, hopens, ?_⟩
          · exact ⟨howner ▸ hopens, b, howner ▸ hb, hsame.trans hemail⟩
          · exact (le_trans hle₂ (le_trans hle₃ hle₄)).2 _ _ (hknown.there (by decide))

theorem minding_rehashIfNeeded {userId : Nat} {digest plain : String}
    (hstarts : Starts seed w (.rehashIfNeeded userId digest plain)) :
    Minding seed w p (.rehashIfNeeded userId digest plain)
      (AuthService.rehashIfNeeded userId digest plain) κ (fun _ _ => True) Regular := by
  unfold AuthService.rehashIfNeeded
  split
  · exact trivial
  · refine minding_attempt (E := Regular) (minding_bind (minding_hashPassword plain)
      fun fresh κ₁ _ hfresh => minding_transaction (minding_bind
        (Charter.minds_read regular_query .manager) ?_)) fun _ _ _ _ => trivial
    rintro s κ₂ - ⟨hreads, rfl⟩
    refine minding_bind (Charter.minds_touchEach (C := charter seed w) regular_query Tbl.users
      (fun i hi => ?_) fun row hnone => by cases hnone) fun _ _ _ _ => trivial
    obtain ⟨row, hmem, rfl⟩ := List.mem_map.mp hi
    obtain ⟨hrows, hmatch⟩ := List.mem_filter.mp hmem
    obtain rfl : row.1 = userId := beq_iff_eq.mp hmatch
    refine ⟨lt_of_lt_of_le (Snapshot.mem_rows.mp hrows).1 (le_max_right _ _), ?_⟩
    rintro now a ⟨⟨b, hb, hsame⟩, -⟩ -
    obtain ⟨salt, rfl⟩ := hfresh
    refine ⟨Or.inr ⟨rfl, salt, rfl⟩, ?_⟩
    rintro a' ha'
    obtain rfl := Option.some.inj ha'
    refine ⟨⟨b, hb, hsame⟩, fun hhonest other hverify => ?_⟩
    -- the new hash is made from the password that opened the account
    rw [hhonest plain salt other hverify]
    exact hstarts hhonest

end Sessions

section Rotation

variable {raw : String} {requestMeta : RequestMeta}

/-- What a refresh knows of the row that it presents. -/
structure PresentedToken (seed : Seed) (w : BackendWorld rt) (raw : String) (κ : Lore (schema rt))
    (row : Entity .refreshTokens) : Prop where
  agrees : Agrees seed w .refreshTokens row.1 row.2
  hash : row.2.tokenHash = rt.sha256 raw
  taken : row.1 < κ.floor Tbl.refreshTokens
  owner : κ.there Tbl.users row.2.userId

theorem PresentedToken.mono {κ' : Lore (schema rt)} {row : Entity .refreshTokens}
    (hrow : PresentedToken seed w raw κ row) (hle : κ ≤ κ') : PresentedToken seed w raw κ' row :=
  ⟨hrow.agrees, hrow.hash, lt_of_lt_of_le hrow.taken (hle.1 _), hle.2 _ _ hrow.owner⟩

/-- The token that was inserted at its place. -/
theorem PresentedToken.origin {row : Entity .refreshTokens}
    (hrow : PresentedToken seed w raw κ row) :
    ∃ old, Presents seed w raw row.1 old ∧ old.userId = row.2.userId ∧
      old.familyId = row.2.familyId := by
  obtain ⟨old, hold, huser, hfamily, hhash⟩ := hrow.agrees.token
  exact ⟨old, ⟨hold, hhash.symm.trans hrow.hash⟩, huser.symm, hfamily.symm⟩

/-- The account of the presented token gets the session. -/
theorem PresentedToken.vouches {row : Entity .refreshTokens}
    (hrow : PresentedToken seed w raw κ row)
    {user : User} (huser : Agrees seed w .users row.2.userId user) :
    Vouched seed w p (.refresh raw requestMeta)
      (AuthService.issueToken rt (row.2.userId, user)).accessToken κ := by
  obtain ⟨b, hb, hrole, -⟩ := huser.role
  obtain ⟨old, hpresents, howner, -⟩ := hrow.origin
  exact ⟨⟨b, hb, hrole⟩, ⟨row.1, old, hpresents, howner⟩, hrow.owner⟩

theorem minding_handleRevokedToken {row : Entity .refreshTokens} {hash : String} {now : Time}
    {graceCache : String → Option GraceEntry} (hrow : PresentedToken seed w raw κ row) :
    Minding seed w p (.refresh raw requestMeta)
      (AuthService.handleRevokedToken row.2 hash requestMeta now graceCache) κ
      (fun result κ' => Vouched seed w p (.refresh raw requestMeta)
        result.accessToken.accessToken κ') Regular := by
  unfold AuthService.handleRevokedToken
  dsimp only
  split
  · refine minding_bind (minding_findById hrow.owner) ?_
    rintro found κ' hle ⟨user, rfl, hagrees, -⟩
    exact (hrow.mono hle).vouches hagrees
  · refine minding_bind (minding_revokeFamily fun now a hfamily hactive => ?_)
      fun _ _ _ _ => trivial
    obtain ⟨old, hpresents, -, hsame⟩ := hrow.origin
    exact Or.inr ⟨⟨hactive, none.orElse fun _ => a.replacedById, rfl⟩, row.1, old, hpresents,
      hsame.trans hfamily.symm⟩

/-- The account of the outcome of a rotation. -/
def RotationVouched (seed : Seed) (w : BackendWorld rt) (p : Pid) (req : Request) :
    AuthService.RotationOutcome → Lore (schema rt) → Prop
  | .retried result, κ => Vouched seed w p req result.accessToken.accessToken κ
  | .rotated result _ _, κ => Vouched seed w p req result.accessToken.accessToken κ

theorem minding_buildRotationPayload {row : Entity .refreshTokens} {now : Time}
    (hrow : PresentedToken seed w raw κ row) :
    Minding seed w p (.refresh raw requestMeta)
      (AuthService.buildRotationPayload row requestMeta now) κ
      (RotationVouched seed w p (.refresh raw requestMeta)) Regular := by
  obtain ⟨old, hpresents, howner, hsame⟩ := hrow.origin
  refine minding_bind (minding_node .randomBytes) fun newRaw κ₁ hle₁ _ =>
    minding_bind (minding_save regular_query .refreshTokens fun now j hfresh => ?_)
      fun newRow κ₂ hle₂ _ => minding_bind (minding_revokeById fun now a hagrees hactive => ?_)
        fun _ κ₃ hle₃ _ => ?_
  · -- the successor stands after the row that is presented
    exact ⟨row.1, old, lt_of_lt_of_le (hrow.mono hle₁).taken hfresh, hpresents, howner.symm,
      hsame.symm⟩
  · obtain ⟨-, hfamily, -, -⟩ := fixed_eq (hagrees.same hrow.agrees)
    exact Or.inr ⟨⟨hactive, some newRow.1, rfl⟩, row.1, old, hpresents,
      hsame.trans hfamily.symm⟩
  · have hlater := hrow.mono (le_trans hle₁ (le_trans hle₂ hle₃))
    refine minding_bind (minding_findById hlater.owner) ?_
    rintro found κ' hle ⟨user, rfl, hagrees, -⟩
    exact (hlater.mono hle).vouches hagrees

theorem minding_refresh :
    Minding seed w p (.refresh raw requestMeta) (AuthService.refresh raw requestMeta) κ
      (fun result κ' => Vouched seed w p (.refresh raw requestMeta)
        result.accessToken.accessToken κ') Regular := by
  refine minding_bind (R := RotationVouched seed w p (.refresh raw requestMeta))
    (minding_transaction
      (minding_bind (minding_selectForUpdate raw requestMeta) fun found κ₁ _ hfound => ?_))
      fun outcome κ₂ _ hvouched => ?_
  · cases found with
    | none => exact trivial
    | some row =>
        obtain ⟨hagrees, hhash, htaken, howner⟩ := hfound row rfl
        have hrow : PresentedToken seed w raw κ₁ row := ⟨hagrees, hhash, htaken, howner⟩
        refine minding_bind (minding_node .turn) fun out κ₃ hle _ => ?_
        obtain ⟨now, graceCache⟩ := out
        dsimp only
        split
        · exact trivial
        · split
          · exact minding_bind (minding_handleRevokedToken (hrow.mono hle))
              fun result _ _ hvouched => hvouched
          · exact minding_buildRotationPayload (hrow.mono hle)
  · cases outcome with
    | retried result => exact hvouched
    | rotated result newRaw newExpiresAt =>
        exact minding_bind (minding_node (.setGraceEntry _ newRaw newExpiresAt))
          fun _ _ hle _ => Vouched.mono hvouched hle

end Rotation

end Mes
