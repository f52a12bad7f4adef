import Mes.Auth.TokenFamilies

/-!
The commits that change tokens, and why each of them keeps the invariant and
the guarantee: a transaction that only revokes, unlinks or deletes (logout,
theft, cleanup), the first token of a family, and a rotation. What a
transaction has written is described before its commit, so that a program can
carry the description along while others run.
-/

namespace Mes

open Transact

variable {rt : Runtime}

/-- The uncommitted version of a token in a transaction that only revokes,
unlinks or deletes. -/
inductive TameVersion (gone : Nat → Prop) (a : RefreshToken) :
    Option RefreshToken → Prop where
  | kept : TameVersion gone a (some a)
  | revoked (t : Time) (hactive : a.revokedAt = none) :
      TameVersion gone a (some { a with revokedAt := some t })
  | unlinked (j : Nat) (hlink : a.replacedById = some j) (hgone : gone j) :
      TameVersion gone a (some { a with replacedById := none })
  | deleted : TameVersion gone a none

/-- The transaction of `p` deletes the token. -/
def Deletes (p : Pid) (v : BackendView rt) (j : Nat) : Prop :=
  v.store.draft p Tbl.refreshTokens j = some none

/-- The transaction of `p` only revokes, unlinks or deletes tokens. -/
def TameWrites (p : Pid) (v : BackendView rt) : Prop :=
  ∀ i x, v.store.draft p Tbl.refreshTokens i = some x →
    ∃ a, tokens v i = some a ∧ TameVersion (Deletes p v) a x

/-- The committed tokens after a commit. -/
theorem tokens_commit (v : BackendView rt) (p : Pid) (e : Event (schema rt) (platform rt))
    (i : Nat) : tokens (v.put p e (v.store.finish p true)) i =
      (v.store.draft p Tbl.refreshTokens i).getD (tokens v i) := by
  unfold tokens
  rw [View.put_store, Store.finish_stored_keep]
  rfl

theorem commit_acts (v : BackendView rt) (p : Pid)
    (e : Event (schema rt) (platform rt)) :
    v.store.Acts p (v.put p e (v.store.finish p true)).store :=
  Store.acts_finish v.store p true

section Tame

variable {p : Pid} {v : BackendView rt} {e : Event (schema rt) (platform rt)}

/-- Where the tokens after a tame commit come from. -/
theorem tame_commit_cases (htame : TameWrites p v) {i : Nat} {a' : RefreshToken}
    (ha' : tokens (v.put p e (v.store.finish p true)) i = some a') :
    ∃ a, tokens v i = some a ∧ TameVersion (Deletes p v) a (some a') := by
  rw [tokens_commit] at ha'
  cases hdraft : v.store.draft p Tbl.refreshTokens i with
  | none =>
      rw [hdraft, Option.getD_none] at ha'
      exact ⟨a', ha', .kept⟩
  | some x =>
      rw [hdraft, Option.getD_some] at ha'
      subst ha'
      exact htame i (some a') hdraft

theorem tame_commit_guar (hwf : v.store.Wf) (htame : TameWrites p v) :
    TokenGuar p v (v.put p e (v.store.finish p true)) where
  evolves := fun i a a' ha ha' => by
    obtain ⟨a₀, ha₀, hversion⟩ := tame_commit_cases htame ha'
    have hsame : a₀ = a := Option.some.inj (ha₀.symm.trans ha)
    subst hsame
    cases hversion with
    | kept => exact Evolves.refl _ _
    | revoked t hactive =>
        refine ⟨rfl, ?_, ?_⟩
        · intro r hr
          rw [hactive] at hr
          cases hr
        · intro hrevoked
          rw [hactive] at hrevoked
          cases hrevoked
    | unlinked j hlink hgone =>
        refine ⟨rfl, fun _ hr => hr, fun _ => Or.inr ⟨rfl, j, hlink, ?_⟩⟩
        obtain ⟨b, hb, -⟩ := htame j none hgone
        refine gone_of_disappears hwf (commit_acts v p e) hb ?_
        rw [tokens_commit, show v.store.draft p Tbl.refreshTokens j = some none from hgone]
        rfl
  appears := fun j b hnone hsome => by
    obtain ⟨a, ha, -⟩ := tame_commit_cases htame hsome
    rw [hnone] at ha
    cases ha
  births := fun i q b hnone hsome => by
    have hsame : tokenBorn v i = some (q, b) := hsome
    rw [hnone] at hsame
    cases hsame
  mintKept := fun _ _ hminted => hminted
  mintBy := fun s q hnone hsome => by
    have hsame : v.mem.minted s = some q := hsome
    rw [hnone] at hsame
    cases hsame

theorem tame_commit_inv (hwf : v.store.Wf) (hinv : TokenInv v)
    (htame : TameWrites p v) : TokenInv (v.put p e (v.store.finish p true)) := by
  refine hinv.of_guar hwf (commit_acts v p e) (tame_commit_guar hwf htame) rfl rfl ?_ ?_
  · have hbefore (i : Nat) (a' : RefreshToken)
        (ha' : tokens (v.put p e (v.store.finish p true)) i = some a')
        (hactive : a'.revokedAt = none) :
        ∃ a, tokens v i = some a ∧ a.revokedAt = none ∧ a.familyId = a'.familyId := by
      obtain ⟨a, ha, hversion⟩ := tame_commit_cases htame ha'
      refine ⟨a, ha, ?_⟩
      cases hversion with
      | kept => exact ⟨hactive, rfl⟩
      | revoked t hwas => exact ⟨hwas, rfl⟩
      | unlinked j hlink hgone => exact ⟨hactive, rfl⟩
    intro i j a' b' ha' hb' hactive hactive' hfamily
    obtain ⟨a, ha, hwas, hfa⟩ := hbefore i a' ha' hactive
    obtain ⟨b, hb, hwas', hfb⟩ := hbefore j b' hb' hactive'
    exact hinv.activeUnique i j a b ha hb hwas hwas' (by rw [hfa, hfb, hfamily])
  · intro i j a' ha' hlink
    obtain ⟨a, ha, hversion⟩ := tame_commit_cases htame ha'
    cases hversion with
    | kept => exact hinv.links i j a' ha hlink
    | revoked t hactive =>
        obtain ⟨-, r, q, b, hr, -⟩ := hinv.links i j a ha hlink
        rw [hactive] at hr
        cases hr
    | unlinked k hk hgone => cases hlink

end Tame

section Root

variable {p : Pid} {v : BackendView rt} {e : Event (schema rt) (platform rt)}

/-- The transaction of `p` has inserted `b` as the token `j` of a family that no
token had before, and has written no other token. -/
structure RootWrites (p : Pid) (j : Nat) (b : RefreshToken) (v : BackendView rt) :
    Prop where
  draft : ∀ i, v.store.draft p Tbl.refreshTokens i =
    if i = j then some (some b) else none
  vacant : tokens v j = none
  born : tokenBorn v j = some (p, b)
  active : b.revokedAt = none
  unlinked : b.replacedById = none
  minted : v.mem.minted b.familyId = some p
  root : RootOf v j b

theorem root_commit_tokens {j : Nat} {b : RefreshToken} (hroot : RootWrites p j b v)
    (i : Nat) : tokens (v.put p e (v.store.finish p true)) i =
      if i = j then some b else tokens v i := by
  rw [tokens_commit, hroot.draft]
  split <;> rfl

theorem root_commit_guar {j : Nat} {b : RefreshToken} (hroot : RootWrites p j b v) :
    TokenGuar p v (v.put p e (v.store.finish p true)) where
  evolves := fun i a a' ha ha' => by
    rw [root_commit_tokens hroot] at ha'
    split at ha'
    · rename_i hid
      rw [hid, hroot.vacant] at ha
      cases ha
    · rw [ha] at ha'
      rw [Option.some.inj ha']
      exact Evolves.refl _ _
  appears := fun i c hnone hsome => by
    rw [root_commit_tokens hroot] at hsome
    split at hsome
    · rename_i hid
      subst hid
      rw [← Option.some.inj hsome]
      exact ⟨⟨b, hroot.born, rfl⟩, hroot.active, Or.inl hroot.root⟩
    · rw [hnone] at hsome
      cases hsome
  births := fun i q c hnone hsome => by
    have hsame : tokenBorn v i = some (q, c) := hsome
    rw [hnone] at hsame
    cases hsame
  mintKept := fun _ _ hminted => hminted
  mintBy := fun s q hnone hsome => by
    have hsame : v.mem.minted s = some q := hsome
    rw [hnone] at hsame
    cases hsame

theorem root_commit_inv {j : Nat} {b : RefreshToken} (hwf : v.store.Wf)
    (hinv : TokenInv v) (hroot : RootWrites p j b v) :
    TokenInv (v.put p e (v.store.finish p true)) := by
  refine hinv.of_guar hwf (commit_acts v p e) (root_commit_guar hroot) rfl rfl ?_ ?_
  · have hother (i : Nat) (a : RefreshToken) (ha : tokens v i = some a)
        (hfamily : a.familyId = b.familyId) : i = j := by
      obtain ⟨q, c, hc, hfixed⟩ := hinv.bornAs i a ha
      exact hroot.root i q c hc ((fixed_eq hfixed).2.1.trans hfamily)
    intro i k a c ha hc hactive hactive' hfamily
    rw [root_commit_tokens hroot] at ha hc
    split at ha
    · rename_i hi
      split at hc
      · rename_i hk
        rw [hi, hk]
      · rw [hi, hother k c hc (by rw [Option.some.inj ha, hfamily])]
    · split at hc
      · rename_i hk
        rw [hk, hother i a ha (by rw [Option.some.inj hc, hfamily])]
      · exact hinv.activeUnique i k a c ha hc hactive hactive' hfamily
  · intro i k a ha hlink
    rw [root_commit_tokens hroot] at ha
    split at ha
    · rw [← Option.some.inj ha, hroot.unlinked] at hlink
      cases hlink
    · exact hinv.links i k a ha hlink

end Root

section Rotation

variable {p : Pid} {v : BackendView rt} {e : Event (schema rt) (platform rt)}
  {i j : Nat} {a b : RefreshToken} {t₀ : Time}

/-- A token after its rotation. -/
def RefreshToken.rotatedTo (a : RefreshToken) (j : Nat) (t₀ : Time) : RefreshToken :=
  { a with revokedAt := some t₀, replacedById := some j }

/-- The transaction of `p` is about to replace the active token `i` by the new
token `j`; its version of the old one is `x`. Whatever else it has locked, it has
not changed. -/
structure RotationWrites (p : Pid) (i j : Nat) (a x b : RefreshToken) (t₀ : Time)
    (v : BackendView rt) : Prop where
  old : tokens v i = some a
  active : a.revokedAt = none
  oldDraft : v.store.draft p Tbl.refreshTokens i = some (some x)
  newDraft : v.store.draft p Tbl.refreshTokens j = some (some b)
  others : ∀ k, k ≠ i → k ≠ j →
    (v.store.draft p Tbl.refreshTokens k).getD (tokens v k) = tokens v k
  vacant : tokens v j = none
  born : tokenBorn v j = some (p, b)
  newActive : b.revokedAt = none
  newUnlinked : b.replacedById = none
  order : i < j
  userId : b.userId = a.userId
  familyId : b.familyId = a.familyId
  lifetime : t₀ + TOKEN_TTL ≤ b.expiresAt

theorem rotation_commit_tokens
    (hrotation : RotationWrites p i j a (a.rotatedTo j t₀) b t₀ v) (k : Nat) :
    tokens (v.put p e (v.store.finish p true)) k =
      if k = j then some b else if k = i then some (a.rotatedTo j t₀)
      else tokens v k := by
  rw [tokens_commit]
  split
  · rename_i hk
    rw [hk, hrotation.newDraft, Option.getD_some]
  · rename_i hkj
    split
    · rename_i hk
      rw [hk, hrotation.oldDraft, Option.getD_some]
    · rename_i hki
      exact hrotation.others k hki hkj

theorem rotation_commit_guar
    (hrotation : RotationWrites p i j a (a.rotatedTo j t₀) b t₀ v) :
    TokenGuar p v (v.put p e (v.store.finish p true)) where
  evolves := fun k c c' hc hc' => by
    rw [rotation_commit_tokens hrotation] at hc'
    split at hc'
    · rename_i hk
      rw [hk, hrotation.vacant] at hc
      cases hc
    · split at hc'
      · rename_i hk
        rw [hk, hrotation.old] at hc
        have hca : c = a := (Option.some.inj hc).symm
        have hca' : c' = a.rotatedTo j t₀ := (Option.some.inj hc').symm
        subst hca hca'
        have hactive := hrotation.active
        constructor
        · rfl
        · intro r hr
          rw [hactive] at hr
          cases hr
        · intro hrevoked
          rw [hactive] at hrevoked
          cases hrevoked
      · rw [hc] at hc'
        rw [Option.some.inj hc']
        exact Evolves.refl _ _
  appears := fun k c hnone hsome => by
    have hi : tokens (v.put p e (v.store.finish p true)) i =
        some (a.rotatedTo j t₀) := by
      rw [rotation_commit_tokens hrotation, if_neg (Nat.ne_of_lt hrotation.order),
        if_pos rfl]
    rw [rotation_commit_tokens hrotation] at hsome
    split at hsome
    · rename_i hk
      subst hk
      rw [← Option.some.inj hsome]
      have hsuccessor : SuccessorOf v (v.put p e (v.store.finish p true)) k b :=
        ⟨i, a, a.rotatedTo k t₀, hrotation.old, hrotation.active, hi, rfl,
          hrotation.userId, hrotation.familyId⟩
      exact ⟨⟨b, hrotation.born, rfl⟩, hrotation.newActive, Or.inr hsuccessor⟩
    · split at hsome
      · rename_i hk
        rw [hk, hrotation.old] at hnone
        cases hnone
      · rw [hnone] at hsome
        cases hsome
  births := fun k q c hnone hsome => by
    have hsame : tokenBorn v k = some (q, c) := hsome
    rw [hnone] at hsame
    cases hsame
  mintKept := fun _ _ hminted => hminted
  mintBy := fun s q hnone hsome => by
    have hsame : v.mem.minted s = some q := hsome
    rw [hnone] at hsame
    cases hsame

/-- After a rotation only the new token of the family is active. -/
theorem rotation_active (hinv : TokenInv v)
    (hrotation : RotationWrites p i j a (a.rotatedTo j t₀) b t₀ v)
    {k : Nat} {c : RefreshToken}
    (hc : tokens (v.put p e (v.store.finish p true)) k = some c)
    (hactive : c.revokedAt = none) (hfamily : c.familyId = a.familyId) : k = j := by
  rw [rotation_commit_tokens hrotation] at hc
  split at hc
  · assumption
  · split at hc
    · rw [← Option.some.inj hc] at hactive
      cases hactive
    · rename_i hki
      exact absurd (hinv.activeUnique k i c a hc hrotation.old hactive
        hrotation.active hfamily) hki

theorem rotation_commit_inv (hwf : v.store.Wf) (hinv : TokenInv v)
    (hrotation : RotationWrites p i j a (a.rotatedTo j t₀) b t₀ v) :
    TokenInv (v.put p e (v.store.finish p true)) := by
  have hguar : TokenGuar p v (v.put p e (v.store.finish p true)) :=
    rotation_commit_guar hrotation
  refine hinv.of_guar hwf (commit_acts v p e) hguar rfl rfl ?_ ?_
  · intro k l c d hc hd hactive hactive' hfamily
    have hother (m : Nat) (x : RefreshToken)
        (hx : tokens (v.put p e (v.store.finish p true)) m = some x)
        (hxactive : x.revokedAt = none) (hm : m ≠ j) :
        tokens v m = some x ∧ x.familyId ≠ a.familyId := by
      have hfar : x.familyId ≠ a.familyId :=
        fun hsame => hm (rotation_active hinv hrotation hx hxactive hsame)
      rw [rotation_commit_tokens hrotation, if_neg hm] at hx
      split at hx
      · rw [← Option.some.inj hx] at hxactive
        cases hxactive
      · exact ⟨hx, hfar⟩
    have hjrow (m : Nat) (x : RefreshToken)
        (hx : tokens (v.put p e (v.store.finish p true)) m = some x) (hm : m = j) :
        x.familyId = a.familyId := by
      rw [rotation_commit_tokens hrotation, if_pos hm] at hx
      rw [← Option.some.inj hx, hrotation.familyId]
    rcases eq_or_ne k j with hk | hk
    · rcases eq_or_ne l j with hl | hl
      · rw [hk, hl]
      · have hfar := (hother l d hd hactive' hl).2
        exact absurd (hfamily.symm.trans (hjrow k c hc hk)) hfar
    · have ⟨hc₀, hfar⟩ := hother k c hc hactive hk
      rcases eq_or_ne l j with hl | hl
      · exact absurd (hfamily.trans (hjrow l d hd hl)) hfar
      · exact hinv.activeUnique k l c d hc₀ (hother l d hd hactive' hl).1 hactive
          hactive' hfamily
  · intro k l c hc hlink
    rw [rotation_commit_tokens hrotation] at hc
    split at hc
    · rw [← Option.some.inj hc, hrotation.newUnlinked] at hlink
      cases hlink
    · split at hc
      · rename_i hk
        subst hk
        rw [← Option.some.inj hc] at hlink ⊢
        have hl : j = l := Option.some.inj hlink
        subst hl
        exact ⟨hrotation.order, t₀, p, b, rfl, hrotation.born, hrotation.userId,
          hrotation.familyId, hrotation.lifetime⟩
      · exact hinv.links k l c hc hlink

end Rotation

end Mes
