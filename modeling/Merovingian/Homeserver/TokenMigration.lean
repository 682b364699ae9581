import Merovingian.Homeserver.RefreshSafety

/-!
# Moving an access token to the v4 key

A session that is still under a v3 hash is moved to the v4 hash of its token when it is used
(`upgrade_v3_access_token_to_v4`).  The session is rewritten first; then the v3 row is revoked and
a v4 row is inserted, by two statements of which each may fail.  The v3 hash is read through a view
of the text that the first step overwrites.  `authenticatedUser_keeps_login` says when the login
survives: always, where the view reads no hash; else not when only the insertion fails
(`migration_loses_login`).
-/

namespace Merovingian

open List TokenStore

namespace LocalDatabase

/-- The sessions that `hydrate_local_database` makes of the stored rows. -/
def hydrateSessions (store : TokenStore) : List LocalSession :=
  store.accessTokens.map fun token => ⟨token.userId, token.deviceId, token.tokenHash,
    token.revoked, token.expiresAt, token.predecessorRefreshHash⟩

/-- The v4 and the v3 hash of a token. -/
def keyedTokenHashes (crypto : TokenCrypto) (keys : TokenHmacKeys) (token : Str) : List Str :=
  (keys.v4.bind (hashAccessTokenV4 crypto token)).toList ++
    (keys.v3.bind (hashAccessTokenV3 crypto token)).toList

/-- User, device, expiry and predecessor. -/
def loginOf (row : PersistentAccessToken) : Str × Str × Option ℤ × Str :=
  (row.userId, row.deviceId, row.expiresAt, row.predecessorRefreshHash)

/-- The logins of the rows that are not revoked and have one of these hashes. -/
def logins (hashes : List Str) (store : TokenStore) : List (Str × Str × Option ℤ × Str) :=
  (store.accessTokens.filter fun row => !row.revoked && decide (row.tokenHash ∈ hashes)).map loginOf

/-- Stored tokens and live sessions agree: no two rows have one hash, and a session that is not
revoked has a row that is not. -/
structure Backed (database : LocalDatabase) : Prop where
  unique : (database.persistentStore.accessTokens.map PersistentAccessToken.tokenHash).Nodup
  stored : ∀ session ∈ database.sessions, session.revoked = false →
    ∃ row ∈ database.persistentStore.accessTokens, row.revoked = false ∧
      row.tokenHash = session.accessTokenHash ∧ row.userId = session.userId ∧
      row.deviceId = session.deviceId ∧ row.expiresAt = session.expiresAt

/-- No session and no row has the hash. -/
def Unused (database : LocalDatabase) (tokenHash : Str) : Prop :=
  (∀ session ∈ database.sessions, session.accessTokenHash ≠ tokenHash) ∧
    ∀ row ∈ database.persistentStore.accessTokens, row.tokenHash ≠ tokenHash

/-- If the session has to be moved and the view of its hash still reads it, the v3 row stays or a
v4 row that says the same is added. -/
def SafeToMove (crypto : TokenCrypto) (env : CallEnv) (database : LocalDatabase)
    (accessToken : Str) (session : LocalSession) : Prop :=
  ∀ v4Hash, tokenHashIsV3 session.accessTokenHash = true →
    issueTokenHash crypto (env.keys 2) accessToken = some v4Hash →
    env.overwritten session.accessTokenHash = session.accessTokenHash →
      env.commits .revokeAccessToken = false ∨ env.commits .insertAccessToken = true ∧
        database.persistentStore.accessTokenExists v4Hash = false ∧
        ∀ row ∈ database.persistentStore.accessTokens,
          row.tokenHash = session.accessTokenHash → row.predecessorRefreshHash = []

/-- The session of the presented token, if there is one, is safe to move. -/
def CallIsSafe (crypto : TokenCrypto) (env : CallEnv) (database : LocalDatabase)
    (accessToken : Str) : Prop :=
  ∀ position session, env.masquerade accessToken = none →
    presentedSession crypto env database accessToken = some position →
    database.sessions[position]? = some session →
      SafeToMove crypto env database accessToken session

/-- What a call is to leave: the rows accept the token for the same logins as before and no more
often; every session that was valid is valid again after a restart; and the rows and the sessions
of other tokens are as they were. -/
structure KeepsLogin (keyed hashes : List Str) (database after : LocalDatabase) : Prop where
  logins : (logins keyed after.persistentStore).Perm (logins keyed database.persistentStore)
  restored : ∀ session ∈ database.sessions, session.revoked = false →
    ∃ restored ∈ hydrateSessions after.persistentStore, restored.revoked = false ∧
      restored.userId = session.userId ∧ restored.deviceId = session.deviceId ∧
      restored.expiresAt = session.expiresAt ∧
      (restored.accessTokenHash = session.accessTokenHash ∨
        session.accessTokenHash ∈ keyed ∧ restored.accessTokenHash ∈ keyed)
  rows : (after.persistentStore.accessTokens.filter fun row => row.tokenHash ∉ keyed) =
    database.persistentStore.accessTokens.filter fun row => row.tokenHash ∉ keyed
  sessions : (after.sessions.filter fun session => session.accessTokenHash ∉ hashes) =
    database.sessions.filter fun session => session.accessTokenHash ∉ hashes

variable {crypto : TokenCrypto} {env : CallEnv} {keys : TokenHmacKeys} {accessToken tokenHash : Str}
  {database database' : LocalDatabase} {session : LocalSession} {keyed hashes : List Str}
  {position : ℕ}

/-! ### Hashes -/

lemma eq_of_tokenHashMatches {left right : Str} (h : tokenHashMatches left right = true) :
    left = right := by
  simp only [tokenHashMatches, Bool.and_eq_true, beq_iff_eq] at h
  exact h.2

lemma tokenIsHash_of_issueTokenHash {v4Hash : Str}
    (h : issueTokenHash crypto keys accessToken = some v4Hash) : tokenIsHash v4Hash = true := by
  obtain ⟨key, -, hhash⟩ := Option.bind_eq_some_iff.mp h
  unfold hashAccessTokenV4 at hhash
  split_ifs at hhash
  obtain ⟨digest, -, rfl⟩ := Option.map_eq_some_iff.mp hhash
  rw [tokenIsHash, tokenHashIsV4, isPrefixOf_iff_prefix.mpr (prefix_append _ _), Bool.or_true]

lemma mem_keyed_of_isV3 (h : tokenHash ∈ lookupTokenHashes crypto keys keys accessToken)
    (hv3 : tokenHashIsV3 tokenHash = true) :
    tokenHash ∈ keyedTokenHashes crypto keys accessToken := by
  refine (mem_append.mp h).resolve_right fun hv2 => ?_
  have hhash : hashAccessTokenV2 crypto accessToken = some tokenHash := Option.mem_toList.mp hv2
  unfold hashAccessTokenV2 at hhash
  split_ifs at hhash
  obtain ⟨digest, -, rfl⟩ := Option.map_eq_some_iff.mp hhash
  have hshort : ¬ lit "token-hash:v3:" <+: lit "token-hash:v2:" := by decide
  have hlong := isPrefixOf_iff_prefix.mp hv3
  exact hshort (prefix_of_prefix_length_le hlong (prefix_append _ _) (by decide))

lemma presentedSession_spec (h : presentedSession crypto env database accessToken = some position) :
    ∃ session, database.sessions[position]? = some session ∧ session.revoked = false ∧
      session.accessTokenHash ∈ lookupTokenHashes crypto (env.keys 0) (env.keys 1) accessToken := by
  obtain ⟨candidate, hcandidate, hfind⟩ := exists_of_findSome?_eq_some h
  have htest := find?_some hfind
  cases hsession : database.sessions[position]? with
  | none => simp [hsession] at htest
  | some session =>
    simp only [hsession, Bool.and_eq_true] at htest
    rw [← eq_of_tokenHashMatches htest.1.1] at hcandidate
    split_ifs at hcandidate
    · cases hcandidate
    · exact ⟨session, rfl, by simpa using htest.1.2, hcandidate⟩

/-! ### What a call does -/

/-- The session is the same, or it had and has one of the hashes. -/
def Kept (hashes : List Str) (old new : LocalSession) : Prop :=
  new = old ∨ old.accessTokenHash ∈ hashes ∧ new.accessTokenHash ∈ hashes

/-- The rows and the sessions of other hashes stay. -/
structure Moved (keyed hashes : List Str) (database database' : LocalDatabase) : Prop where
  rows : (database'.persistentStore.accessTokens.filter fun row => row.tokenHash ∉ keyed) =
    database.persistentStore.accessTokens.filter fun row => row.tokenHash ∉ keyed
  sessions : Forall₂ (Kept hashes) database.sessions database'.sessions

lemma Moved.refl : Moved keyed hashes database database :=
  ⟨rfl, forall₂_same.mpr fun _ _ => .inl rfl⟩

lemma filter_eq_of_forall₂ {α : Type} {p : α → Prop} [DecidablePred p] {l l' : List α}
    (h : Forall₂ (fun a b => b = a ∨ p a ∧ p b) l l') :
    (l'.filter fun b => ¬ p b) = l.filter fun a => ¬ p a := by
  induction h with
  | nil => rfl
  | cons hkept _ ih =>
    rcases hkept with rfl | ⟨hold, hnew⟩
    · rw [filter_cons, filter_cons, ih]
    · rw [filter_cons_of_neg (by simp [hnew]), filter_cons_of_neg (by simp [hold]), ih]

section Rows

variable {store store' : TokenStore} {row : PersistentAccessToken}
  {added : List PersistentAccessToken} (hmem : row.tokenHash ∈ keyed)
  (hadded : ∀ token ∈ added, token.revoked = false ∧ token.tokenHash ∈ keyed)
  (hrows : store'.accessTokens = (store.accessTokens.map fun other =>
    if other.tokenHash == row.tokenHash && !other.revoked then { other with revoked := true }
    else other) ++ added)

include hmem hadded hrows

lemma logins_perm_iff (hunique : (store.accessTokens.map PersistentAccessToken.tokenHash).Nodup)
    (hrow : row ∈ store.accessTokens) (hlive : row.revoked = false) :
    (logins keyed store').Perm (logins keyed store) ↔ added.map loginOf = [loginOf row] := by
  obtain ⟨before, after, hsplit⟩ := append_of_mem hrow
  rw [hsplit, map_append, map_cons, nodup_middle, ← map_append, nodup_cons] at hunique
  have hothers : ∀ other ∈ before ++ after, (if other.tokenHash == row.tokenHash &&
      !other.revoked then { other with revoked := true } else other) = other := by
    intro other hother
    have hne : other.tokenHash ≠ row.tokenHash := fun heq =>
      hunique.1 (heq ▸ mem_map_of_mem hother)
    simp [hne]
  rw [forall_mem_append] at hothers
  have hkept : added.filter (fun row => !row.revoked && decide (row.tokenHash ∈ keyed)) = added :=
    filter_eq_self.mpr fun token htoken => by simp [hadded token htoken]
  rw [logins, hrows, logins, hsplit, map_append, map_cons, map_congr_left hothers.1,
    map_congr_left hothers.2, map_id', map_id']
  simp only [filter_append, filter_cons, map_append, hlive, hmem, hkept, beq_self_eq_true,
    Bool.not_false, Bool.not_true, Bool.and_self, Bool.false_and, if_true, Bool.false_eq_true,
    if_false, decide_true, map_cons, append_assoc]
  rw [perm_append_left_iff, ← perm_singleton]
  exact ⟨fun h => (perm_append_left_iff _).mp (h.trans (perm_append_singleton _ _).symm),
    fun h => (h.append_left _).trans (perm_append_singleton _ _)⟩

lemma filter_rows_eq : (store'.accessTokens.filter fun row => row.tokenHash ∉ keyed) =
    store.accessTokens.filter fun row => row.tokenHash ∉ keyed := by
  rw [hrows, filter_append, filter_eq_of_forall₂ (forall₂_map_right_iff.mpr
    (forall₂_same.mpr fun other _ => ?_))]
  · rw [append_right_eq_self, filter_eq_nil_iff]
    exact fun token htoken => by simp [hadded token htoken]
  · split_ifs with hother
    · simp only [Bool.and_eq_true, beq_iff_eq] at hother
      exact .inr ⟨hother.1 ▸ hmem, hother.1 ▸ hmem⟩
    · exact .inl rfl

end Rows

lemma kept_mapIdx {p : ℕ → LocalSession → Bool} {sessions : List LocalSession}
    (hmem : tokenHash ∈ hashes)
    (h : ∀ i, ∀ old ∈ sessions, p i old = true → old.accessTokenHash ∈ hashes) :
    Forall₂ (Kept hashes) sessions (sessions.mapIdx fun i old =>
      if p i old then { old with accessTokenHash := tokenHash } else old) := by
  refine forall₂_iff_get.mpr ⟨length_mapIdx.symm, fun i hi _ => ?_⟩
  rw [get_eq_getElem, get_eq_getElem, getElem_mapIdx]
  split_ifs with hp
  · exact .inr ⟨h i _ (getElem_mem hi) hp, hmem⟩
  · exact .inl rfl

lemma revokeAccessToken_eq_self {commits : Commits} {store : TokenStore}
    (h : commits .revokeAccessToken = false ∨
      ∀ row ∈ store.accessTokens, row.tokenHash ≠ tokenHash) :
    store.revokeAccessToken commits tokenHash = (0, store) := by
  rw [revokeAccessToken, revokeAccessRows]
  rcases h with hfailed | hunused
  · rw [hfailed, Bool.not_false, if_pos rfl]
  · have hnone : ∀ row ∈ store.accessTokens, ¬ (row.tokenHash == tokenHash && !row.revoked) = true :=
      fun row hrow => by simp [hunused row hrow]
    rw [countP_eq_zero.mpr hnone, map_congr_left fun row hrow => if_neg (hnone row hrow), map_id',
      ite_self]

lemma accessTokens_revoke_store {commits : Commits} (store : TokenStore) (tokenHash : Str)
    (token : PersistentAccessToken) (hcommits : commits .revokeAccessToken = true)
    (htoken : tokenIsHash token.tokenHash = true) :
    ((store.revokeAccessToken commits tokenHash).2.storeAccessToken commits token).2.accessTokens =
      (store.accessTokens.map fun other =>
        if other.tokenHash == tokenHash && !other.revoked then { other with revoked := true }
        else other) ++
      if commits .insertAccessToken && !store.accessTokenExists token.tokenHash then [token]
      else [] := by
  have hexists := revokeAccessRows_tokenHash (commits .revokeAccessToken)
    (fun token => token.tokenHash == tokenHash) store token.tokenHash
  have hrows : (store.revokeAccessToken commits tokenHash).2.accessTokens =
      store.accessTokens.map fun other =>
        if other.tokenHash == tokenHash && !other.revoked then { other with revoked := true }
        else other := by
    simp [revokeAccessToken, revokeAccessRows, hcommits]
  rw [← hrows, ← hexists, ← revokeAccessToken, storeAccessToken, if_neg (by simp [htoken])]
  split_ifs <;> simp_all

section Upgrade

variable (hread : env.overwritten session.accessTokenHash = session.accessTokenHash ∨
  database.Unused (env.overwritten session.accessTokenHash)) {last : LocalSession}

include hread in
/-- Whatever the view reads, only live sessions under the old hash are rewritten. -/
lemma hash_of_upgraded (i position : ℕ) (hmem : last ∈ database.sessions)
    (h : (!last.revoked && tokenHashMatches last.accessTokenHash (if i ≤ position then
      session.accessTokenHash else env.overwritten session.accessTokenHash)) = true) :
    last.revoked = false ∧ last.accessTokenHash = session.accessTokenHash := by
  rw [Bool.and_eq_true, Bool.not_eq_true'] at h
  have heq := eq_of_tokenHashMatches h.2
  refine ⟨h.1, ?_⟩
  split_ifs at heq
  · exact heq
  · rcases hread with hread | hunused
    · exact heq.trans hread
    · exact absurd heq (hunused.1 last hmem)

/-- Once the v3 row is revoked, what is inserted says the same exactly when the move is safe. -/
lemma inserted_iff_safeToMove {row : PersistentAccessToken} {v4Hash : Str}
    (hbacked : database.Backed) (hrow : row ∈ database.persistentStore.accessTokens)
    (hrowHash : row.tokenHash = session.accessTokenHash) (huser : row.userId = last.userId)
    (hdevice : row.deviceId = last.deviceId) (hexpiry : row.expiresAt = last.expiresAt)
    (hv3 : tokenHashIsV3 session.accessTokenHash = true)
    (hissue : issueTokenHash crypto (env.keys 2) accessToken = some v4Hash)
    (hself : env.overwritten session.accessTokenHash = session.accessTokenHash)
    (hcommits : env.commits .revokeAccessToken = true) :
    (if env.commits .insertAccessToken && !database.persistentStore.accessTokenExists v4Hash then
        [(⟨last.userId, last.deviceId, v4Hash, false, last.expiresAt, []⟩ : PersistentAccessToken)]
      else []).map loginOf = [loginOf row] ↔ SafeToMove crypto env database accessToken session := by
  constructor
  · intro hlogin v4 _ hissue' _
    cases hissue.symm.trans hissue'
    split_ifs at hlogin with hinsert
    · rw [Bool.and_eq_true, Bool.not_eq_true'] at hinsert
      refine .inr ⟨hinsert.1, hinsert.2, fun other hother heq => ?_⟩
      rw [inj_on_of_nodup_map hbacked.unique hother hrow (heq.trans hrowHash.symm)]
      simp only [loginOf, map_cons, map_nil, cons.injEq, Prod.mk.injEq] at hlogin
      exact hlogin.1.2.2.2.symm
    · cases hlogin
  · intro hsafe
    obtain ⟨hinsert, hfree, hpredecessor⟩ :=
      (hsafe v4Hash hv3 hissue hself).resolve_left (by simp [hcommits])
    simp [hinsert, hfree, loginOf, huser, hdevice, hexpiry, hpredecessor row hrow hrowHash]

include hread in
lemma moved_upgrade (hbacked : database.Backed)
    (hsession : database.sessions[position]? = some session) (hlive : session.revoked = false)
    (hhash : session.accessTokenHash ∈ hashes)
    (hkeyed : tokenHashIsV3 session.accessTokenHash = true → session.accessTokenHash ∈ keyed)
    (hissued : ∀ v4Hash ∈ issueTokenHash crypto (env.keys 2) accessToken,
      v4Hash ∈ keyed ∧ v4Hash ∈ hashes) :
    let upgraded := upgradeV3AccessTokenToV4 crypto env database accessToken position
      session.accessTokenHash
    Moved keyed hashes database upgraded ∧
      ((logins keyed upgraded.persistentStore).Perm (logins keyed database.persistentStore) ↔
        SafeToMove crypto env database accessToken session) := by
  unfold upgradeV3AccessTokenToV4
  split
  · next hversion =>
    exact ⟨.refl, iff_of_true (.refl _) fun _ hv3 => absurd hv3 (by simpa using hversion)⟩
  next hversion =>
  have hv3 : tokenHashIsV3 session.accessTokenHash = true := by simpa using hversion
  split
  · next hnone =>
    exact ⟨.refl, iff_of_true (.refl _) fun _ _ hissue => absurd hissue (by simp [hnone])⟩
  next v4Hash hissue =>
  obtain ⟨hv4, hv4'⟩ := hissued v4Hash hissue
  dsimp only
  split
  · next hnone =>
    -- the session itself is one that changes
    have hmem : (session, position) ∈ database.sessions.zipIdx :=
      mk_mem_zipIdx_iff_getElem?.mpr hsession
    refine absurd (filter_eq_nil_iff.mp (getLast?_eq_none_iff.mp hnone) _ hmem) ?_
    simp [hlive, tokenHashMatches, hv3]
  next last i hlast =>
  obtain ⟨hentry, hupgraded⟩ := mem_filter.mp (mem_of_getLast? hlast)
  have hlastMem : last ∈ database.sessions := fst_mem_of_mem_zipIdx hentry
  obtain ⟨hlastLive, hlastHash⟩ := hash_of_upgraded hread i position hlastMem hupgraded
  have hsessions := kept_mapIdx hv4' fun i other hother hupgraded =>
    (hash_of_upgraded hread i position hother hupgraded).2 ▸ hhash
  obtain ⟨row, hrow, hrowLive, hrowHash, huser, hdevice, hexpiry⟩ :=
    hbacked.stored last hlastMem hlastLive
  rw [hlastHash] at hrowHash
  by_cases hkept : env.commits .revokeAccessToken = false ∨
      ∀ row ∈ database.persistentStore.accessTokens,
        row.tokenHash ≠ env.overwritten session.accessTokenHash
  · rw [revokeAccessToken_eq_self hkept]
    refine ⟨⟨rfl, hsessions⟩, iff_of_true (.refl _) fun _ _ _ hself => ?_⟩
    exact hkept.imp_right fun hunused => absurd (hrowHash.trans hself.symm) (hunused row hrow)
  rw [not_or, Bool.not_eq_false] at hkept
  obtain ⟨hcommits, hused⟩ := hkept
  have hself := hread.resolve_right fun hunused => hused hunused.2
  rw [hself, ← hrowHash] at hsessions ⊢
  have hcount : (database.persistentStore.revokeAccessToken env.commits row.tokenHash).1 ≠ 0 := by
    simp only [revokeAccessToken, hcommits]
    exact (countP_pos_iff.mpr ⟨row, hrow, by simp [hrowLive]⟩).ne'
  have hrows := accessTokens_revoke_store database.persistentStore row.tokenHash
    ⟨last.userId, last.deviceId, v4Hash, false, last.expiresAt, []⟩ hcommits
    (tokenIsHash_of_issueTokenHash hissue)
  have hmem : row.tokenHash ∈ keyed := hrowHash ▸ hkeyed hv3
  have hadded : ∀ token ∈ (if env.commits .insertAccessToken &&
      !database.persistentStore.accessTokenExists v4Hash then
        [(⟨last.userId, last.deviceId, v4Hash, false, last.expiresAt, []⟩ : PersistentAccessToken)]
      else []), token.revoked = false ∧ token.tokenHash ∈ keyed := by
    split_ifs <;> simp [hv4]
  rw [if_neg hcount]
  refine ⟨⟨filter_rows_eq hmem hadded hrows, hsessions⟩,
    (logins_perm_iff hmem hadded hrows hbacked.unique hrow hrowLive).trans ?_⟩
  exact inserted_iff_safeToMove hbacked hrow hrowHash huser hdevice hexpiry hv3 hissue hself hcommits

end Upgrade

/-- The first use of the session changes no row, and no session of another hash. -/
lemma Moved.completeSession (h : Moved keyed hashes database database')
    (hhash : session.accessTokenHash ∈ hashes) :
    Moved keyed hashes database (completeSession env database' session) := by
  refine ⟨(rotates_completeSession env database' session).2 ▸ h.rows, ?_⟩
  unfold LocalDatabase.completeSession
  split_ifs
  · exact h.sessions
  dsimp only
  split_ifs
  · refine forall₂_map_right_iff.mpr (h.sessions.imp fun old new hkept => ?_)
    split_ifs with hsame
    · rcases hkept with rfl | ⟨hold, -⟩
      · exact .inr ⟨hsame ▸ hhash, hsame ▸ hhash⟩
      · exact .inr ⟨hold, hsame ▸ hhash⟩
    · exact hkept
  · exact h.sessions

section Call

variable (hkeys : ∀ n, env.keys n = keys) (hbacked : database.Backed)
  (hread : ∀ session ∈ database.sessions,
    env.overwritten session.accessTokenHash = session.accessTokenHash ∨
      database.Unused (env.overwritten session.accessTokenHash))

include hkeys hbacked hread

lemma moved_authenticatedUser :
    let after := (authenticatedUser crypto env database accessToken).2
    let keyed := keyedTokenHashes crypto keys accessToken
    Moved keyed (lookupTokenHashes crypto keys keys accessToken) database after ∧
    ((logins keyed after.persistentStore).Perm (logins keyed database.persistentStore) ↔
      CallIsSafe crypto env database accessToken) := by
  unfold authenticatedUser
  cases hmasquerade : env.masquerade accessToken with
  | some userId => exact ⟨.refl, iff_of_true (.refl _) fun _ _ h => by simp [hmasquerade] at h⟩
  | none =>
    cases hpresented : presentedSession crypto env database accessToken with
    | none => exact ⟨.refl, iff_of_true (.refl _) fun _ _ _ h => by simp [hpresented] at h⟩
    | some position =>
      obtain ⟨found, hfound, hlive, hhash⟩ := presentedSession_spec hpresented
      rw [hkeys, hkeys] at hhash
      obtain ⟨hmoved, hsafe⟩ := moved_upgrade
        (hread found (mem_of_getElem? hfound)) hbacked hfound hlive hhash (mem_keyed_of_isV3 hhash) (by
          intro v4Hash hissue
          have hmem : v4Hash ∈ keyedTokenHashes crypto keys accessToken :=
            mem_append_left _ (Option.mem_toList.mpr (hkeys 2 ▸ hissue))
          exact ⟨hmem, mem_append_left _ hmem⟩)
      have hall : SafeToMove crypto env database accessToken found ↔
          CallIsSafe crypto env database accessToken := by
        refine ⟨fun h other session _ hother hsession => ?_,
          fun h => h position found hmasquerade hpresented hfound⟩
        cases hpresented.symm.trans hother
        cases hfound.symm.trans hsession
        exact h
      rw [hall] at hsafe
      simp only [hfound]
      split
      · exact ⟨hmoved, hsafe⟩
      next session hsession =>
      split
      · exact ⟨hmoved, hsafe⟩
      · refine ⟨hmoved.completeSession ?_, ?_⟩
        · obtain ⟨hold, hfound⟩ := List.getElem?_eq_some_iff.mp hfound
          obtain ⟨hnew, hsession⟩ := List.getElem?_eq_some_iff.mp hsession
          have hkept := hmoved.sessions.get hold hnew
          rw [get_eq_getElem, get_eq_getElem, hfound, hsession] at hkept
          rcases hkept with rfl | ⟨-, hmem⟩
          · exact hhash
          · exact hmem
        · rw [logins, (rotates_completeSession env _ session).2]
          exact hsafe

/-- Whether the view reads the v3 hash or no hash at all: a call keeps the login exactly when the
session of the presented token is safe to move. -/
theorem authenticatedUser_keeps_login :
    KeepsLogin (keyedTokenHashes crypto keys accessToken)
        (lookupTokenHashes crypto keys keys accessToken) database
        (authenticatedUser crypto env database accessToken).2 ↔
      CallIsSafe crypto env database accessToken := by
  obtain ⟨hmoved, hsafe⟩ := moved_authenticatedUser hkeys hbacked hread
  refine ⟨fun h => hsafe.mp h.logins, fun h => ?_⟩
  have hlogins := hsafe.mpr h
  refine ⟨hlogins, fun session hsession hlive => ?_, hmoved.rows,
    filter_eq_of_forall₂ hmoved.sessions⟩
  obtain ⟨row, hrow, hrowLive, hhash, huser, hdevice, hexpiry⟩ :=
    hbacked.stored session hsession hlive
  by_cases hmem : row.tokenHash ∈ keyedTokenHashes crypto keys accessToken
  · have hlogin : loginOf row ∈ logins (keyedTokenHashes crypto keys accessToken)
        database.persistentStore :=
      mem_map_of_mem (mem_filter.mpr ⟨hrow, by simp [hrowLive, hmem]⟩)
    obtain ⟨after, hafter, hsame⟩ := mem_map.mp (hlogins.mem_iff.mpr hlogin)
    simp only [mem_filter, Bool.and_eq_true, Bool.not_eq_true', decide_eq_true_eq] at hafter
    simp only [loginOf, Prod.mk.injEq] at hsame
    exact ⟨_, mem_map_of_mem hafter.1, hafter.2.1, hsame.1.trans huser, hsame.2.1.trans hdevice,
      hsame.2.2.1.trans hexpiry, .inr ⟨hhash ▸ hmem, hafter.2.2⟩⟩
  · have hkept : row ∈ database.persistentStore.accessTokens.filter fun row =>
        row.tokenHash ∉ keyedTokenHashes crypto keys accessToken :=
      mem_filter.mpr ⟨hrow, decide_eq_true hmem⟩
    rw [← hmoved.rows] at hkept
    exact ⟨_, mem_map_of_mem (mem_filter.mp hkept).1, hrowLive, huser, hdevice, hexpiry,
      .inl hhash⟩

end Call

/-! ### A token of the old key -/

/-- One login, still under the v3 key. -/
def legacyLogin : LocalDatabase where
  users := [⟨"@u:x", false, false⟩]
  sessions := [⟨"@u:x", "D", "token-hash:v3:k3t", false, none, []⟩]
  persistentStore :=
    { accessTokens := [⟨"@u:x", "D", "token-hash:v3:k3t", false, none, []⟩]
      refreshTokens := []
      devices := []
      refreshUnique := nodup_nil
      refreshHashed := by simp }
  nextSessionId := 2

lemma legacyLogin_backed : legacyLogin.Backed :=
  ⟨by decide, by simp [legacyLogin]⟩

/-- With both writes committed the session and the login are under the v4 hash. -/
theorem authenticatedUser_keeps_login_legacy :
    let after := (authenticatedUser plainTokenCrypto (calmEnv "" "") legacyLogin "t").2
    after.sessions.map LocalSession.accessTokenHash = [lit "token-hash:v4:k4t"] ∧
    KeepsLogin (keyedTokenHashes plainTokenCrypto ⟨some "k3", some "k4"⟩ "t")
      (lookupTokenHashes plainTokenCrypto ⟨some "k3", some "k4"⟩ ⟨some "k3", some "k4"⟩ "t")
      legacyLogin after := by
  refine ⟨by decide, (authenticatedUser_keeps_login (fun _ => rfl) legacyLogin_backed
    fun _ _ => .inl rfl).mpr ?_⟩
  intro _ session _ _ _ v4Hash _ hissue _
  obtain rfl : lit "token-hash:v4:k4t" = v4Hash := Option.some.inj hissue
  exact .inr ⟨rfl, by decide, by simp [legacyLogin]⟩

/-- When the insertion of the v4 row fails after the v3 row is revoked, the token is accepted and
no row is left that accepts it after a restart. -/
theorem migration_loses_login :
    let env := { calmEnv "" "" with commits := (· ≠ .insertAccessToken) }
    let result := authenticatedUser plainTokenCrypto env legacyLogin "t"
    legacyLogin.Backed ∧ result.1 = some (lit "@u:x") ∧
    logins (keyedTokenHashes plainTokenCrypto (env.keys 0) "t") legacyLogin.persistentStore =
      [(lit "@u:x", lit "D", none, [])] ∧
    logins (keyedTokenHashes plainTokenCrypto (env.keys 0) "t") result.2.persistentStore = [] ∧
    (hydrateSessions result.2.persistentStore).all LocalSession.revoked = true :=
  ⟨legacyLogin_backed, by decide, by decide, by decide, by decide⟩

end LocalDatabase

end Merovingian
