import Merovingian.Database.TokenLineage
import Merovingian.Homeserver.AuthService

/-!
# The ends of a refresh

What `refresh_local_session` can do, said once: it refuses and changes nothing, it ends the session
of a device whose revoked token was presented, or it goes through the writes of a rotation
(`refreshLocalSession_outcome`).  Those writes end with a revocation or an insertion that did not
persist, or with a stored pair (`mintPair_outcome`), which is a step of the lineage of refresh tokens
(`rotates_storePair`).
-/

namespace Merovingian

open SessionRefreshResult TokenStore Bool

namespace LocalDatabase

variable {crypto : TokenCrypto} {config : TokenLifetimes} {env : CallEnv}
  {database database' database'' : LocalDatabase}

/-! ### What a refresh does -/

/-- The three ends of `refresh_local_session`. -/
inductive RefreshOutcome (crypto : TokenCrypto) (config : TokenLifetimes) (env : CallEnv)
    (database : LocalDatabase) (refreshToken : Str) : SessionRefreshResult × LocalDatabase → Prop
  | refused {result : SessionRefreshResult} (hok : result.ok = false) :
      RefreshOutcome crypto config env database refreshToken (result, database)
  | reused {refresh : PersistentRefreshToken}
      (hpresented : presentedRefreshToken crypto env database refreshToken = some refresh)
      (hrevoked : refresh.revoked = true) :
      RefreshOutcome crypto config env database refreshToken (endReusedSession env database refresh)
  | minted {refresh : PersistentRefreshToken} {user : LocalUser}
      {accessToken newRefreshToken accessHash newRefreshHash : Str}
      (hpresented : presentedRefreshToken crypto env database refreshToken = some refresh)
      (hlive : refresh.revoked = false) (huser : database.findUser refresh.userId = some user)
      (hactive : user.deactivated = false) (hunlocked : user.locked = false)
      (hdevice : database.persistentStore.deviceExists refresh.userId refresh.deviceId = true)
      (hversion : tokenHashIsV3 accessHash = false) :
      RefreshOutcome crypto config env database refreshToken
        (mintPair config env database refresh accessToken newRefreshToken accessHash newRefreshHash)

/-- New hashes are not under the v3 key. -/
lemma not_isV3_of_issueTokenHash {keys : TokenHmacKeys} {token tokenHash : Str}
    (h : issueTokenHash crypto keys token = some tokenHash) : tokenHashIsV3 tokenHash = false := by
  obtain ⟨key, -, hhash⟩ := Option.bind_eq_some_iff.mp h
  rw [hashAccessTokenV4] at hhash
  split at hhash
  · cases hhash
  · obtain ⟨digest, -, rfl⟩ := Option.map_eq_some_iff.mp hhash
    rfl

theorem refreshLocalSession_outcome (refreshToken : Str) :
    RefreshOutcome crypto config env database refreshToken
      (refreshLocalSession crypto config env database refreshToken) := by
  unfold refreshLocalSession
  split
  · exact .refused rfl
  split
  · exact .refused rfl
  split
  · exact .refused rfl
  rename_i refresh hpresented
  split
  · exact .refused rfl
  split
  · rename_i hrevoked
    exact .reused hpresented hrevoked
  rename_i hlive
  split
  · exact .refused rfl
  rename_i user huser
  split
  · exact .refused rfl
  split
  · exact .refused rfl
  rename_i hactive
  split
  · exact .refused rfl
  rename_i hunlocked
  split
  · exact .refused rfl
  rename_i hdevice
  unfold mintPairOf
  split
  · split
    · rename_i haccess _
      exact .minted hpresented (by simpa using hlive) huser (by simpa using hactive)
        (by simpa using hunlocked) (by simpa using hdevice) (not_isV3_of_issueTokenHash haccess)
    · exact .refused rfl
  · exact .refused rfl

lemma mem_of_presented {refreshToken : Str} {refresh : PersistentRefreshToken}
    (h : presentedRefreshToken crypto env database refreshToken = some refresh) :
    refresh ∈ database.persistentStore.refreshTokens :=
  List.mem_of_find?_eq_some h

/-! ### The stores a rotation goes through -/

section Stages

variable (env) (store : TokenStore) (refresh : PersistentRefreshToken) (previous : Str)

lemma rotates_completeRotation :
    store.Rotates (completeRotation env store previous) := by
  unfold completeRotation
  split
  · exact Rotates.refl store
  · exact rotates_revokeRefreshToken env.commits store previous

lemma completeRotation_accessTokens :
    (completeRotation env store previous).accessTokens = store.accessTokens := by
  unfold completeRotation
  split
  · rfl
  · exact revokeRefreshRows_accessTokens _ _ store

lemma completeRotation_predecessor :
    (completeRotation env store previous).predecessor = store.predecessor := by
  unfold completeRotation
  split
  · rfl
  · exact predecessor_revokeRefreshRows _ _ store

/-- What the presented token supersedes is revoked. -/
def supersede : TokenStore :=
  ((completeRotation env store refresh.predecessorHash).revokeRefreshTokensWithPredecessor
    env.commits refresh.tokenHash).2

lemma supersede_eq (hne : refresh.tokenHash ≠ []) :
    supersede env store refresh =
      ((completeRotation env store refresh.predecessorHash).revokeRefreshRows
        (env.commits .revokeRefreshTokensWithPredecessor) fun token =>
          !token.predecessorHash.isEmpty && token.predecessorHash == refresh.tokenHash).2 := by
  rw [supersede, revokeRefreshTokensWithPredecessor, if_neg hne]

lemma rotates_supersede : store.Rotates (supersede env store refresh) :=
  (rotates_completeRotation env store refresh.predecessorHash).trans
    (rotates_revokeRefreshTokensWithPredecessor env.commits _ refresh.tokenHash)

lemma supersede_accessTokens (hne : refresh.tokenHash ≠ []) :
    (supersede env store refresh).accessTokens = store.accessTokens := by
  rw [supersede_eq env store refresh hne, revokeRefreshRows_accessTokens,
    completeRotation_accessTokens]

lemma supersede_predecessor (hne : refresh.tokenHash ≠ []) :
    (supersede env store refresh).predecessor = store.predecessor := by
  rw [supersede_eq env store refresh hne, predecessor_revokeRefreshRows,
    completeRotation_predecessor]

variable {store refresh}

/-- The presented token is not its own predecessor, so it is not among those revoked. -/
lemma mem_supersede (hmem : refresh ∈ store.refreshTokens) (hne : refresh.tokenHash ≠ [])
    (hself : refresh.predecessorHash ≠ refresh.tokenHash) :
    refresh ∈ (supersede env store refresh).refreshTokens := by
  have hfirst : refresh ∈ (completeRotation env store refresh.predecessorHash).refreshTokens := by
    unfold completeRotation
    split
    · exact hmem
    · exact mem_revokeRefreshRows hmem (by simpa using hself.symm)
  rw [supersede_eq env store refresh hne]
  exact mem_revokeRefreshRows hfirst (by simp [hself])

end Stages

/-! ### The ends of a rotation -/

section Mint

variable (config env) (database : LocalDatabase) (refresh : PersistentRefreshToken)
  (accessToken newRefreshToken accessHash newRefreshHash : Str)

/-- The store without access tokens of the device. -/
def endAccess : TokenStore :=
  ((supersede env database.persistentStore refresh).revokeAccessTokensForDevice env.commits
    refresh.userId refresh.deviceId).2

/-- The expiry and the row of the new access token. -/
def newAccessRow : PersistentAccessToken :=
  ⟨refresh.userId, refresh.deviceId, accessHash, false,
    tokenExpiresAt config.accessTokenLifetimeMs (env.clock 1), refresh.tokenHash⟩

def newRefreshRow : PersistentRefreshToken :=
  ⟨refresh.userId, refresh.deviceId, newRefreshHash, false,
    tokenExpiresAt config.refreshTokenLifetimeMs (env.clock 2), refresh.tokenHash⟩

def storeAccess : Bool × TokenStore :=
  (endAccess env database refresh).storeAccessToken env.commits
    (newAccessRow config env refresh accessHash)

def storePair : Bool × TokenStore :=
  (storeAccess config env database refresh accessHash).2.storeRefreshToken env.commits
    (newRefreshRow config env refresh newRefreshHash)

/-- The database with the device's sessions ended and the given store. -/
def withEndedSessions (store : TokenStore) : LocalDatabase :=
  { database with
    persistentStore := store
    sessions := revokeSessions database.sessions refresh.userId refresh.deviceId }

/-- The ends of `mintPair`: a revocation that did not persist, an insertion that did not, or a
stored pair. -/
inductive MintOutcome : SessionRefreshResult × LocalDatabase → Prop
  | unrevoked {store : TokenStore}
      (hstore : store = completeRotation env database.persistentStore refresh.predecessorHash ∨
        store = supersede env database.persistentStore refresh ∨
        store = endAccess env database refresh) :
      MintOutcome (persistenceFailure, { database with persistentStore := store })
  | unstored (hstore : (storeAccess config env database refresh accessHash).1 = false ∨
        (storePair config env database refresh accessHash newRefreshHash).1 = false) :
      MintOutcome (refusal 500 "refreshed token persistence failed",
        withEndedSessions database refresh (storeAccess config env database refresh accessHash).2)
  | stored {result : SessionRefreshResult} {nextSessionId : ℕ} {session : LocalSession}
      (hprevious : refresh.predecessorHash ≠ [] →
        ¬ (completeRotation env database.persistentStore refresh.predecessorHash).Live
          refresh.predecessorHash)
      (hothers : (supersede env database.persistentStore
        refresh).refreshTokensWithPredecessorAreRevoked refresh.tokenHash = true)
      (haccess : (storeAccess config env database refresh accessHash).1 = true)
      (hrefresh : (storePair config env database refresh accessHash newRefreshHash).1 = true)
      (hresult : result.userId = refresh.userId ∧ result.deviceId = refresh.deviceId)
      (hsession : session.accessTokenHash = accessHash ∧
        session.predecessorRefreshHash = refresh.tokenHash) :
      MintOutcome (result,
        { database with
          persistentStore := (storePair config env database refresh accessHash newRefreshHash).2
          nextSessionId := nextSessionId
          sessions := revokeSessions database.sessions refresh.userId refresh.deviceId ++
            [session] })

lemma mintPair_outcome : MintOutcome config env database refresh accessHash newRefreshHash
    (mintPair config env database refresh accessToken newRefreshToken accessHash newRefreshHash) := by
  unfold mintPair
  dsimp only
  split
  · exact .unrevoked (.inl rfl)
  rename_i hprevious
  split
  · exact .unrevoked (.inr (.inl rfl))
  rename_i hothers
  split
  · exact .unrevoked (.inr (.inr rfl))
  split
  · rename_i haccess
    rw [not_eq_true'] at haccess
    exact .unstored (.inl haccess)
  rename_i haccess
  split
  · rename_i hrefresh
    rw [not_eq_true'] at hrefresh
    have hsame := storeRefreshToken_of_not_stored hrefresh
    rw [hsame]
    exact .unstored (.inr hrefresh)
  · rename_i hrefresh
    simp only [not_eq_true, not_eq_false'] at hothers haccess hrefresh
    refine .stored ?_ hothers haccess hrefresh ⟨rfl, rfl⟩ ⟨rfl, rfl⟩
    intro hne
    rw [← refreshTokenIsRevoked_iff]
    simpa [hne] using hprevious

variable {config env database refresh accessHash newRefreshHash}

lemma endAccess_refreshTokens : (endAccess env database refresh).refreshTokens =
    (supersede env database.persistentStore refresh).refreshTokens :=
  revokeAccessRows_refreshTokens _ _ _

lemma storeAccess_refreshTokens :
    (storeAccess config env database refresh accessHash).2.refreshTokens =
      (supersede env database.persistentStore refresh).refreshTokens :=
  (storeAccessToken_refreshTokens _ _ _).trans endAccess_refreshTokens

lemma rotates_storeAccess : database.persistentStore.Rotates
    (storeAccess config env database refresh accessHash).2 :=
  (rotates_supersede env database.persistentStore refresh).trans
    (rotates_of_eq storeAccess_refreshTokens)

/-- A stored pair is a step of the lineage: the presented token is live, its predecessor and the
tokens minted from it before are not. -/
lemma rotates_storePair (hmem : refresh ∈ database.persistentStore.refreshTokens)
    (hlive : refresh.revoked = false) (hprevious : refresh.predecessorHash ≠ [] →
      ¬ (completeRotation env database.persistentStore refresh.predecessorHash).Live
        refresh.predecessorHash) (hothers : (supersede env database.persistentStore
      refresh).refreshTokensWithPredecessorAreRevoked refresh.tokenHash = true) :
    database.persistentStore.Rotates
      (storePair config env database refresh accessHash newRefreshHash).2 := by
  have hne : refresh.tokenHash ≠ [] :=
    ne_nil_of_tokenIsHash (database.persistentStore.refreshHashed refresh hmem)
  intro L hL
  -- lines of descent do not run in a circle
  have hself : refresh.predecessorHash ≠ refresh.tokenHash := by
    intro hself
    have hparent : L.parent refresh.tokenHash = some refresh.tokenHash := by
      rw [hL.parent]
      exact predecessor_eq_some.mpr ⟨refresh, hmem, rfl, hself, hne⟩
    exact L.acyclic _ (.single hparent)
  have hrows : (storeAccess config env database refresh accessHash).2.refreshTokens =
    (supersede env database.persistentStore refresh).refreshTokens := storeAccess_refreshTokens
  have hlive' := live_congr hrows
  have hpredecessor := (predecessor_congr hrows).trans
    (supersede_predecessor env database.persistentStore refresh hne)
  refine (rotates_storeAccess.trans
    (rotates_storeRefreshToken_mint env.commits _ rfl ?_ hne ?_ ?_)) L hL
  · rw [hlive']
    exact ⟨refresh, mem_supersede env hmem hne hself, rfl, hlive⟩
  · intro previous h
    rw [hpredecessor] at h
    obtain ⟨row, hrow, hhash, rfl, hprev⟩ := predecessor_eq_some.mp h
    obtain rfl := database.persistentStore.eq_of_tokenHash_eq hrow hmem hhash
    rw [hlive', supersede_eq env _ row hne]
    exact fun h => hprevious hprev h.of_revokeRefreshRows
  · intro other h
    rw [hpredecessor, ← supersede_predecessor env database.persistentStore refresh hne] at h
    rw [hlive']
    exact not_live_of_predecessorAreRevoked hne hothers h

lemma accessFrom_endAccess (hne : refresh.tokenHash ≠ []) :
    AccessFrom refresh.tokenHash database.persistentStore (endAccess env database refresh) :=
  (accessFrom_of_eq (supersede_accessTokens env database.persistentStore refresh hne)).trans
    (accessFrom_revokeAccessRows _ _ _)

lemma accessFrom_storeAccess (hne : refresh.tokenHash ≠ []) :
    AccessFrom refresh.tokenHash database.persistentStore
      (storeAccess config env database refresh accessHash).2 :=
  (accessFrom_endAccess hne).trans
    (accessFrom_storeAccessToken env.commits _ (newAccessRow config env refresh accessHash))

lemma storePair_accessTokens :
    (storePair config env database refresh accessHash newRefreshHash).2.accessTokens =
      (storeAccess config env database refresh accessHash).2.accessTokens := by
  rcases storeRefreshToken_cases env.commits (storeAccess config env database refresh accessHash).2
    (newRefreshRow config env refresh newRefreshHash) with h | ⟨-, -, h, -⟩
  · rw [storePair, h]
  · exact h

/-- A stored access token is new, and no session can have its hash by accident. -/
lemma storeAccess_stored (hne : refresh.tokenHash ≠ [])
    (h : (storeAccess config env database refresh accessHash).1 = true) :
    database.persistentStore.accessTokenExists accessHash = false ∧
      (storeAccess config env database refresh accessHash).2.accessTokenExists accessHash = true := by
  rcases storeAccessToken_cases env.commits (endAccess env database refresh)
    (newAccessRow config env refresh accessHash) with heq | ⟨-, hrows, hnew⟩
  · rw [storeAccess, heq] at h
    cases h
  · refine ⟨?_, ?_⟩
    · by_contra hold
      rw [not_eq_false] at hold
      have hkept : (endAccess env database refresh).accessTokenExists accessHash = true :=
        (accessFrom_endAccess hne).kept hold
      exact false_ne_true (hnew.symm.trans hkept)
    · rw [storeAccess, accessTokenExists, hrows]
      simp [newAccessRow]

end Mint

end LocalDatabase

end Merovingian
