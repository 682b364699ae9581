import Merovingian.Auth.Token

/-!
# The token tables of the persistent store

The model of the writes of `database/PersistentStore.cpp` to the tables of access tokens and of
refresh tokens, and of the checks `homeserver/auth_service.cpp` makes on them.  Each write is one
statement, which the backend commits or not; the rows in memory change only when it does.
-/

namespace Merovingian

open List

structure PersistentAccessToken where
  userId : Str
  deviceId : Str
  tokenHash : Str
  revoked : Bool
  expiresAt : Option ℤ
  /-- The refresh token that was presented for it; empty when it was minted in another way. -/
  predecessorRefreshHash : Str
deriving DecidableEq, Repr

structure PersistentRefreshToken where
  userId : Str
  deviceId : Str
  tokenHash : Str
  revoked : Bool
  expiresAt : Option ℤ
  /-- The refresh token it replaces; empty for a token minted at login. -/
  predecessorHash : Str
deriving DecidableEq, Repr

structure PersistentDevice where
  userId : Str
  deviceId : Str
  displayName : Str
deriving DecidableEq, Repr

/-- The tables of `PersistentStore` that hold credentials.  The hash is the primary key of the
refresh tokens, and no token is stored in the clear. -/
structure TokenStore where
  accessTokens : List PersistentAccessToken
  refreshTokens : List PersistentRefreshToken
  devices : List PersistentDevice
  refreshUnique : (refreshTokens.map PersistentRefreshToken.tokenHash).Nodup
  refreshHashed : ∀ token ∈ refreshTokens, tokenIsHash token.tokenHash = true

/-- The statements that write the tables. -/
inductive TokenStatement
  | revokeAccessToken
  | revokeRefreshToken
  | revokeDeviceAccessTokens
  | revokeDeviceRefreshTokens
  | revokeRefreshTokensWithPredecessor
  | insertAccessToken
  | insertRefreshToken
deriving DecidableEq, Repr

/-- Whether the backend commits each statement of a call. -/
abbrev Commits := TokenStatement → Bool

namespace TokenStore

/-! ### Revocation -/

/-- The loop of the revocations of access tokens, with the number of rows it changes. -/
def revokeAccessRows (committed : Bool) (targeted : PersistentAccessToken → Bool)
    (store : TokenStore) : ℕ × TokenStore :=
  if !committed then (0, store)
  else
    (store.accessTokens.countP fun token => targeted token && !token.revoked,
      { store with
        accessTokens := store.accessTokens.map fun token =>
          if targeted token && !token.revoked then { token with revoked := true } else token })

/-- The row after a revocation of the targeted rows. -/
def revokeIf (targeted : PersistentRefreshToken → Bool) (token : PersistentRefreshToken) :
    PersistentRefreshToken :=
  if targeted token && !token.revoked then { token with revoked := true } else token

section RevokeIf

variable (targeted : PersistentRefreshToken → Bool) (token : PersistentRefreshToken)

@[simp] lemma revokeIf_tokenHash : (revokeIf targeted token).tokenHash = token.tokenHash := by
  unfold revokeIf
  split <;> rfl

@[simp] lemma revokeIf_predecessorHash :
    (revokeIf targeted token).predecessorHash = token.predecessorHash := by
  unfold revokeIf
  split <;> rfl

lemma revokeIf_revoked : (revokeIf targeted token).revoked = false ↔
    token.revoked = false ∧ targeted token = false := by
  unfold revokeIf
  cases hr : token.revoked <;> cases ht : targeted token <;> simp [hr]

end RevokeIf

/-- The loop of the revocations of refresh tokens, with the number of rows it changes. -/
def revokeRefreshRows (committed : Bool) (targeted : PersistentRefreshToken → Bool)
    (store : TokenStore) : ℕ × TokenStore :=
  if !committed then (0, store)
  else
    (store.refreshTokens.countP fun token => targeted token && !token.revoked,
      { store with
        refreshTokens := store.refreshTokens.map (revokeIf targeted)
        refreshUnique := by
          rw [map_map]
          simpa [Function.comp_def] using store.refreshUnique
        refreshHashed := by
          intro token htoken
          obtain ⟨row, hrow, rfl⟩ := mem_map.mp htoken
          simpa using store.refreshHashed row hrow })

def revokeAccessToken (commits : Commits) (store : TokenStore) (tokenHash : Str) :
    ℕ × TokenStore :=
  store.revokeAccessRows (commits .revokeAccessToken) fun token => token.tokenHash == tokenHash

def revokeAccessTokensForDevice (commits : Commits) (store : TokenStore) (userId deviceId : Str) :
    ℕ × TokenStore :=
  store.revokeAccessRows (commits .revokeDeviceAccessTokens) fun token =>
    token.userId == userId && token.deviceId == deviceId

def revokeRefreshToken (commits : Commits) (store : TokenStore) (tokenHash : Str) :
    ℕ × TokenStore :=
  store.revokeRefreshRows (commits .revokeRefreshToken) fun token => token.tokenHash == tokenHash

def revokeRefreshTokensForDevice (commits : Commits) (store : TokenStore)
    (userId deviceId : Str) : ℕ × TokenStore :=
  store.revokeRefreshRows (commits .revokeDeviceRefreshTokens) fun token =>
    token.userId == userId && token.deviceId == deviceId

def revokeRefreshTokensWithPredecessor (commits : Commits) (store : TokenStore)
    (predecessorHash : Str) : ℕ × TokenStore :=
  if predecessorHash = [] then (0, store)
  else
    store.revokeRefreshRows (commits .revokeRefreshTokensWithPredecessor) fun token =>
      !token.predecessorHash.isEmpty && token.predecessorHash == predecessorHash

/-! ### Checks -/

def refreshTokenIsRevoked (store : TokenStore) (tokenHash : Str) : Bool :=
  !store.refreshTokens.any fun token => token.tokenHash == tokenHash && !token.revoked

def refreshTokensWithPredecessorAreRevoked (store : TokenStore) (predecessorHash : Str) : Bool :=
  !store.refreshTokens.any fun token =>
    !token.predecessorHash.isEmpty && token.predecessorHash == predecessorHash && !token.revoked

def deviceAccessTokensAreRevoked (store : TokenStore) (userId deviceId : Str) : Bool :=
  !store.accessTokens.any fun token =>
    token.userId == userId && token.deviceId == deviceId && !token.revoked

def deviceTokensAreRevoked (store : TokenStore) (userId deviceId : Str) : Bool :=
  let accessRemaining := store.accessTokens.any fun token =>
    token.userId == userId && token.deviceId == deviceId && !token.revoked
  let refreshRemaining := store.refreshTokens.any fun token =>
    token.userId == userId && token.deviceId == deviceId && !token.revoked
  !accessRemaining && !refreshRemaining

def deviceExists (store : TokenStore) (userId deviceId : Str) : Bool :=
  store.devices.any fun device => device.userId == userId && device.deviceId == deviceId

/-! ### Insertion -/

def accessTokenExists (store : TokenStore) (tokenHash : Str) : Bool :=
  store.accessTokens.any fun existing => existing.tokenHash == tokenHash

def refreshTokenExists (store : TokenStore) (tokenHash : Str) : Bool :=
  store.refreshTokens.any fun existing => existing.tokenHash == tokenHash

def storeAccessToken (commits : Commits) (store : TokenStore) (token : PersistentAccessToken) :
    Bool × TokenStore :=
  if !tokenIsHash token.tokenHash then (false, store)
  else if store.accessTokenExists token.tokenHash then (false, store)
  else if !commits .insertAccessToken then (false, store)
  else (true, { store with accessTokens := store.accessTokens ++ [token] })

def storeRefreshToken (commits : Commits) (store : TokenStore) (token : PersistentRefreshToken) :
    Bool × TokenStore :=
  if h : !tokenIsHash token.tokenHash || store.refreshTokenExists token.tokenHash then
    (false, store)
  else if !commits .insertRefreshToken then (false, store)
  else
    (true,
      { store with
        refreshTokens := store.refreshTokens ++ [token]
        refreshUnique := by
          rw [map_append, nodup_append]
          refine ⟨store.refreshUnique, by simp, ?_⟩
          rintro _ hmem _ hnew rfl
          obtain ⟨row, hrow, heq⟩ := mem_map.mp hmem
          rw [map_singleton, mem_singleton] at hnew
          refine h (Bool.or_eq_true_iff.mpr (.inr (any_eq_true.mpr ⟨row, hrow, ?_⟩)))
          rw [beq_iff_eq, heq, hnew]
        refreshHashed := by
          intro row hrow
          rcases mem_append.mp hrow with hrow | hrow
          · exact store.refreshHashed row hrow
          · rw [mem_singleton.mp hrow]
            by_contra hhash
            exact h (by simp [hhash]) })

end TokenStore

end Merovingian
