import Merovingian.Database.TokenStore
import Merovingian.Lib.Run

/-!
# Sessions and refresh tokens

The model of `refresh_local_session`, `authenticated_user` and `issue_refresh_token_for_session` of
`homeserver/auth_service.cpp`, with the lookup of `homeserver/SessionTable.hpp`.

What a call draws from outside is in its `CallEnv`: the clock, the keys, random bytes and the
backend's answers.  Clock and keys may change within a call, so each reading has a number.
-/

namespace Merovingian

/-- The fields of `LocalUser` that these functions read. -/
structure LocalUser where
  userId : Str
  locked : Bool
  deactivated : Bool
deriving DecidableEq, Repr

structure LocalSession where
  userId : Str
  deviceId : Str
  accessTokenHash : Str
  revoked : Bool
  expiresAt : Option ℤ
  /-- The refresh token that the access token replaced, until its first use. -/
  predecessorRefreshHash : Str
deriving DecidableEq, Repr

/-- The part of `LocalDatabase` that these functions use. -/
structure LocalDatabase where
  users : List LocalUser
  sessions : List LocalSession
  persistentStore : TokenStore
  nextSessionId : ℕ

/-- `config.security()`. -/
structure TokenLifetimes where
  accessTokenLifetimeMs : ℤ
  refreshTokenLifetimeMs : ℤ

/-- What a call meets outside. -/
structure CallEnv where
  /-- The readings of the clock. -/
  clock : ℕ → ℤ
  /-- The readings of the token keys. -/
  keys : ℕ → TokenHmacKeys
  /-- The answers of `secure_random_hex`. -/
  random : ℕ → Option Str
  commits : Commits
  /-- The positions that the index of the sessions lists for a hash, in its order. -/
  indexed : Str → List ℕ
  /-- `decode_masquerade_token`: the user an application service asserts. -/
  masquerade : Str → Option Str
  /-- `masquerade_identity_is_valid`. -/
  masqueradeIsValid : Str → Bool
  /-- What a view still reads once the text it looks at is overwritten. -/
  overwritten : Str → Str := id

structure SessionRefreshResult where
  ok : Bool
  status : ℕ
  accessToken : Str := []
  refreshToken : Str := []
  userId : Str := []
  deviceId : Str := []
  reason : Str := []
  errcode : Str := []
  softLogout : Bool := false
deriving DecidableEq, Repr

namespace SessionRefreshResult

/-- A refusal with the default error code. -/
def refusal (status : ℕ) (reason : Str) : SessionRefreshResult where
  ok := false
  status := status
  reason := reason

def persistenceFailure : SessionRefreshResult :=
  refusal 500 "token revocation persistence failed"

end SessionRefreshResult

open SessionRefreshResult

def issueToken (random : Option Str) : Option Str := random.map fun hex => lit "mvs_" ++ hex

namespace LocalDatabase

def findUser (database : LocalDatabase) (userId : Str) : Option LocalUser :=
  database.users.find? fun user => user.userId == userId

/-- The loop that revokes the sessions of a device. -/
def revokeSessions (sessions : List LocalSession) (userId deviceId : Str) : List LocalSession :=
  sessions.map fun session =>
    if session.userId == userId && session.deviceId == deviceId then
      { session with revoked := true }
    else session

section

variable (crypto : TokenCrypto) (config : TokenLifetimes) (env : CallEnv)

/-! ### Refreshing -/

/-- The row that a presented refresh token stands for. -/
def presentedRefreshToken (database : LocalDatabase) (refreshToken : Str) :
    Option PersistentRefreshToken :=
  let refreshHashes := lookupTokenHashes crypto (env.keys 1) (env.keys 2) refreshToken
  database.persistentStore.refreshTokens.find? fun row =>
    matchesAnyTokenHash row.tokenHash refreshHashes

/-- What follows when the presented refresh token is revoked: the session of its device ends. -/
def endReusedSession (database : LocalDatabase) (refresh : PersistentRefreshToken) :
    SessionRefreshResult × LocalDatabase :=
  let store₁ := (database.persistentStore.revokeAccessTokensForDevice env.commits
    refresh.userId refresh.deviceId).2
  let store₂ := (store₁.revokeRefreshTokensForDevice env.commits
    refresh.userId refresh.deviceId).2
  if !store₂.deviceTokensAreRevoked refresh.userId refresh.deviceId then
    (persistenceFailure, { database with persistentStore := store₂ })
  else
    (refusal 401 "refresh token rejected",
      { database with
        persistentStore := store₂
        sessions := revokeSessions database.sessions refresh.userId refresh.deviceId })

/-- The presented token completes the rotation that minted it: its predecessor is revoked. -/
def completeRotation (store : TokenStore) (predecessorHash : Str) : TokenStore :=
  if predecessorHash = [] then store
  else (store.revokeRefreshToken env.commits predecessorHash).2

/-- The credential writes of a refresh: what the presented token supersedes is revoked, and then a
pair is minted from it.  The presented token itself stays valid. -/
def mintPair (database : LocalDatabase) (refresh : PersistentRefreshToken)
    (accessToken newRefreshToken accessHash newRefreshHash : Str) :
    SessionRefreshResult × LocalDatabase :=
  let userId := refresh.userId
  let deviceId := refresh.deviceId
  let store₁ := completeRotation env database.persistentStore refresh.predecessorHash
  if refresh.predecessorHash ≠ [] && !store₁.refreshTokenIsRevoked refresh.predecessorHash then
    (persistenceFailure, { database with persistentStore := store₁ })
  else
    -- a pair minted from this token before, whose answer was lost, is superseded
    let store₂ := (store₁.revokeRefreshTokensWithPredecessor env.commits refresh.tokenHash).2
    if !store₂.refreshTokensWithPredecessorAreRevoked refresh.tokenHash then
      (persistenceFailure, { database with persistentStore := store₂ })
    else
      let store₃ := (store₂.revokeAccessTokensForDevice env.commits userId deviceId).2
      if !store₃.deviceAccessTokensAreRevoked userId deviceId then
        (persistenceFailure, { database with persistentStore := store₃ })
      else
        let sessions := revokeSessions database.sessions userId deviceId
        let accessExpiresAt := tokenExpiresAt config.accessTokenLifetimeMs (env.clock 1)
        let refreshExpiresAt := tokenExpiresAt config.refreshTokenLifetimeMs (env.clock 2)
        let storedAccess := store₃.storeAccessToken env.commits
          ⟨userId, deviceId, accessHash, false, accessExpiresAt, refresh.tokenHash⟩
        if !storedAccess.1 then
          (refusal 500 "refreshed token persistence failed",
            { database with persistentStore := storedAccess.2, sessions := sessions })
        else
          let storedRefresh := storedAccess.2.storeRefreshToken env.commits
            ⟨userId, deviceId, newRefreshHash, false, refreshExpiresAt, refresh.tokenHash⟩
          if !storedRefresh.1 then
            (refusal 500 "refreshed token persistence failed",
              { database with
                persistentStore := storedRefresh.2, sessions := sessions })
          else
            ({ ok := true, status := 200, accessToken := accessToken,
               refreshToken := newRefreshToken, userId := userId, deviceId := deviceId },
              { database with
                persistentStore := storedRefresh.2
                nextSessionId := database.nextSessionId + 1
                sessions := sessions ++
                  [⟨userId, deviceId, accessHash, false, accessExpiresAt, refresh.tokenHash⟩] })

/-- The key work, which is all done before any credential is written. -/
def mintPairOf (database : LocalDatabase) (refresh : PersistentRefreshToken) :
    SessionRefreshResult × LocalDatabase :=
  match issueToken (env.random 0), issueToken (env.random 1) with
  | some accessToken, some newRefreshToken =>
    match issueTokenHash crypto (env.keys 3) accessToken,
        issueTokenHash crypto (env.keys 4) newRefreshToken with
    | some accessHash, some newRefreshHash =>
      mintPair config env database refresh accessToken newRefreshToken accessHash newRefreshHash
    | _, _ => (refusal 503 "token key unavailable", database)
  | _, _ => (refusal 500 "token generation failed", database)

def refreshLocalSession (database : LocalDatabase) (refreshToken : Str) :
    SessionRefreshResult × LocalDatabase :=
  if (env.keys 0).v4 = none then (refusal 503 "token key unavailable", database)
  else if lookupTokenHashes crypto (env.keys 1) (env.keys 2) refreshToken = [] then
    (refusal 401 "unauthenticated", database)
  else
    match presentedRefreshToken crypto env database refreshToken with
    | none => (refusal 401 "refresh token rejected", database)
    | some refresh =>
      if isExpired refresh.expiresAt (env.clock 0) then
        (refusal 401 "refresh token rejected", database)
      else if refresh.revoked then endReusedSession env database refresh
      else
        match database.findUser refresh.userId with
        | none => (refusal 401 "refresh subject rejected", database)
        | some refreshUser =>
          if !deviceIdIsValid refresh.deviceId then
            (refusal 401 "refresh subject rejected", database)
          else if refreshUser.deactivated then (refusal 401 "account deactivated", database)
          else if refreshUser.locked then
            ({ ok := false, status := 401, reason := "This account has been locked",
               errcode := "M_USER_LOCKED", softLogout := true }, database)
          else if !database.persistentStore.deviceExists refresh.userId refresh.deviceId then
            (refusal 401 "refresh device rejected", database)
          else mintPairOf crypto config env database refresh

/-! ### Access tokens -/

/-- `SessionTable::find`, with the test of `find_session`. -/
def findSession (sessions : List LocalSession) (tokenHashes : List Str) : Option ℕ :=
  tokenHashes.findSome? fun candidate =>
    (env.indexed candidate).find? fun position =>
      match sessions[position]? with
      | none => false
      | some session => tokenHashMatches session.accessTokenHash candidate && !session.revoked &&
          !isExpired session.expiresAt (env.clock 0)

/-- `upgrade_v3_access_token_to_v4`.  The hash is a view of the one of the session at `position`,
which the loop overwrites when it comes there. -/
def upgradeV3AccessTokenToV4 (database : LocalDatabase) (token : Str) (position : ℕ)
    (matchedV3Hash : Str) : LocalDatabase :=
  if !tokenHashIsV3 matchedV3Hash then database
  else
    match issueTokenHash crypto (env.keys 2) token with
    | none => database
    | some v4Hash =>
      let upgraded (i : ℕ) (session : LocalSession) : Bool := !session.revoked &&
        tokenHashMatches session.accessTokenHash
          (if i ≤ position then matchedV3Hash else env.overwritten matchedV3Hash)
      match (database.sessions.zipIdx.filter fun entry => upgraded entry.2 entry.1).getLast? with
      | none => database
      | some (last, _) =>
        let sessions := database.sessions.mapIdx fun i session =>
          if upgraded i session then { session with accessTokenHash := v4Hash } else session
        let revokedOld := database.persistentStore.revokeAccessToken env.commits
          (env.overwritten matchedV3Hash)
        if revokedOld.1 = 0 then
          { database with
            sessions := sessions, persistentStore := revokedOld.2 }
        else
          { database with
            sessions := sessions
            persistentStore := (revokedOld.2.storeAccessToken env.commits
              ⟨last.userId, last.deviceId, v4Hash, false, last.expiresAt, []⟩).2 }

/-- The first use of an access token minted by a refresh revokes the refresh token it replaced.
The marker of the session stays until that revocation has persisted. -/
def completeSession (database : LocalDatabase) (session : LocalSession) : LocalDatabase :=
  if session.predecessorRefreshHash = [] then database
  else
    let store := (database.persistentStore.revokeRefreshToken env.commits
      session.predecessorRefreshHash).2
    if store.refreshTokenIsRevoked session.predecessorRefreshHash then
      { database with
        persistentStore := store
        sessions := database.sessions.map fun live =>
          if live.accessTokenHash = session.accessTokenHash then
            { live with predecessorRefreshHash := [] }
          else live }
    else { database with persistentStore := store }

/-- The position of the session that an access token stands for. -/
def presentedSession (database : LocalDatabase) (accessToken : Str) : Option ℕ :=
  let tokenHashes :=
    if accessToken = [] then [] else lookupTokenHashes crypto (env.keys 0) (env.keys 1) accessToken
  findSession env database.sessions tokenHashes

def authenticatedUser (database : LocalDatabase) (accessToken : Str) :
    Option Str × LocalDatabase :=
  match env.masquerade accessToken with
  | some userId => (if env.masqueradeIsValid userId then some userId else none, database)
  | none =>
    match presentedSession crypto env database accessToken with
    | none => (none, database)
    | some position =>
      match database.sessions[position]? with
      -- a position that is found is in the table
      | none => (none, database)
      | some found =>
        let database := upgradeV3AccessTokenToV4 crypto env database accessToken position
          found.accessTokenHash
        match database.sessions[position]? with
        | none => (none, database)
        | some session =>
          match database.findUser session.userId with
          | none => (none, database)
          | some _ => (some session.userId, completeSession env database session)

/-! ### Login -/

/-- `issue_refresh_token_for_session`, which gives the token. -/
def issueRefreshTokenForSession (database : LocalDatabase) (userId deviceId : Str) :
    Option Str × LocalDatabase :=
  if (database.findUser userId).isNone || !deviceIdIsValid deviceId then (none, database)
  else
    match issueToken (env.random 0) with
    | none => (none, database)
    | some refreshToken =>
      match issueTokenHash crypto (env.keys 0) refreshToken with
      | none => (none, database)
      | some refreshHash =>
        let expiresAt := tokenExpiresAt config.refreshTokenLifetimeMs (env.clock 0)
        let stored := database.persistentStore.storeRefreshToken env.commits
          ⟨userId, deviceId, refreshHash, false, expiresAt, []⟩
        (if stored.1 then some refreshToken else none,
          { database with persistentStore := stored.2 })

end

end LocalDatabase

/-! ### Runs -/

/-- The calls of a run.  Accounts and devices may change in any way between two of them. -/
inductive AuthCall
  | refresh (env : CallEnv) (refreshToken : Str)
  | authenticate (env : CallEnv) (accessToken : Str)
  | issueRefreshToken (env : CallEnv) (userId deviceId : Str)
  | accounts (users : List LocalUser) (devices : List PersistentDevice)

/-- The database after a call. -/
def LocalDatabase.perform (crypto : TokenCrypto) (config : TokenLifetimes)
    (database : LocalDatabase) : AuthCall → LocalDatabase
  | .refresh env token => (database.refreshLocalSession crypto config env token).2
  | .authenticate env token => (database.authenticatedUser crypto env token).2
  | .issueRefreshToken env userId deviceId =>
    (database.issueRefreshTokenForSession crypto config env userId deviceId).2
  | .accounts users devices =>
    { database with
      users := users
      persistentStore := { database.persistentStore with devices := devices } }

/-- The calls lead from one database to another. -/
def AuthRun (crypto : TokenCrypto) (config : TokenLifetimes) :
    LocalDatabase → List AuthCall → LocalDatabase → Prop :=
  Run fun database call database' => database.perform crypto config call = database'

end Merovingian
