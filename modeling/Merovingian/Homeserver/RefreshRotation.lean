import Merovingian.Homeserver.RefreshOutcome

/-!
# Refresh-token rotation over runs

A presented refresh token stays valid until a credential minted from it is used, so that a client
can ask again when an answer was lost.  Each call is summed up by `Progress`: the table of refresh
tokens follows the steps of its lineage, new access tokens are minted from a live refresh token,
and a session loses the mark of the refresh token it replaced only when that token is revoked.
-/

namespace Merovingian

open SessionRefreshResult TokenStore LocalSession List Function

namespace LocalDatabase

variable {crypto : TokenCrypto} {config : TokenLifetimes} {env : CallEnv}
  {database database' : LocalDatabase} {tokenHash : Str} {position : ℕ} {session : LocalSession}
  {result : SessionRefreshResult × LocalDatabase} {refresh : PersistentRefreshToken}
  (sessions : List LocalSession)

/-! ### Sessions -/

/-- The session at a position is marked with the refresh token it replaced. -/
def Marked (database : LocalDatabase) (position : ℕ) (tokenHash : Str) : Prop :=
  (database.sessions[position]?).map LocalSession.predecessorRefreshHash = some tokenHash

lemma revokeSessions_mark (userId deviceId : Str) (position : ℕ) :
    ((revokeSessions sessions userId deviceId)[position]?).map predecessorRefreshHash =
      (sessions[position]?).map predecessorRefreshHash := by
  rw [revokeSessions, getElem?_map, Option.map_map]
  refine congrArg (Option.map · _) (funext fun session => ?_)
  simp only [comp_apply]
  split <;> rfl

lemma revokeSessions_hash (userId deviceId : Str) :
    (revokeSessions sessions userId deviceId).map accessTokenHash =
      sessions.map accessTokenHash := by
  rw [revokeSessions, map_map]
  refine congrArg (map · sessions) (funext fun session => ?_)
  simp only [comp_apply]
  split <;> rfl

/-- No two sessions carry one hash. -/
def Distinct (database : LocalDatabase) : Prop :=
  (database.sessions.map LocalSession.accessTokenHash).Nodup

/-- No other session carries the hash of the session at a position. -/
def Alone (database : LocalDatabase) (position : ℕ) : Prop :=
  ∀ other tokenHash, (database.sessions.map accessTokenHash)[position]? = some tokenHash →
    (database.sessions.map accessTokenHash)[other]? = some tokenHash → other = position

/-- The sessions are a mirror of stored access tokens, none of them under the legacy v3 key. -/
structure Mirrored (database : LocalDatabase) : Prop where
  distinct : database.Distinct
  stored : ∀ tokenHash ∈ database.sessions.map LocalSession.accessTokenHash,
    database.persistentStore.accessTokenExists tokenHash = true ∧ tokenHashIsV3 tokenHash = false

/-- The refresh tokens record a lineage whose live tokens come in pairs. -/
def Sound (database : LocalDatabase) : Prop :=
  ∃ L, database.persistentStore.Records L ∧ L.Paired

/-- What a call does. -/
structure Progress (database database' : LocalDatabase) : Prop where
  rotates : database.persistentStore.Rotates database'.persistentStore
  access : ∃ origin, (origin = [] ∨ database.persistentStore.Live origin) ∧
    AccessFrom origin database.persistentStore database'.persistentStore
  marks : ∀ {position tokenHash}, database'.Alone position → tokenHash ≠ [] →
    database.Marked position tokenHash →
    database'.Marked position tokenHash ∨ ¬ database'.persistentStore.Live tokenHash
  mirrored : database.Mirrored → database'.Mirrored

lemma Progress.sound (h : Progress database database') (hs : database.Sound) : database'.Sound := by
  obtain ⟨L, hL, hpaired⟩ := hs
  obtain ⟨M, hLM, hM⟩ := h.rotates L hL
  exact ⟨M, hM, hLM.paired hpaired⟩

lemma Mirrored.of_hash_eq (h : database.Mirrored) (hhash : database'.sessions.map accessTokenHash =
      database.sessions.map accessTokenHash)
    (hkept : ∀ {tokenHash}, database.persistentStore.accessTokenExists tokenHash = true →
      database'.persistentStore.accessTokenExists tokenHash = true) : database'.Mirrored := by
  refine ⟨?_, fun tokenHash htokenHash => ?_⟩
  · rw [Distinct, hhash]
    exact h.distinct
  · rw [hhash] at htokenHash
    exact ⟨hkept (h.stored tokenHash htokenHash).1, (h.stored tokenHash htokenHash).2⟩

/-- A call that adds no session and keeps the marks. -/
lemma progress_of_sessions
    (hrotates : database.persistentStore.Rotates database'.persistentStore) {origin : Str}
    (horigin : origin = [] ∨ database.persistentStore.Live origin)
    (haccess : AccessFrom origin database.persistentStore database'.persistentStore)
    (hsessions : database'.sessions = database.sessions ∨ ∃ userId deviceId,
      database'.sessions = revokeSessions database.sessions userId deviceId) :
    Progress database database' := by
  refine ⟨hrotates, ⟨origin, horigin, haccess⟩, ?_, fun h => h.of_hash_eq ?_ haccess.kept⟩
  · intro position tokenHash _ _ hmarked
    left
    rw [Marked] at hmarked ⊢
    rcases hsessions with h | ⟨userId, deviceId, h⟩
    · rw [h, hmarked]
    · rw [h, revokeSessions_mark, hmarked]
  · rcases hsessions with h | ⟨userId, deviceId, h⟩
    · rw [h]
    · rw [h, revokeSessions_hash]

lemma progress_refl (database : LocalDatabase) : Progress database database :=
  progress_of_sessions (Rotates.refl _) (.inl rfl) (accessFrom_of_eq rfl) (.inl rfl)

/-! ### What each call does -/

lemma progress_endReusedSession (database : LocalDatabase) (refresh : PersistentRefreshToken) :
    Progress database (endReusedSession env database refresh).2 := by
  have hrotates : database.persistentStore.Rotates
      (((database.persistentStore.revokeAccessTokensForDevice env.commits refresh.userId
        refresh.deviceId).2.revokeRefreshTokensForDevice env.commits refresh.userId
        refresh.deviceId).2) :=
    (rotates_of_eq (revokeAccessRows_refreshTokens _ _ _)).trans
      (rotates_revokeRefreshRows _ _ _)
  have haccess : AccessFrom [] database.persistentStore
      (((database.persistentStore.revokeAccessTokensForDevice env.commits refresh.userId
        refresh.deviceId).2.revokeRefreshTokensForDevice env.commits refresh.userId
        refresh.deviceId).2) :=
    (accessFrom_revokeAccessRows _ _ _).trans
      (accessFrom_of_eq (revokeRefreshRows_accessTokens _ _ _))
  unfold endReusedSession
  dsimp only
  split
  · exact progress_of_sessions hrotates (.inl rfl) haccess (.inl rfl)
  · exact progress_of_sessions hrotates (.inl rfl) haccess (.inr ⟨_, _, rfl⟩)

lemma MintOutcome.progress {accessHash newRefreshHash : Str}
    (h : MintOutcome config env database refresh accessHash newRefreshHash result)
    (hmem : refresh ∈ database.persistentStore.refreshTokens) (hlive : refresh.revoked = false)
    (hversion : tokenHashIsV3 accessHash = false) : Progress database result.2 := by
  have hne : refresh.tokenHash ≠ [] :=
    ne_nil_of_tokenIsHash (database.persistentStore.refreshHashed refresh hmem)
  have horigin : refresh.tokenHash = [] ∨ database.persistentStore.Live refresh.tokenHash :=
    .inr ⟨refresh, hmem, rfl, hlive⟩
  cases h with
  | unrevoked hstore =>
    rcases hstore with rfl | rfl | rfl
    · exact progress_of_sessions (rotates_completeRotation env _ _) horigin
        (accessFrom_of_eq (completeRotation_accessTokens env _ _)) (.inl rfl)
    · exact progress_of_sessions (rotates_supersede env _ _) horigin
        (accessFrom_of_eq (supersede_accessTokens env _ _ hne)) (.inl rfl)
    · exact progress_of_sessions
        ((rotates_supersede env _ _).trans (rotates_of_eq endAccess_refreshTokens)) horigin
        (accessFrom_endAccess hne) (.inl rfl)
  | unstored =>
    exact progress_of_sessions rotates_storeAccess horigin (accessFrom_storeAccess hne)
      (.inr ⟨_, _, rfl⟩)
  | @stored result nextSessionId session hprevious hothers haccess hrefresh _ hsession =>
    obtain ⟨hnew, hstored⟩ := storeAccess_stored hne haccess
    have hkept : AccessFrom refresh.tokenHash database.persistentStore
        (storePair config env database refresh accessHash newRefreshHash).2 :=
      (accessFrom_storeAccess hne).trans (accessFrom_of_eq storePair_accessTokens)
    have hhash : (revokeSessions database.sessions refresh.userId refresh.deviceId ++
        [session]).map accessTokenHash =
          database.sessions.map accessTokenHash ++ [accessHash] := by
      rw [map_append, revokeSessions_hash, map_singleton, hsession.1]
    refine ⟨rotates_storePair hmem hlive hprevious hothers, ⟨_, horigin, hkept⟩, ?_,
      fun h => ⟨?_, ?_⟩⟩
    · intro position tokenHash _ _ hmarked
      left
      rw [Marked] at hmarked ⊢
      have hposition : position <
          (revokeSessions database.sessions refresh.userId refresh.deviceId).length := by
        obtain ⟨old, hold, -⟩ := Option.map_eq_some_iff.mp hmarked
        rw [revokeSessions, length_map]
        exact (List.getElem?_eq_some_iff.mp hold).1
      rw [getElem?_append_left hposition, revokeSessions_mark, hmarked]
    · -- the new hash was in no row, so no session carried it
      rw [Distinct, hhash, nodup_append]
      refine ⟨h.distinct, nodup_singleton _, ?_⟩
      rintro tokenHash hold _ hsingle rfl
      rw [mem_singleton.mp hsingle] at hold
      exact Bool.false_ne_true (hnew.symm.trans (h.stored accessHash hold).1)
    · intro tokenHash htokenHash
      rw [hhash, mem_append, mem_singleton] at htokenHash
      rcases htokenHash with hold | rfl
      · exact ⟨hkept.kept (h.stored tokenHash hold).1, (h.stored tokenHash hold).2⟩
      · rw [accessTokenExists, storePair_accessTokens]
        exact ⟨hstored, hversion⟩

lemma RefreshOutcome.progress {refreshToken : Str}
    (h : RefreshOutcome crypto config env database refreshToken result) :
    Progress database result.2 := by
  cases h with
  | refused => exact progress_refl _
  | @reused refresh => exact progress_endReusedSession _ refresh
  | minted hpresented hlive _ _ _ _ hversion =>
    exact (mintPair_outcome config env database _ _ _ _ _).progress (mem_of_presented hpresented)
      hlive hversion

/-- The upgrade of a session to another hash leaves refresh tokens and marks alone.  Sessions that
mirror the store have nothing to upgrade. -/
structure Upgraded (database database' : LocalDatabase) : Prop where
  refreshTokens : database'.persistentStore.refreshTokens =
    database.persistentStore.refreshTokens
  access : AccessFrom [] database.persistentStore database'.persistentStore
  marks : ∀ position : ℕ, (database'.sessions[position]?).map LocalSession.predecessorRefreshHash =
    (database.sessions[position]?).map LocalSession.predecessorRefreshHash
  unchanged : database.Mirrored → database' = database

lemma upgraded_refl (database : LocalDatabase) : Upgraded database database :=
  ⟨rfl, accessFrom_of_eq rfl, fun _ => rfl, fun _ => rfl⟩

lemma upgraded_upgradeV3AccessTokenToV4 {found : LocalSession}
    (hfound : database.sessions[position]? = some found) (accessToken : Str) :
    Upgraded database (upgradeV3AccessTokenToV4 crypto env database accessToken position
        found.accessTokenHash) := by
  have hmem : found.accessTokenHash ∈ database.sessions.map accessTokenHash :=
    mem_map_of_mem (mem_of_getElem? hfound)
  unfold upgradeV3AccessTokenToV4
  split
  · exact upgraded_refl database
  rename_i hv3
  have hunchanged : ∀ {other}, database.Mirrored → other = database := by
    intro other h
    rw [(h.stored _ hmem).2] at hv3
    exact absurd rfl hv3
  split
  · exact upgraded_refl database
  rename_i v4Hash _
  dsimp only
  split
  · exact upgraded_refl database
  rename_i last _ _
  have hmarks : ∀ (p : ℕ → LocalSession → Bool) (other : ℕ), ((database.sessions.mapIdx fun i session =>
      if p i session then { session with accessTokenHash := v4Hash }
      else session)[other]?).map predecessorRefreshHash =
        (database.sessions[other]?).map predecessorRefreshHash := by
    intro p other
    rw [getElem?_mapIdx, Option.map_map]
    refine congrArg (Option.map · _) (funext fun session => ?_)
    simp only [comp_apply]
    split <;> rfl
  have hrevoked : AccessFrom [] database.persistentStore
      (database.persistentStore.revokeAccessToken env.commits
        (env.overwritten found.accessTokenHash)).2 :=
    accessFrom_revokeAccessRows _ _ _
  split
  · exact ⟨revokeAccessRows_refreshTokens _ _ _, hrevoked, hmarks _, hunchanged⟩
  · have hstored := accessFrom_storeAccessToken env.commits
      (database.persistentStore.revokeAccessToken env.commits
        (env.overwritten found.accessTokenHash)).2
      ⟨last.userId, last.deviceId, v4Hash, false, last.expiresAt, []⟩
    refine ⟨?_, hrevoked.trans hstored, hmarks _, hunchanged⟩
    exact (storeAccessToken_refreshTokens _ _ _).trans (revokeAccessRows_refreshTokens _ _ _)

/-- The ends of `authenticated_user`. -/
inductive AuthenticateOutcome (crypto : TokenCrypto) (env : CallEnv) (database : LocalDatabase)
    (accessToken : Str) : Option Str × LocalDatabase → Prop
  | untouched {user : Option Str} {database' : LocalDatabase} (hupgraded : Upgraded database database')
      (huser : user = none ∨ env.masquerade accessToken ≠ none) :
      AuthenticateOutcome crypto env database accessToken (user, database')
  | accepted {position : ℕ} {session : LocalSession} {database' : LocalDatabase}
      (hupgraded : Upgraded database database')
      (hpresented : presentedSession crypto env database accessToken = some position)
      (hsession : database'.sessions[position]? = some session) :
      AuthenticateOutcome crypto env database accessToken
        (some session.userId, completeSession env database' session)

lemma authenticatedUser_outcome (database : LocalDatabase) (accessToken : Str) :
    AuthenticateOutcome crypto env database accessToken
      (authenticatedUser crypto env database accessToken) := by
  unfold authenticatedUser
  split
  · rename_i hmasquerade
    exact .untouched (upgraded_refl _) (.inr (by simp [hmasquerade]))
  split
  · exact .untouched (upgraded_refl _) (.inl rfl)
  rename_i position hpresented
  split
  · exact .untouched (upgraded_refl _) (.inl rfl)
  rename_i found hfound
  have hupgraded : Upgraded database
      (upgradeV3AccessTokenToV4 crypto env database accessToken position found.accessTokenHash) :=
    upgraded_upgradeV3AccessTokenToV4 hfound accessToken
  dsimp only
  split
  · exact .untouched hupgraded (.inl rfl)
  rename_i session hsession
  split
  · exact .untouched hupgraded (.inl rfl)
  · exact .accepted hupgraded hpresented hsession

lemma not_live_completeSession (hne : session.predecessorRefreshHash ≠ [])
    (hcommitted : env.commits .revokeRefreshToken = true) :
    ¬ (completeSession env database session).persistentStore.Live
      session.predecessorRefreshHash := by
  have hrevoked : ¬ (database.persistentStore.revokeRefreshToken env.commits
      session.predecessorRefreshHash).2.Live session.predecessorRefreshHash := by
    rw [revokeRefreshToken, hcommitted, live_revokeRefreshRows]
    rintro ⟨token, -, hhash, -, htargeted⟩
    rw [hhash, beq_self_eq_true] at htargeted
    cases htargeted
  rw [completeSession, if_neg hne]
  rwa [if_pos (refreshTokenIsRevoked_iff.mpr hrevoked)]

lemma completeSession_hash (env : CallEnv) (database : LocalDatabase) (session : LocalSession) :
    (completeSession env database session).sessions.map accessTokenHash =
      database.sessions.map accessTokenHash := by
  unfold completeSession
  split
  · rfl
  dsimp only
  split
  · rw [map_map]
    refine congrArg (map · database.sessions) (funext fun live => ?_)
    simp only [comp_apply]
    split <;> rfl
  · rfl

lemma rotates_completeSession (env : CallEnv) (database : LocalDatabase) (session : LocalSession) :
    database.persistentStore.Rotates (completeSession env database session).persistentStore ∧
      (completeSession env database session).persistentStore.accessTokens =
        database.persistentStore.accessTokens := by
  unfold completeSession
  split
  · exact ⟨Rotates.refl _, rfl⟩
  dsimp only
  split <;> exact ⟨rotates_revokeRefreshToken _ _ _, revokeRefreshRows_accessTokens _ _ _⟩

lemma marked_completeSession {other : ℕ} (halone : database.Alone other)
    (hsession : database.sessions[position]? = some session)
    (hmarked : database.Marked other tokenHash) :
    (completeSession env database session).Marked other tokenHash ∨
      ¬ (completeSession env database session).persistentStore.Live tokenHash := by
  unfold completeSession
  split
  · exact .inl hmarked
  dsimp only
  split
  swap
  · exact .inl hmarked
  rename_i hrevoked
  obtain ⟨live, hlive, hmark⟩ := Option.map_eq_some_iff.mp hmarked
  by_cases hsame : live.accessTokenHash = session.accessTokenHash
  · right
    obtain rfl := halone position session.accessTokenHash (by simp [hlive, hsame])
      (by simp [hsession])
    rw [← hmark, Option.some.inj (hlive.symm.trans hsession)]
    exact refreshTokenIsRevoked_iff.mp hrevoked
  · left
    rw [Marked, getElem?_map, hlive, Option.map_some, if_neg hsame, Option.map_some, hmark]

lemma Upgraded.progress (h : Upgraded database database') : Progress database database' where
  rotates := rotates_of_eq h.refreshTokens
  access := ⟨[], .inl rfl, h.access⟩
  marks := by
    intro position tokenHash _ _ hmarked
    left
    rw [Marked, h.marks position]
    exact hmarked
  mirrored := fun hmirrored => (h.unchanged hmirrored).symm ▸ hmirrored

lemma Upgraded.progress_completeSession (h : Upgraded database database')
    (hsession : database'.sessions[position]? = some session) :
    Progress database (completeSession env database' session) := by
  obtain ⟨hrotates, haccess⟩ := rotates_completeSession env database' session
  have hfrom := h.access.trans (accessFrom_of_eq haccess)
  refine ⟨h.progress.rotates.trans hrotates, ⟨[], .inl rfl, hfrom⟩, ?_, ?_⟩
  · intro position tokenHash halone _ hmarked
    rw [Alone, completeSession_hash] at halone
    refine marked_completeSession halone hsession ?_
    rw [Marked, h.marks position]
    exact hmarked
  · intro hmirrored
    refine hmirrored.of_hash_eq ?_ hfrom.kept
    rw [completeSession_hash, h.unchanged hmirrored]

lemma AuthenticateOutcome.progress {accessToken : Str} {result : Option Str × LocalDatabase}
    (h : AuthenticateOutcome crypto env database accessToken result) :
    Progress database result.2 := by
  cases h with
  | untouched hupgraded => exact hupgraded.progress
  | accepted hupgraded _ hsession => exact hupgraded.progress_completeSession hsession

lemma progress_issueRefreshTokenForSession (database : LocalDatabase) (userId deviceId : Str) :
    Progress database
      (issueRefreshTokenForSession crypto config env database userId deviceId).2 := by
  unfold issueRefreshTokenForSession
  split
  · exact progress_refl _
  split
  · exact progress_refl _
  split
  · exact progress_refl _
  rename_i refreshHash _
  refine progress_of_sessions ?_ (.inl rfl) (accessFrom_of_eq ?_) (.inl rfl)
  · exact rotates_storeRefreshToken_issue env.commits database.persistentStore rfl rfl
  · rcases storeRefreshToken_cases env.commits database.persistentStore
      ⟨userId, deviceId, refreshHash, false,
        tokenExpiresAt config.refreshTokenLifetimeMs (env.clock 0), []⟩ with h | ⟨-, -, h, -⟩
    · simp [h]
    · exact h

/-- Every call of a run makes progress. -/
theorem progress_perform (database : LocalDatabase) (call : AuthCall) :
    Progress database (database.perform crypto config call) := by
  cases call with
  | refresh env token => exact (refreshLocalSession_outcome token).progress
  | authenticate env token => exact (authenticatedUser_outcome database token).progress
  | issueRefreshToken env userId deviceId =>
    exact progress_issueRefreshTokenForSession database userId deviceId
  | accounts users devices =>
    exact progress_of_sessions (rotates_of_eq rfl) (.inl rfl) (accessFrom_of_eq rfl)
      (.inl rfl)

/-! ### Runs -/

variable {calls : List AuthCall}

/-- A run keeps soundness. -/
theorem Sound.run (hs : database.Sound) (hrun : AuthRun crypto config database calls database') :
    database'.Sound := by
  refine Run.invariant Sound (fun _ => True) ?_ hrun (fun _ _ => trivial) hs
  rintro s call t - rfl h
  exact (progress_perform s call).sound h

lemma rotates_run (hrun : AuthRun crypto config database calls database') :
    database.persistentStore.Rotates database'.persistentStore := by
  induction hrun with
  | nil s => exact Rotates.refl _
  | @cons s t u call calls hstep _ ih =>
    subst hstep
    exact (progress_perform s call).rotates.trans ih

/-- A run in which every call leaves what is asked. -/
def RunKeeping (crypto : TokenCrypto) (config : TokenLifetimes) (P : LocalDatabase → Prop) :
    LocalDatabase → List AuthCall → LocalDatabase → Prop :=
  Run fun database call database' => database.perform crypto config call = database' ∧ P database'

lemma RunKeeping.authRun {P : LocalDatabase → Prop}
    (h : RunKeeping crypto config P database calls database') :
    AuthRun crypto config database calls database' := by
  induction h with
  | nil s => exact .nil s
  | cons hstep _ ih => exact .cons hstep.1 ih

/-- Where sessions mirror stored access tokens and none is under the v3 key, the store's own check
keeps all hashes apart. -/
theorem Mirrored.distinctRun (h : database.Mirrored)
    (hrun : AuthRun crypto config database calls database') :
    RunKeeping crypto config Distinct database calls database' := by
  induction hrun with
  | nil s => exact .nil s
  | @cons s t u call calls hstep _ ih =>
    subst hstep
    have hnext : (s.perform crypto config call).Mirrored := (progress_perform s call).mirrored h
    exact .cons ⟨rfl, hnext.distinct⟩ (ih hnext)

section

variable (hs : database.Sound)

include hs

lemma known_run (hknown : database.persistentStore.Known tokenHash)
    (hrun : AuthRun crypto config database calls database') :
    database'.persistentStore.Known tokenHash := by
  obtain ⟨L, hL, -⟩ := hs
  obtain ⟨M, hLM, hM⟩ := rotates_run hrun L hL
  exact (hM.known _).mp (hLM.known ((hL.known _).mpr hknown))

lemma not_live_run (hknown : database.persistentStore.Known tokenHash)
    (hrevoked : ¬ database.persistentStore.Live tokenHash)
    (hrun : AuthRun crypto config database calls database') :
    ¬ database'.persistentStore.Live tokenHash := by
  obtain ⟨L, hL, -⟩ := hs
  obtain ⟨M, hLM, hM⟩ := rotates_run hrun L hL
  rw [← hL.known] at hknown
  rw [← hL.live] at hrevoked
  rw [← hM.live]
  exact hLM.retired hknown hrevoked

/-- The token that a stored one was minted from is stored too. -/
lemma known_predecessor
    (hmem : refresh ∈ database.persistentStore.refreshTokens) (hprev : refresh.predecessorHash ≠ []) :
    database.persistentStore.Known refresh.predecessorHash := by
  obtain ⟨L, hL, -⟩ := hs
  have hparent : L.parent refresh.tokenHash = some refresh.predecessorHash := by
    rw [hL.parent]
    exact predecessor_eq_some.mpr ⟨refresh, hmem, rfl, rfl, hprev⟩
  exact (hL.known _).mp (L.parent_known hparent).2

lemma marked_run (hne : tokenHash ≠ []) (hknown : database.persistentStore.Known tokenHash)
    (hmarked : database.Marked position tokenHash)
    (hrun : RunKeeping crypto config (Alone · position) database calls database') :
    database'.Marked position tokenHash ∨ ¬ database'.persistentStore.Live tokenHash := by
  induction hrun with
  | nil s => exact .inl hmarked
  | @cons s t u call calls hstep hrest ih =>
    obtain ⟨rfl, halone⟩ := hstep
    have hprogress : Progress s (s.perform crypto config call) := progress_perform s call
    have hknown' := known_run hs hknown (.cons rfl (.nil (s.perform crypto config call)))
    rcases hprogress.marks halone hne hmarked with h | h
    · exact ih (hprogress.sound hs) hknown' h
    · exact .inr (not_live_run (hprogress.sound hs) hknown' h (RunKeeping.authRun hrest))

lemma access_run (hne : tokenHash ≠ []) (hknown : database.persistentStore.Known tokenHash)
    (hrevoked : ¬ database.persistentStore.Live tokenHash)
    (hrun : AuthRun crypto config database calls database') :
    ∀ token ∈ database'.persistentStore.accessTokens, token.predecessorRefreshHash = tokenHash →
      ∃ old ∈ database.persistentStore.accessTokens, old.tokenHash = token.tokenHash ∧
        old.predecessorRefreshHash = tokenHash := by
  induction hrun with
  | nil s => exact fun token htoken hminted => ⟨token, htoken, rfl, hminted⟩
  | @cons s t u call calls hstep hrest ih =>
    have hprogress : Progress s t := hstep ▸ progress_perform s call
    have hknown' := known_run hs hknown (.cons hstep (.nil t))
    have hrevoked' := not_live_run hs hknown hrevoked (.cons hstep (.nil t))
    intro token htoken hminted
    obtain ⟨middle, hmiddle, hhash, horigin⟩ :=
      ih (hprogress.sound hs) hknown' hrevoked' token htoken hminted
    obtain ⟨origin, hlive, hfrom⟩ := hprogress.access
    rcases hfrom.minted middle hmiddle with h | ⟨old, hold, hhash', horigin'⟩
    · exfalso
      rw [← h, horigin] at hlive
      exact hlive.elim hne hrevoked
    · exact ⟨old, hold, hhash'.trans hhash, horigin'.trans horigin⟩

end

end LocalDatabase

end Merovingian
