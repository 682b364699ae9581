import Merovingian.Homeserver.RefreshRotation

/-!
# Refresh-token rotation is safe

The properties of rotation at a database (`RotationSafe`), and that they hold wherever a run leads
from a database whose refresh tokens were only issued (`refreshRotation_safe`).
-/

namespace Merovingian

open SessionRefreshResult TokenStore List Option

namespace LocalDatabase

variable {crypto : TokenCrypto} {config : TokenLifetimes} {database : LocalDatabase} {env : CallEnv}
  {refresh : PersistentRefreshToken} {result : SessionRefreshResult × LocalDatabase}
  {refreshToken : Str}

/-- The refresh tokens were issued at login, and none has been presented yet. -/
def Issued (database : LocalDatabase) : Prop :=
  ∀ token ∈ database.persistentStore.refreshTokens, token.predecessorHash = []

/-- Every access and refresh token of the device is revoked, and so are its sessions. -/
def DeviceRevoked (database : LocalDatabase) (userId deviceId : Str) : Prop :=
  (∀ token ∈ database.persistentStore.accessTokens, token.userId = userId →
    token.deviceId = deviceId → token.revoked = true) ∧
  (∀ token ∈ database.persistentStore.refreshTokens, token.userId = userId →
    token.deviceId = deviceId → token.revoked = true) ∧
  ∀ session ∈ database.sessions, session.userId = userId → session.deviceId = deviceId →
    session.revoked = true

/-- The tokens minted from this one, of either kind, were there before. -/
def MintedBefore (tokenHash : Str) (before after : TokenStore) : Prop :=
  (∀ token ∈ after.refreshTokens, token.predecessorHash = tokenHash →
    ∃ old ∈ before.refreshTokens, old.tokenHash = token.tokenHash ∧
      old.predecessorHash = tokenHash) ∧
  ∀ token ∈ after.accessTokens, token.predecessorRefreshHash = tokenHash →
    ∃ old ∈ before.accessTokens, old.tokenHash = token.tokenHash ∧
      old.predecessorRefreshHash = tokenHash

/-- The access token is accepted through the session at a position, and the backend commits the
revocation this asks for. -/
structure UsedSession (crypto : TokenCrypto) (env : CallEnv) (database : LocalDatabase)
    (accessToken : Str) (position : ℕ) : Prop where
  masquerade : env.masquerade accessToken = none
  presented : presentedSession crypto env database accessToken = some position
  accepted : (authenticatedUser crypto env database accessToken).1 ≠ none
  persisted : env.commits .revokeRefreshToken = true

/-- The refresh token with this hash is revoked, now and after any further calls. -/
def RevokedFor (crypto : TokenCrypto) (config : TokenLifetimes) (database : LocalDatabase)
    (tokenHash : Str) : Prop :=
  ∀ calls later, AuthRun crypto config database calls later →
    ¬ later.persistentStore.Live tokenHash

/-- What rotation guarantees. -/
structure RotationSafe (crypto : TokenCrypto) (config : TokenLifetimes)
    (database : LocalDatabase) : Prop where
  /-- Among the tokens descended from one token at most two are live. -/
  atMostTwo : ∀ root (tokens : List Str), tokens.Nodup →
    (∀ token ∈ tokens, database.persistentStore.Live token ∧
      Reaches database.persistentStore.predecessor token root) → tokens.length ≤ 2
  /-- If they are two, one is minted from the other. -/
  paired : ∀ root token other, database.persistentStore.Live token →
    database.persistentStore.Live other → token ≠ other →
    Reaches database.persistentStore.predecessor token root →
    Reaches database.persistentStore.predecessor other root →
    database.persistentStore.predecessor token = some other ∨
      database.persistentStore.predecessor other = some token
  /-- A revoked token never mints a pair again. -/
  mintsNoMore : ∀ tokenHash, database.persistentStore.Known tokenHash →
    ¬ database.persistentStore.Live tokenHash → ∀ calls later,
    AuthRun crypto config database calls later →
    MintedBefore tokenHash database.persistentStore later.persistentStore
  /-- A revoked token that is presented ends the session of its device. -/
  reuse : ∀ env refreshToken refresh, (env.keys 0).v4 ≠ none →
    presentedRefreshToken crypto env database refreshToken = some refresh →
    refresh.revoked = true → isExpired refresh.expiresAt (env.clock 0) = false →
    (refreshLocalSession crypto config env database refreshToken).1 = persistenceFailure ∨
      DeviceRevoked (refreshLocalSession crypto config env database refreshToken).2
        refresh.userId refresh.deviceId
  /-- The use of an access token minted from a token revokes that token, as long as no other
  session has come to carry the same hash. -/
  accessUsed : ∀ env refreshToken refresh,
    presentedRefreshToken crypto env database refreshToken = some refresh →
    (refreshLocalSession crypto config env database refreshToken).1.ok = true →
    ∀ calls later, RunKeeping crypto config (Alone · database.sessions.length)
      (refreshLocalSession crypto config env database refreshToken).2 calls later →
    ∀ env' accessToken, UsedSession crypto env' later accessToken database.sessions.length →
    RevokedFor crypto config (authenticatedUser crypto env' later accessToken).2 refresh.tokenHash
  /-- The use of a refresh token minted from a token revokes that token. -/
  refreshUsed : ∀ env refreshToken refresh,
    presentedRefreshToken crypto env database refreshToken = some refresh →
    (refreshLocalSession crypto config env database refreshToken).1.ok = true →
    refresh.predecessorHash ≠ [] →
    RevokedFor crypto config (refreshLocalSession crypto config env database refreshToken).2
      refresh.predecessorHash
  /-- A refresh succeeds for a known active account and an existing device only. -/
  subject : ∀ env refreshToken,
    (refreshLocalSession crypto config env database refreshToken).1.ok = true →
    ∃ user, database.findUser
        (refreshLocalSession crypto config env database refreshToken).1.userId = some user ∧
      user.deactivated = false ∧ user.locked = false ∧
      database.persistentStore.deviceExists
        (refreshLocalSession crypto config env database refreshToken).1.userId
        (refreshLocalSession crypto config env database refreshToken).1.deviceId = true

/-! ### The start -/

lemma Issued.sound (h : database.Issued) : database.Sound := by
  have hnone : database.persistentStore.predecessor = fun _ => none := by
    funext tokenHash
    refine eq_none_iff_forall_ne_some.mpr fun previous hprevious => ?_
    obtain ⟨token, htoken, -, heq, hne⟩ := predecessor_eq_some.mp hprevious
    exact hne (heq ▸ h token htoken)
  refine ⟨⟨{ tokenHash | database.persistentStore.Known tokenHash }, fun _ => none,
    { tokenHash | database.persistentStore.Live tokenHash }, Live.known,
    fun h => absurd h (by simp), acyclic_none⟩, ?_, ?_⟩
  · exact ⟨fun _ => Iff.rfl, fun _ => Iff.rfl, hnone.symm⟩
  · -- without predecessors a common ancestor is the token itself
    have hself : ∀ {a r : Str}, Reaches (fun _ : Str => none) a r → a = r := by
      intro a r hreaches
      rcases Relation.ReflTransGen.cases_head hreaches with heq | ⟨b, hb, -⟩
      · exact heq
      · cases hb
    intro a b r _ _ har hbr
    exact .inl ((hself har).trans (hself hbr).symm)

/-! ### Reuse -/

lemma refreshLocalSession_reused (hkey : (env.keys 0).v4 ≠ none)
    (hpresented : presentedRefreshToken crypto env database refreshToken = some refresh)
    (hrevoked : refresh.revoked = true)
    (hexpired : isExpired refresh.expiresAt (env.clock 0) = false) :
    refreshLocalSession crypto config env database refreshToken =
      endReusedSession env database refresh := by
  have hhashes : lookupTokenHashes crypto (env.keys 1) (env.keys 2) refreshToken ≠ [] := by
    intro hnil
    have hmatch := find?_some hpresented
    rw [hnil] at hmatch
    exact absurd hmatch (by simp [matchesAnyTokenHash])
  rw [refreshLocalSession, if_neg hkey, if_neg hhashes, hpresented]
  simp [hexpired, hrevoked]

lemma endReusedSession_revoked (env : CallEnv) (database : LocalDatabase)
    (refresh : PersistentRefreshToken) :
    (endReusedSession env database refresh).1 = persistenceFailure ∨
      DeviceRevoked (endReusedSession env database refresh).2 refresh.userId refresh.deviceId := by
  unfold endReusedSession
  dsimp only
  split
  · exact .inl rfl
  · rename_i hrevoked
    simp [TokenStore.deviceTokensAreRevoked] at hrevoked
    obtain ⟨haccess, hrefresh⟩ := hrevoked
    refine .inr ⟨haccess, hrefresh, ?_⟩
    intro session hsession huser hdevice
    obtain ⟨old, -, rfl⟩ := mem_map.mp hsession
    split at huser
    · rename_i hold
      simp [hold]
    · rename_i hold
      rw [if_neg hold] at hdevice
      exact absurd (by simp [huser, hdevice]) hold

/-! ### A successful refresh -/

lemma not_live_storePair {accessHash newRefreshHash : Str} (hs : database.Sound)
    (hmem : refresh ∈ database.persistentStore.refreshTokens) (hprev : refresh.predecessorHash ≠ [])
    (hrevoked : ¬ (completeRotation env database.persistentStore refresh.predecessorHash).Live
      refresh.predecessorHash) :
    ¬ (storePair config env database refresh accessHash newRefreshHash).2.Live
      refresh.predecessorHash := by
  have hne : refresh.tokenHash ≠ [] :=
    ne_nil_of_tokenIsHash (database.persistentStore.refreshHashed refresh hmem)
  have hbefore : ¬ (storeAccess config env database refresh accessHash).2.Live
      refresh.predecessorHash := by
    rw [live_congr storeAccess_refreshTokens, supersede_eq env _ refresh hne]
    exact fun h => hrevoked h.of_revokeRefreshRows
  -- the predecessor is a stored token, so it is not the new one
  have hknown : (storeAccess config env database refresh accessHash).2.Known
      refresh.predecessorHash := by
    have ⟨L, hL, _⟩ := hs
    obtain ⟨M, hLM, hM⟩ := (rotates_storeAccess : database.persistentStore.Rotates
      (storeAccess config env database refresh accessHash).2) L hL
    have hknown := (hL.known _).mpr (known_predecessor hs hmem hprev)
    exact (hM.known _).mp (hLM.known hknown)
  rcases storeRefreshToken_cases env.commits (storeAccess config env database refresh accessHash).2
    (newRefreshRow config env refresh newRefreshHash) with h | ⟨-, hrows, -, hnew⟩
  · rw [storePair, h]
    exact hbefore
  · rw [storePair, live_append hrows rfl]
    rintro (heq | hlive)
    · exact hnew (heq ▸ hknown)
    · exact hbefore hlive

/-- What a successful refresh was asked for and leaves. -/
structure Refreshed (crypto : TokenCrypto) (env : CallEnv) (database : LocalDatabase)
    (refreshToken : Str) (result : SessionRefreshResult × LocalDatabase) : Prop where
  presented : ∃ refresh user,
    presentedRefreshToken crypto env database refreshToken = some refresh ∧
    result.1.userId = refresh.userId ∧ result.1.deviceId = refresh.deviceId ∧
    database.findUser refresh.userId = some user ∧ user.deactivated = false ∧
    user.locked = false ∧
    database.persistentStore.deviceExists refresh.userId refresh.deviceId = true
  marked : ∀ refresh, presentedRefreshToken crypto env database refreshToken = some refresh →
    result.2.Marked database.sessions.length refresh.tokenHash
  previous : ∀ refresh, presentedRefreshToken crypto env database refreshToken = some refresh →
    refresh.predecessorHash ≠ [] → ¬ result.2.persistentStore.Live refresh.predecessorHash

lemma MintOutcome.refreshed {accessHash newRefreshHash : Str}
    (h : MintOutcome config env database refresh accessHash newRefreshHash result)
    (hok : result.1.ok = true) (hs : database.Sound)
    (hmem : refresh ∈ database.persistentStore.refreshTokens) :
    result.1.userId = refresh.userId ∧ result.1.deviceId = refresh.deviceId ∧
      result.2.Marked database.sessions.length refresh.tokenHash ∧
      (refresh.predecessorHash ≠ [] → ¬ result.2.persistentStore.Live refresh.predecessorHash) := by
  cases h with
  | unrevoked => cases hok
  | unstored => cases hok
  | stored hprevious _ _ _ hresult hsession =>
    refine ⟨hresult.1, hresult.2, ?_, fun hprev => ?_⟩
    · have hlength : (revokeSessions database.sessions refresh.userId refresh.deviceId).length =
          database.sessions.length := length_map _
      rw [Marked, ← hlength, getElem?_concat_length, map_some, hsession.2]
    · exact not_live_storePair hs hmem hprev (hprevious hprev)

lemma RefreshOutcome.refreshed
    (h : RefreshOutcome crypto config env database refreshToken result) (hok : result.1.ok = true)
    (hs : database.Sound) : Refreshed crypto env database refreshToken result := by
  cases h with
  | refused hrefused => exact absurd hok (by simp [hrefused])
  | reused =>
    unfold endReusedSession at hok
    dsimp only at hok
    split at hok <;> cases hok
  | @minted refresh user _ _ _ _ hpresented hlive huser hactive hunlocked hdevice =>
    obtain ⟨huserId, hdeviceId, hmarked, hprevious⟩ :=
      (mintPair_outcome config env database refresh _ _ _ _).refreshed hok hs
        (mem_of_presented hpresented)
    refine ⟨⟨refresh, user, hpresented, huserId, hdeviceId, huser, hactive, hunlocked, hdevice⟩,
      fun other hother => ?_, fun other hother => ?_⟩
    · obtain rfl := Option.some.inj (hpresented.symm.trans hother)
      exact hmarked
    · obtain rfl := Option.some.inj (hpresented.symm.trans hother)
      exact hprevious

/-! ### Rotation is safe -/

lemma mintedBefore_run {later : LocalDatabase} {calls : List AuthCall} {tokenHash : Str}
    (hs : database.Sound) (hknown : database.persistentStore.Known tokenHash)
    (hrevoked : ¬ database.persistentStore.Live tokenHash)
    (hrun : AuthRun crypto config database calls later) :
    MintedBefore tokenHash database.persistentStore later.persistentStore := by
  have hne : tokenHash ≠ [] := by
    obtain ⟨token, htoken, rfl⟩ := hknown
    exact ne_nil_of_tokenIsHash (database.persistentStore.refreshHashed token htoken)
  refine ⟨fun token htoken hminted => ?_, access_run hs hne hknown hrevoked hrun⟩
  obtain ⟨L, hL, -⟩ := hs
  obtain ⟨M, hLM, hM⟩ := rotates_run hrun L hL
  have hparent : M.parent token.tokenHash = some tokenHash := by
    rw [hM.parent]
    exact predecessor_eq_some.mpr ⟨token, htoken, rfl, hminted, hne⟩
  have hold := hLM.parent_of_retired ((hL.known _).mpr hknown)
    (fun h => hrevoked ((hL.live _).mp h)) hparent
  rw [hL.parent] at hold
  obtain ⟨old, holdmem, hhash, hprevious, -⟩ := predecessor_eq_some.mp hold
  exact ⟨old, holdmem, hhash, hprevious⟩

/-- The session at the position carries the mark when it is used, so the marked token is revoked. -/
lemma revokedFor_of_used {accessToken tokenHash : Str} {position : ℕ} (hs : database.Sound)
    (hne : tokenHash ≠ []) (hknown : database.persistentStore.Known tokenHash)
    (hmarked : database.Marked position tokenHash ∨ ¬ database.persistentStore.Live tokenHash)
    (hused : UsedSession crypto env database accessToken position) :
    RevokedFor crypto config (authenticatedUser crypto env database accessToken).2 tokenHash := by
  intro calls later hrun
  have hrun' : AuthRun crypto config database (.authenticate env accessToken :: calls) later :=
    .cons rfl hrun
  rcases hmarked with hmarked | hrevoked
  swap
  · exact not_live_run hs hknown hrevoked hrun'
  have hstep : AuthRun crypto config database [.authenticate env accessToken]
    (authenticatedUser crypto env database accessToken).2 := .cons rfl (.nil _)
  refine not_live_run (hs.run hstep) (known_run hs hknown hstep) ?_ hrun
  have houtcome : AuthenticateOutcome crypto env database accessToken
    (authenticatedUser crypto env database accessToken) :=
      authenticatedUser_outcome database accessToken
  have haccepted := hused.accepted
  generalize authenticatedUser crypto env database accessToken = result at houtcome haccepted ⊢
  cases houtcome with
  | untouched _ huser =>
    rcases huser with rfl | hmasquerade
    · exact absurd rfl haccepted
    · exact absurd hused.masquerade hmasquerade
  | @accepted found session database' hupgraded hpresented hsession =>
    obtain rfl := Option.some.inj (hused.presented.symm.trans hpresented)
    rw [Marked, ← hupgraded.marks position, hsession, map_some, Option.some.injEq] at hmarked
    subst hmarked
    exact not_live_completeSession hne hused.persisted

lemma Sound.rotationSafe (hs : database.Sound) : RotationSafe crypto config database := by
  have ⟨L, hL, hpaired⟩ := hs
  have hrefresh : ∀ env refreshToken, AuthRun crypto config database [.refresh env refreshToken]
      (refreshLocalSession crypto config env database refreshToken).2 :=
    fun env refreshToken => .cons rfl (.nil _)
  have hrefreshed : ∀ env refreshToken,
      (refreshLocalSession crypto config env database refreshToken).1.ok = true →
      Refreshed crypto env database refreshToken
        (refreshLocalSession crypto config env database refreshToken) :=
    fun env refreshToken hok => (refreshLocalSession_outcome refreshToken).refreshed hok hs
  constructor
  case atMostTwo =>
    intro root tokens hnodup htokens
    refine hpaired.length_le_two (r := root) hnodup fun token htoken => ?_
    rw [hL.live, hL.parent]
    exact htokens token htoken
  case paired =>
    intro root token other htoken hother hne hroot hroot'
    rw [← hL.parent] at hroot hroot' ⊢
    exact (hpaired ((hL.live _).mpr htoken) ((hL.live _).mpr hother) hroot hroot').resolve_left hne
  case mintsNoMore =>
    intro tokenHash hknown hrevoked calls later hrun
    exact mintedBefore_run hs hknown hrevoked hrun
  case reuse =>
    intro env refreshToken refresh hkey hpresented hrevoked hexpired
    rw [refreshLocalSession_reused hkey hpresented hrevoked hexpired]
    exact endReusedSession_revoked env database refresh
  case accessUsed =>
    intro env refreshToken refresh hpresented hok calls later hrun env' accessToken hused
    have hmem := mem_of_presented hpresented
    have hne := ne_nil_of_tokenIsHash (database.persistentStore.refreshHashed refresh hmem)
    have hs₁ := hs.run (hrefresh env refreshToken)
    have hknown := known_run hs ⟨refresh, hmem, rfl⟩ (hrefresh env refreshToken)
    have hmarked := marked_run hs₁ hne hknown
      ((hrefreshed env refreshToken hok).marked refresh hpresented) hrun
    have hrun' := RunKeeping.authRun hrun
    exact revokedFor_of_used (hs₁.run hrun') hne (known_run hs₁ hknown hrun') hmarked hused
  case refreshUsed =>
    intro env refreshToken refresh hpresented hok hprev calls later hrun
    have hknown := known_predecessor hs (mem_of_presented hpresented) hprev
    exact not_live_run (hs.run (hrefresh env refreshToken))
      (known_run hs hknown (hrefresh env refreshToken))
      ((hrefreshed env refreshToken hok).previous refresh hpresented hprev) hrun
  case subject =>
    intro env refreshToken hok
    obtain ⟨refresh, user, -, huserId, hdeviceId, huser, hactive, hunlocked, hdevice⟩ :=
      (hrefreshed env refreshToken hok).presented
    rw [huserId, hdeviceId]
    exact ⟨user, huser, hactive, hunlocked, hdevice⟩

/-- Rotation is safe wherever a run leads from issued tokens. -/
theorem refreshRotation_safe {start database : LocalDatabase} {calls : List AuthCall}
    (hissued : start.Issued) (hrun : AuthRun crypto config start calls database) :
    RotationSafe crypto config database :=
  (hissued.sound.run hrun).rotationSafe

/-! ### A lost answer, and a lost key -/

section Example

/-- Hash functions that show their arguments. -/
def plainTokenCrypto : TokenCrypto where
  hashBytesToHex token := some token
  keyedHashToHex key token := some (key ++ token)

def hourlyTokens : TokenLifetimes where
  accessTokenLifetimeMs := 3600000
  refreshTokenLifetimeMs := 0

/-- A call that meets no failure and draws these random bytes. -/
def calmEnv (access refresh : String) : CallEnv where
  clock _ := 0
  keys _ := ⟨some "k3", some "k4"⟩
  random draw := if draw = 0 then some access else some refresh
  commits _ := true
  indexed _ := List.range 8
  masquerade _ := none
  masqueradeIsValid _ := false

/-- The same with an unreadable master key file. -/
def keylessEnv : CallEnv := { calmEnv "a" "b" with keys := fun _ => ⟨none, none⟩ }

/-- An account with one device and one refresh token from login. -/
def loggedIn : LocalDatabase where
  users := [⟨"@u:x", false, false⟩]
  sessions := []
  persistentStore :=
    { accessTokens := []
      refreshTokens := [⟨"@u:x", "D", "token-hash:v4:k4mvs_r0", false, none, []⟩]
      devices := [⟨"@u:x", "D", "phone"⟩]
      refreshUnique := by decide
      refreshHashed := by decide }
  nextSessionId := 1

/-- The first answer is lost, the client asks again, and uses what it gets. -/
def retried : LocalDatabase :=
  ((loggedIn.perform plainTokenCrypto hourlyTokens (.refresh (calmEnv "a1" "r1") "mvs_r0")).perform
    plainTokenCrypto hourlyTokens (.refresh (calmEnv "a2" "r2") "mvs_r0")).perform
    plainTokenCrypto hourlyTokens (.authenticate (calmEnv "" "") "mvs_a2")

lemma loggedIn_issued : loggedIn.Issued := by
  unfold Issued
  decide

lemma loggedIn_run : AuthRun plainTokenCrypto hourlyTokens loggedIn
    [.refresh (calmEnv "a1" "r1") "mvs_r0", .refresh (calmEnv "a2" "r2") "mvs_r0",
      .authenticate (calmEnv "" "") "mvs_a2"] retried :=
  .cons rfl (.cons rfl (.cons rfl (.nil _)))

theorem distinctRun_retried :
    ∃ calls, RunKeeping plainTokenCrypto hourlyTokens Distinct loggedIn calls retried :=
  ⟨_, Mirrored.distinctRun ⟨List.nodup_nil, by simp [loggedIn]⟩ loggedIn_run⟩

theorem refreshRotation_safe_retried :
    retried.persistentStore.refreshTokens.map (fun token => (token.tokenHash, token.revoked)) =
      [(lit "token-hash:v4:k4mvs_r0", true), (lit "token-hash:v4:k4mvs_r1", true),
        (lit "token-hash:v4:k4mvs_r2", false)] ∧
    RotationSafe plainTokenCrypto hourlyTokens retried :=
  ⟨by decide, refreshRotation_safe loggedIn_issued loggedIn_run⟩

/-- While the keys cannot be read, a revoked token that is presented is not recognised: the answer
is another failure than that of persistence, and the access token of its device stays valid. -/
theorem reuse_unnoticed_without_key :
    loggedIn.Issued ∧
    (∃ calls, AuthRun plainTokenCrypto hourlyTokens loggedIn calls retried) ∧
    (retried.presentedRefreshToken plainTokenCrypto (calmEnv "" "") "mvs_r0").map
      PersistentRefreshToken.revoked = some true ∧
    (retried.refreshLocalSession plainTokenCrypto hourlyTokens keylessEnv "mvs_r0").1 =
      refusal 503 "token key unavailable" ∧
    (retried.refreshLocalSession plainTokenCrypto hourlyTokens keylessEnv "mvs_r0").1 ≠
      persistenceFailure ∧
    ¬ DeviceRevoked (retried.refreshLocalSession plainTokenCrypto hourlyTokens keylessEnv
      "mvs_r0").2 "@u:x" "D" := by
  refine ⟨loggedIn_issued, ⟨_, loggedIn_run⟩, by decide, by decide,
    by decide, ?_⟩
  rintro ⟨haccess, -⟩
  revert haccess
  decide

end Example

end LocalDatabase

end Merovingian
