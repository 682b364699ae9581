import Merovingian.Database.TokenStore
import Merovingian.Lib.Keyed
import Merovingian.Lib.Lineage

/-!
# The lineage of refresh tokens

A refresh token row names the token it was minted from.  The table is read here as a lineage, and
every write to it is a step of that lineage (`rotates_revokeRefreshRows`,
`rotates_storeRefreshToken_issue`, `rotates_storeRefreshToken_mint`).  Access tokens name a refresh
token too; what the writes add to their table is `AccessFrom`.
-/

namespace Merovingian

open List Function

namespace TokenStore

/-! ### The table as a lineage -/

/-- A refresh token with this hash was stored. -/
def Known (store : TokenStore) (tokenHash : Str) : Prop :=
  ∃ token ∈ store.refreshTokens, token.tokenHash = tokenHash

/-- A refresh token with this hash is stored and not revoked. -/
def Live (store : TokenStore) (tokenHash : Str) : Prop :=
  ∃ token ∈ store.refreshTokens, token.tokenHash = tokenHash ∧ token.revoked = false

/-- The refresh token that the stored one was minted from. -/
def predecessor (store : TokenStore) (tokenHash : Str) : Option Str :=
  (lookupBy PersistentRefreshToken.tokenHash store.refreshTokens tokenHash).bind fun token =>
    if token.predecessorHash = [] then none else some token.predecessorHash

variable {tokenHash previous : Str} {store : TokenStore}

lemma Live.known (h : store.Live tokenHash) : store.Known tokenHash :=
  let ⟨token, htoken, hhash, _⟩ := h
  ⟨token, htoken, hhash⟩

lemma eq_of_tokenHash_eq (store : TokenStore) {a b : PersistentRefreshToken}
    (ha : a ∈ store.refreshTokens) (hb : b ∈ store.refreshTokens)
    (h : a.tokenHash = b.tokenHash) : a = b :=
  inj_on_of_nodup_map store.refreshUnique ha hb h

lemma predecessor_eq_some :
    store.predecessor tokenHash = some previous ↔ ∃ token ∈ store.refreshTokens,
      token.tokenHash = tokenHash ∧ token.predecessorHash = previous ∧ previous ≠ [] := by
  rw [predecessor, Option.bind_eq_some_iff]
  simp only [lookupBy_eq_some store.refreshUnique, and_assoc]
  refine exists_congr fun token => and_congr_right fun _ => and_congr_right fun _ => ?_
  by_cases hnil : token.predecessorHash = []
  · rw [if_pos hnil]
    refine iff_of_false (by simp) ?_
    rintro ⟨rfl, hne⟩
    exact hne hnil
  · rw [if_neg hnil, Option.some.injEq]
    exact ⟨fun h => ⟨h, h ▸ hnil⟩, And.left⟩

/-- The lineage that the table of refresh tokens records. -/
structure Records (store : TokenStore) (L : Lineage Str) : Prop where
  known : ∀ tokenHash, tokenHash ∈ L.known ↔ store.Known tokenHash
  live : ∀ tokenHash, tokenHash ∈ L.live ↔ store.Live tokenHash
  parent : L.parent = store.predecessor

/-- A write that the lineage follows by its steps. -/
def Rotates (store store' : TokenStore) : Prop :=
  ∀ L, store.Records L → ∃ M, L.Evolves M ∧ store'.Records M

variable {store store' store'' : TokenStore} {targeted : PersistentRefreshToken → Bool}
  {token : PersistentRefreshToken} {committed : Bool} {origin : Str} (commits : Commits)

lemma Rotates.refl (store : TokenStore) : store.Rotates store :=
  fun L h => ⟨L, .refl, h⟩

lemma Rotates.trans (h : store.Rotates store') (h' : store'.Rotates store'') :
    store.Rotates store'' := by
  intro L hL
  obtain ⟨M, hLM, hM⟩ := h L hL
  obtain ⟨N, hMN, hN⟩ := h' M hM
  exact ⟨N, Relation.ReflTransGen.trans hLM hMN, hN⟩

section

variable (h : store'.refreshTokens = store.refreshTokens)

include h

lemma known_congr : store'.Known = store.Known := by
  funext tokenHash
  rw [Known, Known, h]

lemma live_congr : store'.Live = store.Live := by
  funext tokenHash
  rw [Live, Live, h]

lemma predecessor_congr : store'.predecessor = store.predecessor := by
  funext tokenHash
  rw [predecessor, predecessor, h]

lemma rotates_of_eq : store.Rotates store' := by
  intro L hL
  refine ⟨L, .refl, ?_, ?_, ?_⟩
  · rw [known_congr h]
    exact hL.known
  · rw [live_congr h]
    exact hL.live
  · rw [predecessor_congr h]
    exact hL.parent

end

lemma live_revokeRefreshRows :
    (store.revokeRefreshRows true targeted).2.Live tokenHash ↔
      ∃ token ∈ store.refreshTokens, token.tokenHash = tokenHash ∧ token.revoked = false ∧
        targeted token = false := by
  simp [Live, revokeRefreshRows, revokeIf_revoked]

lemma Live.of_revokeRefreshRows
    (h : (store.revokeRefreshRows committed targeted).2.Live tokenHash) : store.Live tokenHash := by
  cases committed with
  | false => exact h
  | true =>
    obtain ⟨token, htoken, hhash, hrevoked, -⟩ := live_revokeRefreshRows.mp h
    exact ⟨token, htoken, hhash, hrevoked⟩

/-- A row that is not targeted stays as it is. -/
lemma mem_revokeRefreshRows
    (htoken : token ∈ store.refreshTokens) (htargeted : targeted token = false) :
    token ∈ (store.revokeRefreshRows committed targeted).2.refreshTokens := by
  cases committed with
  | false => exact htoken
  | true =>
    refine mem_map.mpr ⟨token, htoken, ?_⟩
    rw [revokeIf, htargeted]
    rfl

lemma predecessor_revokeRefreshRows (committed : Bool) (targeted : PersistentRefreshToken → Bool)
    (store : TokenStore) :
    (store.revokeRefreshRows committed targeted).2.predecessor = store.predecessor := by
  cases committed with
  | false => rfl
  | true =>
    funext tokenHash
    refine Option.ext fun previous => ?_
    rw [predecessor_eq_some, predecessor_eq_some]
    simp [revokeRefreshRows]

lemma rotates_revokeRefreshRows (committed : Bool) (targeted : PersistentRefreshToken → Bool)
    (store : TokenStore) : store.Rotates (store.revokeRefreshRows committed targeted).2 := by
  cases committed with
  | false => exact Rotates.refl store
  | true =>
    intro L hL
    -- the targeted tokens retire
    refine ⟨_, .single (.retire L { tokenHash | ∃ token ∈ store.refreshTokens,
      token.tokenHash = tokenHash ∧ targeted token = true }), ?_, ?_, ?_⟩
    · exact fun tokenHash => (hL.known tokenHash).trans (by simp [Known, revokeRefreshRows])
    · intro tokenHash
      rw [live_revokeRefreshRows]
      constructor
      · rintro ⟨hlive, hgone⟩
        obtain ⟨token, htoken, hhash, hrevoked⟩ := (hL.live tokenHash).mp hlive
        refine ⟨token, htoken, hhash, hrevoked, ?_⟩
        by_contra htargeted
        exact hgone ⟨token, htoken, hhash, by simpa using htargeted⟩
      · rintro ⟨token, htoken, hhash, hrevoked, htargeted⟩
        refine ⟨(hL.live tokenHash).mpr ⟨token, htoken, hhash, hrevoked⟩, ?_⟩
        rintro ⟨other, hother, hother', htarget⟩
        rw [store.eq_of_tokenHash_eq hother htoken (hother'.trans hhash.symm), htargeted] at htarget
        cases htarget
    · exact hL.parent.trans (predecessor_revokeRefreshRows true targeted store).symm

lemma rotates_revokeRefreshToken (store : TokenStore) (tokenHash : Str) :
    store.Rotates (store.revokeRefreshToken commits tokenHash).2 :=
  rotates_revokeRefreshRows _ _ store

lemma rotates_revokeRefreshTokensWithPredecessor (store : TokenStore) (previous : Str) :
    store.Rotates (store.revokeRefreshTokensWithPredecessor commits previous).2 := by
  unfold revokeRefreshTokensWithPredecessor
  split
  · exact Rotates.refl store
  · exact rotates_revokeRefreshRows _ _ store

lemma revokeAccessRows_refreshTokens (committed : Bool) (targeted : PersistentAccessToken → Bool)
    (store : TokenStore) :
    (store.revokeAccessRows committed targeted).2.refreshTokens = store.refreshTokens := by
  cases committed <;> rfl

lemma storeAccessToken_refreshTokens (store : TokenStore) (token : PersistentAccessToken) :
    (store.storeAccessToken commits token).2.refreshTokens = store.refreshTokens := by
  unfold storeAccessToken
  split_ifs <;> rfl

lemma storeRefreshToken_cases (store : TokenStore) (token : PersistentRefreshToken) :
    store.storeRefreshToken commits token = (false, store) ∨
      (store.storeRefreshToken commits token).1 = true ∧
      (store.storeRefreshToken commits token).2.refreshTokens = store.refreshTokens ++ [token] ∧
      (store.storeRefreshToken commits token).2.accessTokens = store.accessTokens ∧
      ¬ store.Known token.tokenHash := by
  unfold storeRefreshToken
  split
  · exact .inl rfl
  · rename_i h
    split
    · exact .inl rfl
    · refine .inr ⟨rfl, rfl, rfl, ?_⟩
      rintro ⟨row, hrow, hhash⟩
      refine h (Bool.or_eq_true_iff.mpr (.inr (any_eq_true.mpr ⟨row, hrow, ?_⟩)))
      rw [beq_iff_eq, hhash]

lemma storeRefreshToken_of_not_stored {commits : Commits}
    (h : (store.storeRefreshToken commits token).1 = false) :
    (store.storeRefreshToken commits token).2 = store := by
  rcases storeRefreshToken_cases commits store token with heq | ⟨hstored, -⟩
  · rw [heq]
  · rw [h] at hstored
    cases hstored

section Append

variable {token : PersistentRefreshToken}
  (hrows : store'.refreshTokens = store.refreshTokens ++ [token])

include hrows

lemma known_append :
    store'.Known tokenHash ↔ tokenHash = token.tokenHash ∨ store.Known tokenHash := by
  rw [Known, hrows, exists_mem_concat, or_comm, eq_comm]
  rfl

lemma live_append (hlive : token.revoked = false) :
    store'.Live tokenHash ↔ tokenHash = token.tokenHash ∨ store.Live tokenHash := by
  rw [Live, hrows, exists_mem_concat, or_comm, eq_comm, and_iff_left hlive]
  rfl

lemma predecessor_append (hnew : ¬ store.Known token.tokenHash) :
    store'.predecessor = update store.predecessor token.tokenHash
      (if token.predecessorHash = [] then none else some token.predecessorHash) := by
  funext tokenHash
  rw [predecessor, hrows, lookupBy_append, lookupBy_cons, lookupBy_nil]
  by_cases hself : tokenHash = token.tokenHash
  · have hnone : lookupBy PersistentRefreshToken.tokenHash store.refreshTokens tokenHash = none :=
      lookupBy_eq_none.mpr fun row hrow hhash => hnew ⟨row, hrow, hhash.trans hself⟩
    rw [hnone, if_pos hself.symm, hself, update_self]
    rfl
  · rw [if_neg (Ne.symm hself), Option.or_none, update_of_ne hself]
    rfl

end Append

/-! ### What the checks say -/

lemma refreshTokenIsRevoked_iff :
    store.refreshTokenIsRevoked tokenHash = true ↔ ¬ store.Live tokenHash := by
  simp [refreshTokenIsRevoked, Live]

lemma not_live_of_predecessorAreRevoked (hne : previous ≠ [])
    (h : store.refreshTokensWithPredecessorAreRevoked previous = true)
    (hprevious : store.predecessor tokenHash = some previous) : ¬ store.Live tokenHash := by
  rintro ⟨token, htoken, hhash, hrevoked⟩
  rw [refreshTokensWithPredecessorAreRevoked, Bool.not_eq_true', any_eq_false] at h
  obtain ⟨row, hrow, hrow', rfl, -⟩ := predecessor_eq_some.mp hprevious
  obtain rfl := store.eq_of_tokenHash_eq hrow htoken (hrow'.trans hhash.symm)
  exact h row hrow (by simp [hrevoked, hne])

/-! ### Insertions in the lineage -/

lemma rotates_storeRefreshToken_issue (store : TokenStore) (hlive : token.revoked = false)
    (hissued : token.predecessorHash = []) :
    store.Rotates (store.storeRefreshToken commits token).2 := by
  rcases storeRefreshToken_cases commits store token with h | ⟨-, hrows, -, hnew⟩
  · rw [h]
    exact Rotates.refl store
  · intro L hL
    have hk : token.tokenHash ∉ L.known := fun h => hnew ((hL.known _).mp h)
    refine ⟨_, .single (.issue hk), ?_, ?_, ?_⟩
    · intro tokenHash
      rw [known_append hrows, ← hL.known]
      exact Iff.rfl
    · intro tokenHash
      rw [live_append hrows hlive, ← hL.live]
      exact Iff.rfl
    · rw [predecessor_append hrows hnew, if_pos hissued, ← hL.parent]
      exact (update_eq_self_iff.mpr (L.parent_of_notMem hk).symm).symm

lemma rotates_storeRefreshToken_mint (store : TokenStore) (hlive : token.revoked = false)
    (hpresented : store.Live token.predecessorHash) (hne : token.predecessorHash ≠ [])
    (hprevious : ∀ previous, store.predecessor token.predecessorHash = some previous →
      ¬ store.Live previous)
    (hothers : ∀ other, store.predecessor other = some token.predecessorHash →
      ¬ store.Live other) :
    store.Rotates (store.storeRefreshToken commits token).2 := by
  rcases storeRefreshToken_cases commits store token with h | ⟨-, hrows, -, hnew⟩
  · rw [h]
    exact Rotates.refl store
  · intro L hL
    have hk : token.tokenHash ∉ L.known := fun h => hnew ((hL.known _).mp h)
    have ha : token.predecessorHash ∈ L.live := (hL.live _).mpr hpresented
    refine ⟨_, .single (.mint ha hk ?_ ?_), ?_, ?_, ?_⟩
    · intro previous h
      rw [hL.live]
      exact hprevious previous (hL.parent ▸ h)
    · intro other h
      rw [hL.live]
      exact hothers other (hL.parent ▸ h)
    · intro tokenHash
      rw [known_append hrows, ← hL.known]
      exact Iff.rfl
    · intro tokenHash
      rw [live_append hrows hlive, ← hL.live]
      exact Iff.rfl
    · rw [predecessor_append hrows hnew, if_neg hne, ← hL.parent]
      rfl

/-! ### Access tokens -/

/-- The access tokens stay, and new ones were minted from `origin`. -/
structure AccessFrom (origin : Str) (store store' : TokenStore) : Prop where
  kept : ∀ {tokenHash}, store.accessTokenExists tokenHash = true →
    store'.accessTokenExists tokenHash = true
  minted : ∀ token ∈ store'.accessTokens, token.predecessorRefreshHash = origin ∨
    ∃ old ∈ store.accessTokens, old.tokenHash = token.tokenHash ∧
      old.predecessorRefreshHash = token.predecessorRefreshHash

lemma accessFrom_of_eq (h : store'.accessTokens = store.accessTokens) :
    AccessFrom origin store store' where
  kept := by
    intro tokenHash hexists
    rwa [accessTokenExists, h]
  minted := fun token htoken => .inr ⟨token, h ▸ htoken, rfl, rfl⟩

lemma AccessFrom.trans (h : AccessFrom origin store store')
    (h' : AccessFrom origin store' store'') : AccessFrom origin store store'' where
  kept := fun hexists => h'.kept (h.kept hexists)
  minted := by
    intro token htoken
    rcases h'.minted token htoken with heq | ⟨middle, hmiddle, hhash, horigin⟩
    · exact .inl heq
    · rcases h.minted middle hmiddle with heq | ⟨old, hold, hhash', horigin'⟩
      · exact .inl (horigin ▸ heq)
      · exact .inr ⟨old, hold, hhash'.trans hhash, horigin'.trans horigin⟩

lemma revokeAccessRows_tokenHash (committed : Bool) (targeted : PersistentAccessToken → Bool)
    (store : TokenStore) (tokenHash : Str) :
    (store.revokeAccessRows committed targeted).2.accessTokenExists tokenHash =
      store.accessTokenExists tokenHash := by
  cases committed with
  | false => rfl
  | true =>
    simp only [accessTokenExists, revokeAccessRows, Bool.not_true, Bool.false_eq_true, if_false,
      any_map]
    refine congrArg (List.any store.accessTokens) (funext fun token => ?_)
    simp only [Function.comp_apply]
    split <;> rfl

lemma accessFrom_revokeAccessRows (committed : Bool)
    (targeted : PersistentAccessToken → Bool) (store : TokenStore) :
    AccessFrom origin store (store.revokeAccessRows committed targeted).2 where
  kept := fun hexists => (revokeAccessRows_tokenHash committed targeted store _).trans hexists
  minted := by
    intro token htoken
    cases committed with
    | false => exact .inr ⟨token, htoken, rfl, rfl⟩
    | true =>
      obtain ⟨old, hold, rfl⟩ := mem_map.mp htoken
      refine .inr ⟨old, hold, ?_, ?_⟩ <;> split <;> rfl

lemma revokeRefreshRows_accessTokens (committed : Bool)
    (targeted : PersistentRefreshToken → Bool) (store : TokenStore) :
    (store.revokeRefreshRows committed targeted).2.accessTokens = store.accessTokens := by
  cases committed <;> rfl

lemma storeAccessToken_cases (store : TokenStore) (token : PersistentAccessToken) :
    store.storeAccessToken commits token = (false, store) ∨
      (store.storeAccessToken commits token).1 = true ∧
      (store.storeAccessToken commits token).2.accessTokens = store.accessTokens ++ [token] ∧
      store.accessTokenExists token.tokenHash = false := by
  unfold storeAccessToken
  split
  · exact .inl rfl
  split
  · exact .inl rfl
  rename_i hexists
  split
  · exact .inl rfl
  · exact .inr ⟨rfl, rfl, by simpa using hexists⟩

lemma accessFrom_storeAccessToken (store : TokenStore) (token : PersistentAccessToken) :
    AccessFrom token.predecessorRefreshHash store (store.storeAccessToken commits token).2 := by
  rcases storeAccessToken_cases commits store token with h | ⟨-, hrows, -⟩
  · rw [h]
    exact accessFrom_of_eq rfl
  · constructor
    · intro tokenHash hexists
      rw [accessTokenExists] at hexists ⊢
      rw [hrows, any_append, hexists, Bool.true_or]
    · intro row hrow
      rw [hrows, mem_append, mem_singleton] at hrow
      rcases hrow with hrow | rfl
      · exact .inr ⟨row, hrow, rfl, rfl⟩
      · exact .inl rfl

end TokenStore

end Merovingian
