import Merovingian.Database.KeyRetirement

/-!
# A secret and its public key

A row with a secret is a key this server signs with, and its public key is what the signatures are
verified against.  A write merges the public key, the secret and the expiry of a row by different
rules; `KeyPair.merge` says what comes of the three, in the table (`pair_conflict`) and in the
mirror (`pair_mergeWithSecret`).  So the table and the mirror of a store agree about them
(`Paired.agree`), and a secret stays with its public key as long as no secret is written to a
retired row: `secret_matches_public_key`.
-/

namespace Merovingian

open PersistentServerSigningKey Option List Function

/-- What of a row says whether its secret goes with its public key. -/
structure KeyPair where
  publicKey : Str
  secretKey : Str
  live : Bool
deriving DecidableEq, Repr

/-- What a write makes of a row. -/
def KeyPair.merge (written held : KeyPair) : KeyPair where
  publicKey := if held.live then written.publicKey else held.publicKey
  secretKey := if written.secretKey = [] then held.secretKey else written.secretKey
  live := held.live && written.live

/-- The pair in a row of the table. -/
def SigningKeyRow.pair (row : SigningKeyRow) : KeyPair :=
  ⟨row.publicKey, row.secretKey, row.expiredTs = []⟩

/-- The pair in a row of the mirror. -/
def PersistentServerSigningKey.pair (key : PersistentServerSigningKey) : KeyPair :=
  ⟨key.publicKey, key.secretKey, key.expiredTs = 0⟩

/-! ### One write -/

section Merge

variable {written held : PersistentServerSigningKey} {backend : SqlBackend}
  (key : PersistentServerSigningKey)

lemma pair_columns : key.columns.pair = key.pair := by
  simp [SigningKeyRow.pair, columns, pair, expiryText_eq_nil]

lemma pair_clamped : key.clamped.pair = key.pair := by
  rw [clamped]
  split_ifs <;> rfl

lemma earliestExpiry_eq_nil {held written expiry : Str}
    (h : earliestExpiry backend held written = some expiry) :
    expiry = [] ↔ held = [] ∧ written = [] := by
  rw [earliestExpiry] at h
  split_ifs at h with hwritten hheld
  · obtain rfl := some.inj h
    exact (and_iff_left hwritten).symm
  · obtain rfl := some.inj h
    exact (and_iff_right hheld).symm
  obtain ⟨a, -, h⟩ := bind_eq_some_iff.mp h
  obtain ⟨b, -, h⟩ := bind_eq_some_iff.mp h
  split_ifs at h <;> obtain rfl := some.inj h <;> tauto

lemma pair_conflict {written held updated : SigningKeyRow}
    (h : conflict backend written held = some updated) :
    updated.pair = written.pair.merge held.pair ∧ updated.slot = held.slot := by
  obtain ⟨validity, -, h⟩ := bind_eq_some_iff.mp h
  obtain ⟨expiry, hexpiry, h⟩ := bind_eq_some_iff.mp h
  obtain rfl := some.inj h
  refine ⟨?_, rfl⟩
  simp only [SigningKeyRow.pair, KeyPair.merge, earliestExpiry_eq_nil hexpiry, Bool.decide_and,
    decide_eq_true_eq]
  rfl

lemma pair_merge : (written.merge held).pair =
    { written.pair.merge held.pair with secretKey := held.secretKey } := by
  have hlive : (written.merge held).expiredTs = 0 ↔ held.expiredTs = 0 ∧ written.expiredTs = 0 := by
    rw [← expiry_eq_top, expiry_merge, min_eq_top, expiry_eq_top, expiry_eq_top]
  simp only [pair, KeyPair.merge, hlive]
  simp [PersistentServerSigningKey.merge]

lemma pair_mergeWithSecret : (written.mergeWithSecret held).pair =
      written.pair.merge held.pair := by
  have h : (written.mergeWithSecret held).pair = { (written.merge held).pair with
    secretKey := if written.secretKey = [] then held.secretKey else written.secretKey } := rfl
  rw [h, pair_merge]
  rfl

lemma pair_refresh {row : SigningKeyRow} (h : row.pair = held.pair) :
    (if held.secretKey = [] then row.publicColumns.merge held else held).pair = held.pair := by
  have hpublic : row.publicKey = held.publicKey := congrArg KeyPair.publicKey h
  split_ifs
  · rw [pair_merge]
    by_cases hlive : held.expiredTs = 0
    · have hnil : row.expiredTs = [] := by simpa [SigningKeyRow.pair,
        PersistentServerSigningKey.pair, hlive] using congrArg KeyPair.live h
      simp [KeyPair.merge, pair, SigningKeyRow.publicColumns,
        SigningKeyRow.key, hnil, hpublic, parseU64, parseU64From]
    · simp [KeyPair.merge, pair, hlive]
  · rfl

end Merge

namespace SigningKeySystem

variable {backend : SqlBackend} {system system' : SigningKeySystem Unit}
  {calls : List (SigningKeyCall Unit × Bool)} {call : SigningKeyCall Unit × Bool}
  {slot : Str × Str} {pair : KeyPair}

/-! ### The write that supplied a secret -/

/-- The pair that a call wrote for a server and a key id. -/
def pairWritten (slot : Str × Str) (call : SigningKeyCall Unit × Bool) : Option KeyPair :=
  (SigningKeyCall.written slot call).map PersistentServerSigningKey.pair

/-- What the last write with a secret supplied for a server and a key id. -/
def secretSupply (slot : Str × Str) (calls : List (SigningKeyCall Unit × Bool)) : Option KeyPair :=
  ((calls.filterMap (pairWritten slot)).filter fun pair => pair.secretKey ≠ []).getLast?

/-- The pair, if it has a secret, is not retired and was supplied by one write. -/
def Supplied (slot : Str × Str) (calls : List (SigningKeyCall Unit × Bool)) (pair : KeyPair) : Prop :=
  pair.secretKey ≠ [] → pair.live = true ∧ secretSupply slot calls = some pair

lemma secretSupply_append_none (h : pairWritten slot call = none) :
    secretSupply slot (calls ++ [call]) = secretSupply slot calls := by
  simp [secretSupply, h]

lemma Supplied.write {written : KeyPair} {held : Option KeyPair}
    (hheld : ∀ pair, held = some pair → Supplied slot calls pair) (hlive : written.secretKey ≠ [] →
      written.live = true ∧ ∀ pair, held = some pair → pair.live = true)
    (hguard : written.secretKey = [] → ∀ pair, held = some pair → pair.secretKey ≠ [] →
      pair.publicKey = written.publicKey ∧ written.live = true)
    (hcall : pairWritten slot call = some written) :
    Supplied slot (calls ++ [call]) (held.elim written written.merge) := by
  intro hne
  by_cases hsecret : written.secretKey = []
  · have hsupply : secretSupply slot (calls ++ [call]) = secretSupply slot calls := by
      simp [secretSupply, hcall, hsecret]
    rw [hsupply]
    cases held with
    | none => exact absurd hsecret hne
    | some pair =>
      have hpair : pair.secretKey ≠ [] := by simpa [KeyPair.merge, hsecret] using hne
      obtain ⟨hpublic, halive⟩ := hguard hsecret pair rfl hpair
      have hsame : written.merge pair = pair := by
        simp [KeyPair.merge, hsecret, ← hpublic, halive]
      rw [elim_some, hsame]
      exact hheld pair rfl hpair
  · obtain ⟨halive, hheldLive⟩ := hlive hsecret
    have hsame : held.elim written written.merge = written := by
      cases held with
      | none => rfl
      | some pair => simp [KeyPair.merge, hsecret, hheldLive pair rfl]
    rw [hsame]
    exact ⟨halive, by simp [secretSupply, hcall, hsecret]⟩

/-! ### Runs -/

/-- What holds of a store after the calls: table and mirror agree, and every secret goes with its
public key. -/
structure Paired (calls : List (SigningKeyCall Unit × Bool)) (system : SigningKeySystem Unit) :
    Prop where
  rows : (system.database.map SigningKeyRow.slot).Nodup
  keys : ((system.mirror ()).map PersistentServerSigningKey.slot).Nodup
  agree : ∀ slot, (system.rowOf slot).map SigningKeyRow.pair =
    (system.heldBy () slot).map PersistentServerSigningKey.pair
  supplied : ∀ slot pair, (system.heldBy () slot).map PersistentServerSigningKey.pair = some pair →
    Supplied slot calls pair

/-- A call that is no start of the process, and does not succeed in writing a secret to a retired
row. -/
def WritesToLive (system : SigningKeySystem Unit) : SigningKeyCall Unit × Bool → Prop
  | (.start _ _, _) => False
  | (.store _ key _, ok) => ok = true → key.secretKey ≠ [] → ∀ held,
      system.heldBy () key.slot = some held → held.expiredTs = 0
  | (.refresh _ _ _, _) => True

lemma nodup_foldl_refreshRow (rows : List SigningKeyRow) {mirror : List PersistentServerSigningKey}
    (h : (mirror.map PersistentServerSigningKey.slot).Nodup) :
    ((rows.foldl refreshRow mirror).map PersistentServerSigningKey.slot).Nodup := by
  refine foldlRecOn (motive := fun mirror =>
    (mirror.map slot).Nodup) rows refreshRow h fun mirror h row _ => ?_
  have hcreate : row.publicColumns.slot = row.slot := rfl
  refine nodup_upsertBy hcreate (fun held hheld => ?_) h
  split_ifs <;> exact hheld

/-- A refresh changes no pair. -/
lemma Paired.refresh (h : Paired calls system) {serverName : Str} {reads ok : Bool}
    (hstep : Step backend system (.refresh () serverName reads, ok) system') :
    Paired (calls ++ [(.refresh () serverName reads, ok)]) system' := by
  have hdatabase := database_refresh hstep
  have hpair : ∀ slot, (system'.heldBy () slot).map pair =
      (system.heldBy () slot).map pair := by
    intro slot
    cases reads with
    | false =>
      obtain ⟨-, rfl⟩ := Prod.mk.inj hstep
      simp [refreshRemoteSigningKeys]
    | true =>
      rw [heldBy_refresh h.rows hstep]
      cases hrow : (system.rowOf slot).filter fun row => row.serverName = serverName with
      | none => rfl
      | some row =>
        have hread := (filter_eq_some_iff.mp hrow).1
        have hagree := h.agree slot
        rw [hread] at hagree
        obtain ⟨held, hheld, hsame⟩ := map_eq_some_iff.mp hagree.symm
        rw [hheld]
        exact congrArg some (pair_refresh hsame.symm)
  refine ⟨hdatabase ▸ h.rows, ?_, fun slot => ?_, fun slot pair hheld => ?_⟩
  · obtain ⟨-, rfl⟩ := Prod.mk.inj hstep
    show ((Function.update system.mirror () _ ()).map slot).Nodup
    rw [refreshRemoteSigningKeys]
    split_ifs
    exacts [h.keys, nodup_foldl_refreshRow _ h.keys]
  · rw [hpair, ← h.agree, rowOf, hdatabase]
    rfl
  · intro hsecret
    rw [hpair] at hheld
    rw [secretSupply_append_none rfl]
    exact h.supplied slot pair hheld hsecret

/-- A write that is no secret for a retired row keeps the pairs. -/
lemma Paired.store (h : Paired calls system) {key : PersistentServerSigningKey} {commits ok : Bool}
    (hlive : WritesToLive system (.store () key commits, ok))
    (hstep : Step backend system (.store () key commits, ok) system') :
    Paired (calls ++ [(.store () key commits, ok)]) system' := by
  rcases store_cases hstep with ⟨rfl, rfl⟩ | ⟨rfl, hexpired, hguard, hupsert, hmirror⟩
  · refine { h with supplied := fun slot pair hheld hsecret => ?_ }
    rw [secretSupply_append_none rfl]
    exact h.supplied slot pair hheld hsecret
  rw [upsertServerSigningKey_eq, slot_columns, slot_clamped] at hupsert
  obtain ⟨updated, hupdated, hdatabase⟩ := map_eq_some_iff.mp hupsert
  have hcreate : key.clamped.columns.slot = key.slot := slot_clamped
  -- the row that the table gets
  have hstored : updated.slot = key.slot ∧
      ((system.rowOf key.slot).elim key.clamped.columns fun _ => updated).pair =
        ((system.rowOf key.slot).map SigningKeyRow.pair).elim key.pair key.pair.merge := by
    rw [← rowOf] at hupdated
    cases hrow : system.rowOf key.slot with
    | none =>
      rw [hrow] at hupdated
      obtain rfl := some.inj hupdated
      exact ⟨hcreate, (pair_columns _).trans (pair_clamped key)⟩
    | some row =>
      rw [hrow] at hupdated
      obtain ⟨hpair, hslot⟩ := pair_conflict hupdated
      rw [pair_columns, pair_clamped] at hpair
      exact ⟨hslot.trans (key_of_lookupBy hrow), hpair⟩
  obtain ⟨hslot, hstored⟩ := hstored
  have hheldBy : ∀ slot, (system'.heldBy () slot).map pair =
      if slot = key.slot then
        some (((system.heldBy () key.slot).map pair).elim key.pair
          key.pair.merge)
      else (system.heldBy () slot).map pair := by
    intro slot
    rw [heldBy, hmirror, update_self, lookupBy_write, ← heldBy]
    split_ifs
    · cases system.heldBy () key.slot with
      | none => exact congrArg some (pair_clamped key)
      | some held => exact congrArg some (pair_clamped key ▸ pair_mergeWithSecret)
    · rfl
  refine ⟨hdatabase ▸ nodup_upsertBy hcreate (fun _ _ => hslot) h.rows, ?_, fun slot => ?_,
    fun slot pair hheld => ?_⟩
  · rw [hmirror]
    have hkeep : ∀ held : PersistentServerSigningKey, held.slot = key.slot →
        (key.clamped.mergeWithSecret held).slot = key.slot := fun _ hheld => hheld
    exact nodup_upsertBy slot_clamped hkeep h.keys
  · rw [hheldBy, rowOf, ← hdatabase, lookupBy_upsertBy hcreate (fun _ _ => hslot), ← rowOf]
    split_ifs
    · rw [← h.agree, ← hstored, map_some]
    · exact h.agree slot
  · rw [hheldBy] at hheld
    split_ifs at hheld with hkey
    · obtain rfl := some.inj hheld
      subst hkey
      have hwritten : pairWritten key.slot (.store () key commits, true) = some key.pair := by
        simp [pairWritten, SigningKeyCall.written, pair_clamped]
      refine Supplied.write (h.supplied key.slot) (fun hne => ⟨?_, fun pair hpair => ?_⟩)
        (fun hnil pair hpair hne => ?_) hwritten
      · exact decide_eq_true (by_contra fun hzero => hne (hexpired hzero))
      · obtain ⟨held, hheld, rfl⟩ := map_eq_some_iff.mp hpair
        exact decide_eq_true (hlive rfl hne held hheld)
      · obtain ⟨held, hheld, rfl⟩ := map_eq_some_iff.mp hpair
        obtain ⟨hpublic, hzero⟩ := eq_of_not_refused (hguard hnil held hheld) hne
        rw [← pair_clamped key]
        exact ⟨hpublic, decide_eq_true hzero⟩
    · intro hsecret
      rw [secretSupply_append_none (by simp [pairWritten, SigningKeyCall.written, Ne.symm hkey])]
      exact h.supplied slot pair hheld hsecret

lemma Paired.run {start : SigningKeySystem Unit} {later : List (SigningKeyCall Unit × Bool)}
    (hrun : Run (fun system call system' => Step backend system call system' ∧
      WritesToLive system call) start later system) (h : Paired calls start) :
    Paired (calls ++ later) system := by
  induction hrun generalizing calls with
  | nil => rwa [append_nil]
  | @cons s t u call later hstep _ ih =>
    rw [← singleton_append, ← append_assoc]
    refine ih ?_
    obtain ⟨call, ok⟩ := call
    cases call with
    | start => exact absurd hstep.2 id
    | store process key commits => exact h.store hstep.2 hstep.1
    | refresh process serverName reads => exact h.refresh hstep.1

end SigningKeySystem

open SigningKeySystem

/-- In every run of writes and refreshes of a store in which no write of a secret to a retired row
succeeds, every row of the table and of the mirror that holds a secret is not retired, and its
public key is the one that came with the secret. -/
theorem secret_matches_public_key {backend : SqlBackend} {system : SigningKeySystem Unit}
    {calls : List (SigningKeyCall Unit × Bool)}
    (hrun : Run (fun system call system' => Step backend system call system' ∧
      WritesToLive system call) {} calls system) :
    (∀ key ∈ system.mirror (), key.secretKey ≠ [] →
      key.expiredTs = 0 ∧ secretSupply key.slot calls = some key.pair) ∧
    ∀ row ∈ system.database, row.secretKey ≠ [] →
      row.expiredTs = [] ∧ secretSupply row.slot calls = some row.pair := by
  have hempty : Paired [] ({} : SigningKeySystem Unit) :=
    ⟨nodup_nil, nodup_nil, fun _ => rfl,
      fun _ _ hpair => absurd hpair (by simp [heldBy])⟩
  have h := hempty.run hrun
  refine ⟨fun key hkey hsecret => ?_, fun row hrow hsecret => ?_⟩
  · have hheld : system.heldBy () key.slot = some key := lookupBy_of_mem h.keys hkey
    obtain ⟨hlive, hsupply⟩ := h.supplied key.slot key.pair (by rw [hheld, map_some]) hsecret
    exact ⟨of_decide_eq_true hlive, hsupply⟩
  · have hread : system.rowOf row.slot = some row := lookupBy_of_mem h.rows hrow
    have hpair := h.agree row.slot
    rw [hread] at hpair
    obtain ⟨hlive, hsupply⟩ := h.supplied row.slot row.pair hpair.symm hsecret
    exact ⟨of_decide_eq_true hlive, hsupply⟩

/-- A generated key, then the same key without its secret, then a refresh. -/
theorem secret_matches_public_key_rewritten :
    ∃ system, Run (fun system call system' => Step .sqlite system call system' ∧
        WritesToLive system call) {} [(.store () generatedKey true, true),
          (.store () { generatedKey with secretKey := [] } true, true),
          (.refresh () "s" true, true)] system ∧
      system.mirror () = [generatedKey] ∧
      secretSupply ("s", "k") [(.store () generatedKey true, true),
          (.store () { generatedKey with secretKey := [] } true, true),
          (.refresh () "s" true, true)] = some generatedKey.pair := by
  have hrun : Run (fun system call system' => Step .sqlite system call system' ∧
      WritesToLive system call) {} [(.store () generatedKey true, true),
        (.store () { generatedKey with secretKey := [] } true, true),
        (.refresh () "s" true, true)] _ :=
    .cons ⟨Prod.ext (by decide) rfl, fun _ _ _ h => absurd h (by simp [heldBy])⟩
      (.cons ⟨Prod.ext (by decide) rfl, fun _ h => absurd rfl h⟩
        (.cons ⟨Prod.ext (by decide) rfl, trivial⟩ (.nil _)))
  have hmirror := secret_matches_public_key hrun
  refine ⟨_, hrun, by decide, ?_⟩
  exact (hmirror.1 generatedKey (by decide) (by decide)).2

/-- A secret is written to a key that was retired: the row takes the secret, and keeps its expiry
and its own public key. -/
theorem secret_on_retired_row :
    ∃ system, Run (Step .sqlite) {} [(.store () (expiredKey 5) true, true),
        (.store () { generatedKey with publicKey := "q" } true, true)] system ∧
      system.mirror () = [{ (expiredKey 5).clamped with secretKey := "x" }] ∧
      system.database = [{ (expiredKey 5).clamped.columns with secretKey := "x" }] ∧
      secretSupply ("s", "k") [(.store () (expiredKey 5) true, true),
        (.store () { generatedKey with publicKey := "q" } true, true)] = some ⟨"q", "x", true⟩ :=
  ⟨_, .cons (Prod.ext (by decide) rfl) (.cons (Prod.ext (by decide) rfl) (.nil _)), by decide,
    by decide, by decide⟩

end Merovingian
