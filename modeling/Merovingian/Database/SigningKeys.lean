import Merovingian.Lib.Bytes
import Merovingian.Lib.Keyed

/-!
# Signing keys

The model of `store_server_signing_key` and `refresh_remote_signing_keys` of
`database/PersistentStore.cpp`, and of `cache_remote_server_keys` of
`federation/remote_key_cache.cpp`.

A write goes to the table `server_signing_keys` as an upsert whose CASE expressions decide what a
conflicting row becomes, and then to the mirror in memory, where the same rule is written in C++.
The two forms of the rule agree on expiries that `CAST` represents (`conflict_columns`): SQLite's
cast of a text to an integer stops at the greatest 64-bit integer, PostgreSQL's fails there.
-/

namespace Merovingian

structure PersistentServerSigningKey where
  serverName : Str
  keyId : Str
  publicKey : Str
  validUntilTs : UInt64
  secretKey : Str := []
  expiredTs : UInt64 := 0
deriving DecidableEq, Repr

/-- A row of the table `server_signing_keys`. -/
structure SigningKeyRow where
  serverName : Str
  keyId : Str
  publicKey : Str
  validUntilTs : Str
  secretKey : Str
  expiredTs : Str
deriving DecidableEq, Repr

/-- What identifies a key. -/
def PersistentServerSigningKey.slot (key : PersistentServerSigningKey) : Str × Str :=
  (key.serverName, key.keyId)

/-- The primary key of the table. -/
def SigningKeyRow.slot (row : SigningKeyRow) : Str × Str := (row.serverName, row.keyId)

/-! ### Times as texts -/

/-- `std::to_string`. -/
def timeText (time : UInt64) : Str := decimalNat time.toNat

/-- An expiry as a text: empty for a key that is not retired. -/
def expiryText (expired : UInt64) : Str := if expired = 0 then [] else timeText expired

/-- The loop of `parse_u64`. -/
def parseU64From (result : UInt64) : Str → UInt64
  | [] => result
  | character :: value =>
    if character < 48 ∨ 57 < character then 0
    else parseU64From (result * 10 + (character - 48).toUInt64) value

def parseU64 (value : Str) : UInt64 := parseU64From 0 value

/-- The parameters of the upsert. -/
def PersistentServerSigningKey.columns (key : PersistentServerSigningKey) : SigningKeyRow where
  serverName := key.serverName
  keyId := key.keyId
  publicKey := key.publicKey
  validUntilTs := timeText key.validUntilTs
  secretKey := key.secretKey
  expiredTs := expiryText key.expiredTs

/-- A row as the start-up load reads it. -/
def SigningKeyRow.key (row : SigningKeyRow) : PersistentServerSigningKey where
  serverName := row.serverName
  keyId := row.keyId
  publicKey := row.publicKey
  validUntilTs := parseU64 row.validUntilTs
  secretKey := row.secretKey
  expiredTs := parseU64 row.expiredTs

/-- A row as it is read without the column `secret_key`. -/
def SigningKeyRow.publicColumns (row : SigningKeyRow) : PersistentServerSigningKey :=
  { row.key with secretKey := [] }

/-! ### The upsert -/

/-- The backends that run SQL. -/
inductive SqlBackend
  | sqlite
  | postgresql
deriving DecidableEq, Repr

/-- `CAST(text AS BIGINT)` for a text of digits, or none where the statement fails. -/
def castBigint : SqlBackend → Str → Option ℕ
  | .sqlite, text => some (min (digitsValue text) (2 ^ 63 - 1))
  | .postgresql, text => if digitsValue text < 2 ^ 63 then some (digitsValue text) else none

/-- The CASE expression for the expiry, where `$6` is `written`. -/
def earliestExpiry (backend : SqlBackend) (held written : Str) : Option Str :=
  if written = [] then some held
  else if held = [] then some written
  else do
    if (← castBigint backend written) < (← castBigint backend held) then pure written
    else pure held

/-- The CASE expression for the validity, where `$4` is `validUntil` and `$6` is `written`. -/
def earliestValidity (backend : SqlBackend) (held validUntil written : Str) : Option Str :=
  if written = [] ∧ held = [] then some validUntil
  else if written = [] then some held
  else if held = [] then some written
  else do
    if (← castBigint backend written) < (← castBigint backend held) then pure written
    else pure held

/-- What `ON CONFLICT DO UPDATE` makes of a row. -/
def conflict (backend : SqlBackend) (written held : SigningKeyRow) : Option SigningKeyRow := do
  let validUntilTs ← earliestValidity backend held.expiredTs written.validUntilTs written.expiredTs
  let expiredTs ← earliestExpiry backend held.expiredTs written.expiredTs
  pure
    { held with
      publicKey := if held.expiredTs = [] then written.publicKey else held.publicKey
      validUntilTs := validUntilTs
      expiredTs := expiredTs
      secretKey := if written.secretKey = [] then held.secretKey else written.secretKey }

/-- The statement `upsert_server_signing_key`. -/
def upsertServerSigningKey (backend : SqlBackend) (written : SigningKeyRow)
    (database : List SigningKeyRow) : Option (List SigningKeyRow) :=
  match lookupBy SigningKeyRow.slot database written.slot with
  | none => some (database ++ [written])
  | some held => (conflict backend written held).map fun updated =>
      upsertBy SigningKeyRow.slot written.slot written (fun _ => updated) database

/-! ### The mirror -/

namespace PersistentServerSigningKey

/-- What a write makes of a row of the mirror, but for the secret. -/
def merge (written held : PersistentServerSigningKey) : PersistentServerSigningKey :=
  let expiredTs :=
    if written.expiredTs ≠ 0 then
      if held.expiredTs = 0 then written.expiredTs else min held.expiredTs written.expiredTs
    else held.expiredTs
  { held with
    publicKey := if held.expiredTs = 0 then written.publicKey else held.publicKey
    expiredTs := expiredTs
    validUntilTs := if expiredTs ≠ 0 then expiredTs else written.validUntilTs }

/-- What a write makes of a row of the mirror. -/
def mergeWithSecret (written held : PersistentServerSigningKey) : PersistentServerSigningKey :=
  { written.merge held with
    secretKey := if written.secretKey = [] then held.secretKey else written.secretKey }

/-- A key without a secret may not replace a generated public key, nor retire it. -/
def refusedBy (key : PersistentServerSigningKey) (held : PersistentServerSigningKey) : Bool :=
  held.secretKey ≠ [] && (held.publicKey ≠ key.publicKey || key.expiredTs ≠ 0)

/-- A retired row is valid until it expired and no longer. -/
def clamped (key : PersistentServerSigningKey) : PersistentServerSigningKey :=
  if key.expiredTs ≠ 0 then { key with validUntilTs := key.expiredTs } else key

end PersistentServerSigningKey

open PersistentServerSigningKey

/-- What a call left: what it returned, the table and the mirror. -/
structure SigningKeyWrite where
  ok : Bool
  database : List SigningKeyRow
  mirror : List PersistentServerSigningKey

/-- `store_server_signing_key`; `commits` says whether the backend commits. -/
def storeServerSigningKey (backend : SqlBackend) (commits : Bool) (key : PersistentServerSigningKey)
    (database : List SigningKeyRow) (mirror : List PersistentServerSigningKey) : SigningKeyWrite :=
  if key.serverName = [] ∨ key.keyId = [] ∨ key.publicKey = [] ∨ key.validUntilTs = 0 then
    ⟨false, database, mirror⟩
  else if key.expiredTs ≠ 0 ∧ key.secretKey ≠ [] then ⟨false, database, mirror⟩
  else if key.secretKey = [] ∧ (lookupBy slot mirror key.slot).any key.clamped.refusedBy then
    ⟨false, database, mirror⟩
  else if !commits then ⟨false, database, mirror⟩
  else
    match upsertServerSigningKey backend key.clamped.columns database with
    | none => ⟨false, database, mirror⟩
    | some database =>
      ⟨true, database, upsertBy slot key.slot key.clamped key.clamped.mergeWithSecret mirror⟩

/-- A row that `refresh_remote_signing_keys` has read.  A row that holds a secret is this server's
own and stays as it is. -/
def refreshRow (mirror : List PersistentServerSigningKey) (row : SigningKeyRow) :
    List PersistentServerSigningKey :=
  upsertBy slot row.slot row.publicColumns
    (fun held => if held.secretKey = [] then row.publicColumns.merge held else held) mirror

/-- `refresh_remote_signing_keys`; `reads` says whether the backend answers. -/
def refreshRemoteSigningKeys (reads : Bool) (serverName : Str) (database : List SigningKeyRow)
    (mirror : List PersistentServerSigningKey) : SigningKeyWrite :=
  if !reads then ⟨false, database, mirror⟩
  else
    ⟨true, database,
      (database.filter fun row => row.serverName = serverName).foldl refreshRow mirror⟩

/-! ### The keys of a response -/

/-- `RemoteOldVerifyKey`, and with no expiry `RemoteVerifyKey`. -/
structure RemoteVerifyKey where
  keyId : Str
  publicKeyBase64 : Str
  expiredTs : UInt64 := 0
deriving DecidableEq, Repr

structure RemoteKeyResponse where
  serverName : Str
  validUntilTs : UInt64
  verifyKeys : List RemoteVerifyKey
  oldVerifyKeys : List RemoteVerifyKey
deriving DecidableEq, Repr

/-- `max_key_trust_ms`: seven days. -/
def maxKeyTrustMs : UInt64 := 7 * 24 * 60 * 60 * 1000

def trustedUntil (validUntilTs fetchedAtMs : UInt64) : UInt64 :=
  min validUntilTs (fetchedAtMs + maxKeyTrustMs)

/-- The writes of `cache_remote_server_keys`. -/
def remoteKeyWrites (response : RemoteKeyResponse) (fetchedAtMs : UInt64) :
    List PersistentServerSigningKey :=
  if response.serverName = [] ∨ response.validUntilTs = 0 then []
  else
    response.verifyKeys.map (fun key =>
      { serverName := response.serverName
        keyId := key.keyId
        publicKey := key.publicKeyBase64
        validUntilTs := trustedUntil response.validUntilTs fetchedAtMs }) ++
    (response.oldVerifyKeys.filter fun key => min key.expiredTs fetchedAtMs ≠ 0).map fun key =>
      { serverName := response.serverName
        keyId := key.keyId
        publicKey := key.publicKeyBase64
        validUntilTs := min key.expiredTs fetchedAtMs
        expiredTs := min key.expiredTs fetchedAtMs }

/-- A turn of the loops of `cache_remote_server_keys`, with the outcome of its commit. -/
def cacheStep (backend : SqlBackend) (commits : ℕ → Bool) (state : SigningKeyWrite)
    (write : PersistentServerSigningKey × ℕ) : SigningKeyWrite :=
  let next := storeServerSigningKey backend (commits write.2) write.1 state.database state.mirror
  { next with ok := state.ok && next.ok }

def cacheRemoteServerKeys (backend : SqlBackend) (response : RemoteKeyResponse)
    (fetchedAtMs : UInt64) (commits : ℕ → Bool) (database : List SigningKeyRow)
    (mirror : List PersistentServerSigningKey) : SigningKeyWrite :=
  let refused : Bool := response.serverName = [] ∨ response.validUntilTs = 0
  (remoteKeyWrites response fetchedAtMs).zipIdx.foldl (cacheStep backend commits)
    ⟨!refused, database, mirror⟩

/-! ### Reading a text back -/

lemma parseU64From_digits {digits : Str} (h : ∀ b ∈ digits, isDigitByte b = true) (value : ℕ) :
    parseU64From (UInt64.ofNat value) digits = UInt64.ofNat
      (digits.foldl (fun value digit => value * 10 + (digit - 48).toNat) value) := by
  induction digits generalizing value with
  | nil => rfl
  | cons digit digits ih =>
    have hdigit := h digit List.mem_cons_self
    simp only [isDigitByte, Bool.and_eq_true, decide_eq_true_eq] at hdigit
    have hrange : ¬ (digit < 48 ∨ 57 < digit) := by
      rw [not_or, UInt8.not_lt, UInt8.not_lt]
      exact hdigit
    have hstep : UInt64.ofNat value * 10 + (digit - 48).toUInt64 =
        UInt64.ofNat (value * 10 + (digit - 48).toNat) := by
      rw [UInt64.ofNat_add, UInt64.ofNat_mul]
      congr 1
      exact (UInt64.ofNat_uInt8ToNat _).symm
    rw [parseU64From, if_neg hrange, hstep]
    exact ih (fun b hb => h b (List.mem_cons_of_mem _ hb)) _

lemma parseU64_timeText (time : UInt64) : parseU64 (timeText time) = time := by
  have h := parseU64From_digits (fun b hb => isDigitByte_of_mem_decimalNat (n := time.toNat) hb) 0
  have hvalue : (decimalNat time.toNat).foldl
      (fun value digit => value * 10 + (digit - 48).toNat) 0 = time.toNat :=
    digitsValue_decimalNat time.toNat
  rw [hvalue, UInt64.ofNat_toNat] at h
  exact h

lemma parseU64_expiryText (time : UInt64) : parseU64 (expiryText time) = time := by
  rw [expiryText]
  split_ifs with h
  · rw [h]
    rfl
  · exact parseU64_timeText time

variable (key : PersistentServerSigningKey)

@[simp] lemma key_columns : key.columns.key = key := by
  cases key
  simp [columns, SigningKeyRow.key, parseU64_timeText, parseU64_expiryText]

@[simp] lemma slot_columns : key.columns.slot = key.slot := rfl

variable {time : UInt64}

lemma expiryText_eq_nil : expiryText time = [] ↔ time = 0 := by
  rw [expiryText]
  split_ifs with h
  · exact ⟨fun _ => h, fun _ => rfl⟩
  · exact ⟨fun hnil => absurd hnil (decimalNat_ne_nil _), fun hzero => absurd hzero h⟩

lemma expiryText_of_ne (h : time ≠ 0) : expiryText time = timeText time := by
  rw [expiryText, if_neg h]

/-! ### The two forms of the rule agree -/

lemma castBigint_timeText (backend : SqlBackend) (h : time.toNat < 2 ^ 63) :
    castBigint backend (timeText time) = some time.toNat := by
  have hvalue : digitsValue (timeText time) = time.toNat := digitsValue_decimalNat _
  cases backend with
  | sqlite =>
    have hle : time.toNat ≤ 2 ^ 63 - 1 := Nat.le_pred_of_lt h
    rw [castBigint, hvalue, min_eq_left hle]
  | postgresql => rw [castBigint, hvalue, if_pos h]

/-- The expiry that the mirror stores. -/
def earlier (written held : UInt64) : UInt64 :=
  if written ≠ 0 then if held = 0 then written else min held written else held

lemma min_eq_ite (held written : UInt64) :
    min held written = if written.toNat < held.toNat then written else held := by
  show (if held ≤ written then held else written) = _
  split_ifs with hle hlt hlt
  · exact absurd hlt (Nat.not_lt.mpr (UInt64.le_iff_toNat_le.mp hle))
  · rfl
  · rfl
  · exact absurd (UInt64.le_iff_toNat_le.mpr (Nat.not_lt.mp hlt)) hle

section Agreement

variable (backend : SqlBackend) {written held : PersistentServerSigningKey}
  (hwritten : written.expiredTs.toNat < 2 ^ 63) (hheld : held.expiredTs.toNat < 2 ^ 63)

include hwritten hheld

lemma earliestExpiry_expiryText :
    earliestExpiry backend (expiryText held.expiredTs) (expiryText written.expiredTs) =
      some (expiryText (earlier written.expiredTs held.expiredTs)) := by
  simp only [earliestExpiry, earlier, expiryText_eq_nil]
  by_cases hw : written.expiredTs = 0
  · simp [hw]
  by_cases hh : held.expiredTs = 0
  · simp [hw, hh]
  rw [if_neg hw, if_neg hh, if_pos hw, if_neg hh, expiryText_of_ne hw, expiryText_of_ne hh,
    castBigint_timeText backend hwritten, castBigint_timeText backend hheld, min_eq_ite]
  by_cases hlt : written.expiredTs.toNat < held.expiredTs.toNat
  · simp [hlt, expiryText_of_ne hw]
  · simp [hlt, expiryText_of_ne hh]

lemma earliestValidity_expiryText :
    earliestValidity backend (expiryText held.expiredTs) (timeText written.validUntilTs)
        (expiryText written.expiredTs) =
      some (timeText (if earlier written.expiredTs held.expiredTs ≠ 0 then
        earlier written.expiredTs held.expiredTs else written.validUntilTs)) := by
  have hexpiry := earliestExpiry_expiryText backend hwritten hheld
  by_cases hneither : written.expiredTs = 0 ∧ held.expiredTs = 0
  · simp [earliestValidity, earlier, expiryText_eq_nil, hneither.1, hneither.2]
  · -- otherwise the expression is the one for the expiry
    have hne : earlier written.expiredTs held.expiredTs ≠ 0 := by
      rw [earlier]
      split_ifs with hw hh
      · exact hw
      · rw [min_eq_ite]
        split_ifs
        exacts [hw, hh]
      · exact fun hh => hneither ⟨not_not.mp hw, hh⟩
    rw [expiryText_of_ne hne] at hexpiry
    rw [earliestValidity, if_neg (by simpa [expiryText_eq_nil] using hneither), if_pos hne]
    exact hexpiry

/-- What the CASE expressions store is what the mirror stores. -/
theorem conflict_columns :
    conflict backend written.columns held.columns = some (written.mergeWithSecret held).columns := by
  have hvalidity := earliestValidity_expiryText backend hwritten hheld
  have hexpiry := earliestExpiry_expiryText backend hwritten hheld
  simp only [conflict, columns, hvalidity, hexpiry, mergeWithSecret, merge, expiryText_eq_nil]
  rfl

end Agreement

end Merovingian
