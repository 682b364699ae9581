import Merovingian.Lib.Bytes

/-!
# Bearer tokens and their hashes

The model of `auth/token.cpp`, of the token helpers of `homeserver/auth_service.cpp` and of
`auth::device_id_is_valid`.  A token is stored as a hash whose text names its version.  New hashes
are keyed with the v4 key; the v3 key and the v2 hash, which has none, only serve to look tokens
up.  libsodium's hash functions are parameters that may fail.
-/

namespace Merovingian

/-- The hash functions, as hexadecimal text. -/
structure TokenCrypto where
  hashBytesToHex : Str → Option Str
  keyedHashToHex : (key token : Str) → Option Str

/-- `crypto::TokenHmacKeys`, as read from the master key file. -/
structure TokenHmacKeys where
  v3 : Option Str
  v4 : Option Str
deriving DecidableEq, Repr

def tokenHashIsV2 (tokenHash : Str) : Bool := (lit "token-hash:v2:").isPrefixOf tokenHash

def tokenHashIsV3 (tokenHash : Str) : Bool := (lit "token-hash:v3:").isPrefixOf tokenHash

def tokenHashIsV4 (tokenHash : Str) : Bool := (lit "token-hash:v4:").isPrefixOf tokenHash

/-- `token_is_hash` of the persistent store. -/
def tokenIsHash (tokenHash : Str) : Bool :=
  tokenHashIsV2 tokenHash || tokenHashIsV3 tokenHash || tokenHashIsV4 tokenHash

lemma ne_nil_of_tokenIsHash {tokenHash : Str} (h : tokenIsHash tokenHash = true) :
    tokenHash ≠ [] := by
  rintro rfl
  exact absurd h (by decide)

section

variable (crypto : TokenCrypto)

def hashAccessTokenV2 (token : Str) : Option Str :=
  if token = [] then none
  else (crypto.hashBytesToHex token).map fun digest => lit "token-hash:v2:" ++ digest

def hashAccessTokenV3 (token key : Str) : Option Str :=
  if token = [] then none
  else (crypto.keyedHashToHex key token).map fun digest => lit "token-hash:v3:" ++ digest

def hashAccessTokenV4 (token key : Str) : Option Str :=
  if token = [] then none
  else (crypto.keyedHashToHex key token).map fun digest => lit "token-hash:v4:" ++ digest

/-- Issuance is v4-only. -/
def issueTokenHash (keys : TokenHmacKeys) (token : Str) : Option Str :=
  keys.v4.bind (hashAccessTokenV4 crypto token)

/-- The hashes a token may be stored under.  The keys are read once for each version. -/
def lookupTokenHashes (keysV4 keysV3 : TokenHmacKeys) (token : Str) : List Str :=
  (keysV4.v4.bind (hashAccessTokenV4 crypto token)).toList ++
    (keysV3.v3.bind (hashAccessTokenV3 crypto token)).toList ++
    (hashAccessTokenV2 crypto token).toList

end

def tokenHashMatches (left right : Str) : Bool :=
  let sameVersion := (tokenHashIsV2 left && tokenHashIsV2 right) ||
    (tokenHashIsV3 left && tokenHashIsV3 right) || (tokenHashIsV4 left && tokenHashIsV4 right)
  sameVersion && left.length == right.length && left == right

def matchesAnyTokenHash (storedHash : Str) (tokenHashes : List Str) : Bool :=
  tokenHashes.any fun candidate => tokenHashMatches storedHash candidate

/-! ### Expiry -/

/-- A missing expiry is no expiry. -/
def isExpired (expiresAt : Option ℤ) (now : ℤ) : Bool :=
  match expiresAt with
  | none => false
  | some expiry => expiry ≤ now

/-- The expiry of a token issued at `now`; a lifetime that is not positive is none. -/
def tokenExpiresAt (lifetimeMs now : ℤ) : Option ℤ :=
  if lifetimeMs ≤ 0 then none else some (now + lifetimeMs)

/-! ### Devices -/

def isPrintableAsciiWithoutSpace (value : UInt8) : Bool := 0x20 < value && value < 0x7F

/-- `:`, `/`, `?` and `#` have a meaning of their own where a device id is put. -/
def deviceIdIsValid (deviceId : Str) : Bool :=
  let isReserved (value : UInt8) := value == 58 || value == 47 || value == 63 || value == 35
  !deviceId.isEmpty && decide (deviceId.length ≤ 255) &&
    deviceId.all fun value => isPrintableAsciiWithoutSpace value && !isReserved value

end Merovingian
