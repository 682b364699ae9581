import Merovingian.Lib.Bytes

/-!
# Cryptographic primitives

What the event code takes from libsodium, as a parameter of the model, and the wrappers of
`crypto/ed25519.cpp` and `events/event_signer.cpp` around it.
-/

namespace Merovingian

/-- The libsodium calls, as functions of their input. -/
structure Sodium where
  /-- `sodium_init() >= 0`. -/
  ready : Bool
  /-- `crypto_hash_sha256`; `none` when the call fails. -/
  sha256 : Str → Option Str
  /-- `sodium_bin2base64` without padding, URL-safe or not. -/
  bin2base64 : Bool → Str → Str
  /-- `sodium_base642bin` of the original alphabet without padding; `none` when it fails. -/
  base642bin : Str → Option Str
  /-- `crypto_sign_verify_detached` of signature, message and public key. -/
  verifyDetached : Str → Str → Str → Bool

def containsNoControlOrSpace (value : Str) : Bool :=
  value.all fun byte => !(byte ≤ 0x20 || byte = 0x7F)

def isPrintableWithoutSpace (byte : UInt8) : Bool := 0x20 < byte && byte < 0x7F

def ed25519PublicKeyShapeIsValid (publicKey : Str) : Bool := publicKey.length = 32

def ed25519SignatureShapeIsValid (signature : Str) : Bool := signature.length = 64

def ed25519KeyIdIsValid (keyId : Str) : Bool :=
  let algorithm := lit "ed25519:"
  algorithm.length < keyId.length && keyId.length ≤ 255 && algorithm.isPrefixOf keyId &&
    (keyId.drop algorithm.length).all isPrintableWithoutSpace

/-- `ed25519_verify`, its `valid` flag. -/
def ed25519Verify (sodium : Sodium) (publicKey message signature : Str) : Bool :=
  if !ed25519PublicKeyShapeIsValid publicKey || !ed25519SignatureShapeIsValid signature then false
  else sodium.verifyDetached signature message publicKey

/-- `matrix_bytes_from_base64`: nothing on a failure. -/
def matrixBytesFromBase64 (sodium : Sodium) (encoded : Str) : Str :=
  if encoded.isEmpty || !sodium.ready then []
  else (sodium.base642bin encoded).getD []

/-- `sha256_base64` of `events/event_id.cpp`. -/
def sha256Base64 (sodium : Sodium) (input : Str) (urlSafe : Bool) : Except Str Str :=
  if !sodium.ready then .error "libsodium initialization failed"
  else match sodium.sha256 input with
    | none => .error "sha256 failed"
    | some digest => .ok (sodium.bin2base64 urlSafe digest)

def signatureIsValidShape (sodium : Sodium) (signature : Str) : Bool :=
  let decoded := matrixBytesFromBase64 sodium signature
  !signature.isEmpty && signature.length ≤ 4096 && containsNoControlOrSpace signature &&
    ed25519SignatureShapeIsValid decoded

end Merovingian
