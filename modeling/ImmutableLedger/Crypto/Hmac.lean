import ImmutableLedger.Crypto.Fips180

/-! HMAC with SHA-256, and the text that it is sent as. -/

set_option autoImplicit false

namespace ImmutableLedger

open Encoding

/-- A key fills a block of the hash. One that is longer than a block is hashed first. -/
def keyBlock [Sha256] (key : Bytes) : Bytes :=
  let short := if 64 < key.length then (Sha256.digest key).toList else key
  short ++ List.replicate (64 - short.length) 0

def hmacSha256 [Sha256] (key message : Bytes) : Bytes :=
  let inner := (Sha256.digest ((keyBlock key).map (· ^^^ 0x36) ++ message)).toList
  (Sha256.digest ((keyBlock key).map (· ^^^ 0x5c) ++ inner)).toList

example : letI := Fips180.sha256
    hexEncode (hmacSha256 (asBytes "Jefe") (asBytes "what do ya want for nothing?")) =
      "5bdcc146bf60754e6a042426089575c75a003f089d2739839dec58b964ec3843".toList := by
  decide +kernel

def base64Symbols : List Char :=
  "ABCDEFGHIJKLMNOPQRSTUVWXYZabcdefghijklmnopqrstuvwxyz0123456789+/".toList

def base64Symbol (sextet : Nat) : Char := base64Symbols.getD sextet '='

/-- `base64.b64encode` -/
def base64Encode : Bytes → List Char
  | [] => []
  | [b0] =>
    let bits := b0.toNat * 16
    [base64Symbol (bits / 64), base64Symbol (bits % 64), '=', '=']
  | [b0, b1] =>
    let bits := (b0.toNat * 256 + b1.toNat) * 4
    [base64Symbol (bits / 4096), base64Symbol (bits / 64 % 64), base64Symbol (bits % 64), '=']
  | b0 :: b1 :: b2 :: rest =>
    let bits := (b0.toNat * 256 + b1.toNat) * 256 + b2.toNat
    base64Symbol (bits / 262144) :: base64Symbol (bits / 4096 % 64) ::
      base64Symbol (bits / 64 % 64) :: base64Symbol (bits % 64) :: base64Encode rest

example : base64Encode (asBytes "ledger") = "bGVkZ2Vy".toList := by decide +kernel

example : base64Encode (asBytes "tip") ++ base64Encode (asBytes "ti") ++ base64Encode (asBytes "t") =
    "dGlwdGk=dA==".toList := by
  decide +kernel

end ImmutableLedger
