import ImmutableLedger.Crypto.Envelope

/-! SHA-256 itself, for runs on concrete entries. -/

set_option autoImplicit false

namespace ImmutableLedger.Fips180

def roundConstants : List UInt32 :=
  [0x428a2f98, 0x71374491, 0xb5c0fbcf, 0xe9b5dba5, 0x3956c25b, 0x59f111f1, 0x923f82a4, 0xab1c5ed5,
   0xd807aa98, 0x12835b01, 0x243185be, 0x550c7dc3, 0x72be5d74, 0x80deb1fe, 0x9bdc06a7, 0xc19bf174,
   0xe49b69c1, 0xefbe4786, 0x0fc19dc6, 0x240ca1cc, 0x2de92c6f, 0x4a7484aa, 0x5cb0a9dc, 0x76f988da,
   0x983e5152, 0xa831c66d, 0xb00327c8, 0xbf597fc7, 0xc6e00bf3, 0xd5a79147, 0x06ca6351, 0x14292967,
   0x27b70a85, 0x2e1b2138, 0x4d2c6dfc, 0x53380d13, 0x650a7354, 0x766a0abb, 0x81c2c92e, 0x92722c85,
   0xa2bfe8a1, 0xa81a664b, 0xc24b8b70, 0xc76c51a3, 0xd192e819, 0xd6990624, 0xf40e3585, 0x106aa070,
   0x19a4c116, 0x1e376c08, 0x2748774c, 0x34b0bcb5, 0x391c0cb3, 0x4ed8aa4a, 0x5b9cca4f, 0x682e6ff3,
   0x748f82ee, 0x78a5636f, 0x84c87814, 0x8cc70208, 0x90befffa, 0xa4506ceb, 0xbef9a3f7, 0xc67178f2]

/-- The eight working variables. -/
structure Working where
  a : UInt32
  b : UInt32
  c : UInt32
  d : UInt32
  e : UInt32
  f : UInt32
  g : UInt32
  h : UInt32

def initialHash : Working :=
  ⟨0x6a09e667, 0xbb67ae85, 0x3c6ef372, 0xa54ff53a, 0x510e527f, 0x9b05688c, 0x1f83d9ab, 0x5be0cd19⟩

def Working.add (first second : Working) : Working :=
  ⟨first.a + second.a, first.b + second.b, first.c + second.c, first.d + second.d,
   first.e + second.e, first.f + second.f, first.g + second.g, first.h + second.h⟩

def rotateRight (word places : UInt32) : UInt32 := (word >>> places) ||| (word <<< (32 - places))

def round (work : Working) (constant message : UInt32) : Working :=
  let sum1 := rotateRight work.e 6 ^^^ rotateRight work.e 11 ^^^ rotateRight work.e 25
  let choice := (work.e &&& work.f) ^^^ (~~~work.e &&& work.g)
  let first := work.h + sum1 + choice + constant + message
  let sum0 := rotateRight work.a 2 ^^^ rotateRight work.a 13 ^^^ rotateRight work.a 22
  let majority := (work.a &&& work.b) ^^^ (work.a &&& work.c) ^^^ (work.b &&& work.c)
  ⟨first + (sum0 + majority), work.a, work.b, work.c, work.d + first, work.e, work.f, work.g⟩

/-- The rounds of a block. The message schedule is a window of its next sixteen words. -/
def rounds : List UInt32 → List UInt32 → Working → Working
  | constant :: constants, message :: window, work =>
    let sigma0 := rotateRight (window.getD 0 0) 7 ^^^ rotateRight (window.getD 0 0) 18 ^^^
      (window.getD 0 0 >>> 3)
    let sigma1 := rotateRight (window.getD 13 0) 17 ^^^ rotateRight (window.getD 13 0) 19 ^^^
      (window.getD 13 0 >>> 10)
    rounds constants (window ++ [message + sigma0 + window.getD 8 0 + sigma1])
      (round work constant message)
  | _, _, work => work

def words : Bytes → List UInt32
  | b0 :: b1 :: b2 :: b3 :: rest =>
    ((b0.toUInt32 <<< 24) ||| (b1.toUInt32 <<< 16) ||| (b2.toUInt32 <<< 8) ||| b3.toUInt32) ::
      words rest
  | _ => []

def blocks : Nat → List UInt32 → Working → Working
  | 0, _, work => work
  | count + 1, message, work =>
    blocks count (message.drop 16) (work.add (rounds roundConstants (message.take 16) work))

def pad (message : Bytes) : Bytes :=
  message ++ 0x80 :: List.replicate ((119 - message.length % 64) % 64) 0 ++
    [7, 6, 5, 4, 3, 2, 1, 0].map fun i => UInt8.ofNat (8 * message.length / 256 ^ i)

def octets (word : UInt32) : Bytes :=
  [(word >>> 24).toUInt8, (word >>> 16).toUInt8, (word >>> 8).toUInt8, word.toUInt8]

def Working.digest (work : Working) : Vector UInt8 32 :=
  ⟨([work.a, work.b, work.c, work.d, work.e, work.f, work.g, work.h].flatMap octets).toArray,
   by simp [octets]⟩

@[reducible]
def sha256 : Sha256 where
  digest message :=
    let padded := pad message
    (blocks (padded.length / 64) (words padded) initialHash).digest

example : @sha256Hex sha256 (asBytes "abc") =
    "ba7816bf8f01cfea414140de5dae2223b00361a396177a9cb410ff61f20015ad" := by
  decide +kernel

end ImmutableLedger.Fips180
