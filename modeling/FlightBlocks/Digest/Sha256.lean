/-!
SHA-256.
-/

namespace FlightBlocks.Sha256

abbrev Word := UInt32

def rotate (w : Word) (n : Word) : Word := (w >>> n) ||| (w <<< (32 - n))

def roundConstants : List Word :=
  [0x428a2f98, 0x71374491, 0xb5c0fbcf, 0xe9b5dba5, 0x3956c25b, 0x59f111f1, 0x923f82a4, 0xab1c5ed5,
   0xd807aa98, 0x12835b01, 0x243185be, 0x550c7dc3, 0x72be5d74, 0x80deb1fe, 0x9bdc06a7, 0xc19bf174,
   0xe49b69c1, 0xefbe4786, 0x0fc19dc6, 0x240ca1cc, 0x2de92c6f, 0x4a7484aa, 0x5cb0a9dc, 0x76f988da,
   0x983e5152, 0xa831c66d, 0xb00327c8, 0xbf597fc7, 0xc6e00bf3, 0xd5a79147, 0x06ca6351, 0x14292967,
   0x27b70a85, 0x2e1b2138, 0x4d2c6dfc, 0x53380d13, 0x650a7354, 0x766a0abb, 0x81c2c92e, 0x92722c85,
   0xa2bfe8a1, 0xa81a664b, 0xc24b8b70, 0xc76c51a3, 0xd192e819, 0xd6990624, 0xf40e3585, 0x106aa070,
   0x19a4c116, 0x1e376c08, 0x2748774c, 0x34b0bcb5, 0x391c0cb3, 0x4ed8aa4a, 0x5b9cca4f, 0x682e6ff3,
   0x748f82ee, 0x78a5636f, 0x84c87814, 0x8cc70208, 0x90befffa, 0xa4506ceb, 0xbef9a3f7, 0xc67178f2]

structure State where
  a : Word
  b : Word
  c : Word
  d : Word
  e : Word
  f : Word
  g : Word
  h : Word
  deriving DecidableEq, Repr

namespace State

def initial : State :=
  ⟨0x6a09e667, 0xbb67ae85, 0x3c6ef372, 0xa54ff53a, 0x510e527f, 0x9b05688c, 0x1f83d9ab, 0x5be0cd19⟩

def add (s t : State) : State :=
  ⟨s.a + t.a, s.b + t.b, s.c + t.c, s.d + t.d, s.e + t.e, s.f + t.f, s.g + t.g, s.h + t.h⟩

def round (s : State) (input : Word × Word) : State :=
  let sum1 := rotate s.e 6 ^^^ rotate s.e 11 ^^^ rotate s.e 25
  let choice := (s.e &&& s.f) ^^^ (~~~s.e &&& s.g)
  let t1 := s.h + sum1 + choice + input.2 + input.1
  let sum0 := rotate s.a 2 ^^^ rotate s.a 13 ^^^ rotate s.a 22
  let majority := (s.a &&& s.b) ^^^ (s.a &&& s.c) ^^^ (s.b &&& s.c)
  ⟨t1 + (sum0 + majority), s.a, s.b, s.c, s.d + t1, s.e, s.f, s.g⟩

def words (s : State) : List Word := [s.a, s.b, s.c, s.d, s.e, s.f, s.g, s.h]

end State

/-- The message words of a block: the last sixteen give the next one, `n` times. -/
def schedule : Nat → List Word → List Word
  | 0, window => window
  | n + 1, window =>
    match window with
    | w0 :: rest =>
      let w1 := rest.getD 0 0
      let w14 := rest.getD 13 0
      let s0 := rotate w1 7 ^^^ rotate w1 18 ^^^ (w1 >>> 3)
      let s1 := rotate w14 17 ^^^ rotate w14 19 ^^^ (w14 >>> 10)
      w0 :: schedule n (rest ++ [w0 + s0 + rest.getD 8 0 + s1])
    | [] => []

def bigEndian (bytes : List UInt8) : Word :=
  bytes.foldl (fun w b => (w <<< 8) ||| b.toUInt32) 0

def wordBytes (w : Word) : List UInt8 :=
  [(w >>> 24).toUInt8, (w >>> 16).toUInt8, (w >>> 8).toUInt8, w.toUInt8]

def chunks (size : Nat) : Nat → List UInt8 → List (List UInt8)
  | 0, _ => []
  | n + 1, bytes => bytes.take size :: chunks size n (bytes.drop size)

def compress (s : State) (block : List UInt8) : State :=
  let message := schedule 48 ((chunks 4 16 block).map bigEndian)
  s.add ((message.zip roundConstants).foldl State.round s)

/-- The message with a one bit, zeros, and its length in bits, in blocks of 64 bytes. -/
def pad (message : List UInt8) : List UInt8 :=
  let bits := message.length * 8
  let length := (List.range 8).map fun i => UInt8.ofNat (bits >>> (8 * (7 - i)))
  message ++ [0x80] ++ List.replicate ((119 - message.length % 64) % 64) 0 ++ length

def digest (message : List UInt8) : List UInt8 :=
  let padded := pad message
  ((chunks 64 (padded.length / 64) padded).foldl compress .initial).words.flatMap wordBytes

end FlightBlocks.Sha256
