import ScriptValues.Bytes

/-! SHA-256: a byte string goes to its digest of 32 bytes. -/

namespace ScriptValues.Sha256

structure State where
  a : UInt32
  b : UInt32
  c : UInt32
  d : UInt32
  e : UInt32
  f : UInt32
  g : UInt32
  h : UInt32

namespace State

def initial : State :=
  ⟨0x6a09e667, 0xbb67ae85, 0x3c6ef372, 0xa54ff53a, 0x510e527f, 0x9b05688c, 0x1f83d9ab, 0x5be0cd19⟩

def add (s t : State) : State :=
  ⟨s.a + t.a, s.b + t.b, s.c + t.c, s.d + t.d, s.e + t.e, s.f + t.f, s.g + t.g, s.h + t.h⟩

def toBytes (s : State) : ByteArray :=
  ⟨([s.a, s.b, s.c, s.d, s.e, s.f, s.g, s.h].flatMap Bytes.ofHalfBig).toArray⟩

end State

def roundConstants : List UInt32 :=
  [0x428a2f98, 0x71374491, 0xb5c0fbcf, 0xe9b5dba5, 0x3956c25b, 0x59f111f1, 0x923f82a4, 0xab1c5ed5,
   0xd807aa98, 0x12835b01, 0x243185be, 0x550c7dc3, 0x72be5d74, 0x80deb1fe, 0x9bdc06a7, 0xc19bf174,
   0xe49b69c1, 0xefbe4786, 0x0fc19dc6, 0x240ca1cc, 0x2de92c6f, 0x4a7484aa, 0x5cb0a9dc, 0x76f988da,
   0x983e5152, 0xa831c66d, 0xb00327c8, 0xbf597fc7, 0xc6e00bf3, 0xd5a79147, 0x06ca6351, 0x14292967,
   0x27b70a85, 0x2e1b2138, 0x4d2c6dfc, 0x53380d13, 0x650a7354, 0x766a0abb, 0x81c2c92e, 0x92722c85,
   0xa2bfe8a1, 0xa81a664b, 0xc24b8b70, 0xc76c51a3, 0xd192e819, 0xd6990624, 0xf40e3585, 0x106aa070,
   0x19a4c116, 0x1e376c08, 0x2748774c, 0x34b0bcb5, 0x391c0cb3, 0x4ed8aa4a, 0x5b9cca4f, 0x682e6ff3,
   0x748f82ee, 0x78a5636f, 0x84c87814, 0x8cc70208, 0x90befffa, 0xa4506ceb, 0xbef9a3f7, 0xc67178f2]

@[inline] def rotateRight (x n : UInt32) : UInt32 :=
  (x >>> n) ||| (x <<< (32 - n))

@[inline] def bigSigma0 (x : UInt32) : UInt32 :=
  rotateRight x 2 ^^^ rotateRight x 13 ^^^ rotateRight x 22

@[inline] def bigSigma1 (x : UInt32) : UInt32 :=
  rotateRight x 6 ^^^ rotateRight x 11 ^^^ rotateRight x 25

@[inline] def smallSigma0 (x : UInt32) : UInt32 :=
  rotateRight x 7 ^^^ rotateRight x 18 ^^^ (x >>> 3)

@[inline] def smallSigma1 (x : UInt32) : UInt32 :=
  rotateRight x 17 ^^^ rotateRight x 19 ^^^ (x >>> 10)

@[inline] def choose (x y z : UInt32) : UInt32 :=
  (x &&& y) ^^^ (~~~x &&& z)

@[inline] def majority (x y z : UInt32) : UInt32 :=
  (x &&& y) ^^^ (x &&& z) ^^^ (y &&& z)

def State.round (s : State) (k w : UInt32) : State :=
  let t := s.h + bigSigma1 s.e + choose s.e s.f s.g + k + w
  ⟨t + (bigSigma0 s.a + majority s.a s.b s.c), s.a, s.b, s.c, s.d + t, s.e, s.f, s.g⟩

/-- One round per constant. The window is a ring of the sixteen schedule words next due: slot `i`
holds the word of this round, and then the word due sixteen rounds later. -/
def rounds : List UInt32 → Fin 16 → Vector UInt32 16 → State → State
  | [], _, _, s => s
  | k :: ks, i, window, s =>
    let w := window.get i
    let later := w + smallSigma0 (window.get (i + 1)) + window.get (i + 9) +
      smallSigma1 (window.get (i + 14))
    rounds ks (i + 1) (window.set i.val later i.isLt) (s.round k w)

def block (bytes : ByteArray) (n : Nat) : Vector UInt32 16 :=
  Vector.ofFn fun j => Bytes.halfAt bytes (64 * n + 4 * j.val)

/-- A marker byte, zeros up to eight bytes short of a whole block, and the length in bits. -/
def pad (message : ByteArray) : ByteArray :=
  message.push 0x80 ++ Bytes.zeros ((119 - message.size % 64) % 64) ++
    Bytes.ofWordBig (8 * message.size).toUInt64

def digest (message : ByteArray) : ByteArray :=
  let padded := pad message
  State.toBytes <| (padded.size / 64).fold
    (fun n _ s => s.add (rounds roundConstants 0 (block padded n) s)) .initial

end ScriptValues.Sha256
