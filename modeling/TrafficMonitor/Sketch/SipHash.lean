/-!
SipHash with one round for each block and three at the end, under the key zero: a 64-bit hash of a
byte sequence.
-/

namespace TrafficMonitor.Sketch.SipHash

structure State where
  a : UInt64
  b : UInt64
  c : UInt64
  d : UInt64
  deriving DecidableEq, Repr

def rotate (x : UInt64) (n : UInt64) : UInt64 := (x <<< n) ||| (x >>> (64 - n))

def initial : State :=
  ⟨0x736f6d6570736575, 0x646f72616e646f6d, 0x6c7967656e657261, 0x7465646279746573⟩

def round (s : State) : State :=
  let a := s.a + s.b
  let b := rotate s.b 13 ^^^ a
  let a := rotate a 32
  let c := s.c + s.d
  let d := rotate s.d 16 ^^^ c
  let a := a + d
  let d := rotate d 21 ^^^ a
  let c := c + b
  let b := rotate b 17 ^^^ c
  let c := rotate c 32
  ⟨a, b, c, d⟩

def absorb (s : State) (block : UInt64) : State :=
  let s := round { s with d := s.d ^^^ block }
  { s with a := s.a ^^^ block }

def littleEndian (bytes : List UInt8) : UInt64 :=
  bytes.foldr (fun byte n => (n <<< 8) ||| byte.toUInt64) 0

def absorbAll (length : UInt64) (s : State) : List UInt8 → State
  | b0 :: b1 :: b2 :: b3 :: b4 :: b5 :: b6 :: b7 :: rest =>
    absorbAll length (absorb s (littleEndian [b0, b1, b2, b3, b4, b5, b6, b7])) rest
  | rest => absorb s ((length <<< 56) ||| littleEndian rest)

def hash (bytes : List UInt8) : UInt64 :=
  let s := absorbAll bytes.length.toUInt64 initial bytes
  let s := round (round (round { s with c := s.c ^^^ 0xff }))
  s.a ^^^ s.b ^^^ s.c ^^^ s.d

def hashText (text : String) : UInt64 := hash text.toUTF8.toList

end TrafficMonitor.Sketch.SipHash
