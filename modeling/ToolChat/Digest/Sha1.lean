/-!
The SHA-1 digest of a byte sequence.

The message is padded to whole blocks of sixteen words; each block is expanded to eighty words, and
each word advances the five words of the running state by one round.
-/

set_option autoImplicit false

namespace ToolChat.Sha1

structure State where
  a : UInt32
  b : UInt32
  c : UInt32
  d : UInt32
  e : UInt32
  deriving DecidableEq, Repr

def State.initial : State :=
  ⟨0x67452301, 0xEFCDAB89, 0x98BADCFE, 0x10325476, 0xC3D2E1F0⟩

def State.add (s t : State) : State :=
  ⟨s.a + t.a, s.b + t.b, s.c + t.c, s.d + t.d, s.e + t.e⟩

/-- A word turned left by `n` bits, for `0 < n < 32`. -/
def rotateLeft (w : UInt32) (n : UInt32) : UInt32 :=
  (w <<< n) ||| (w >>> (32 - n))

/-- The `count` lowest bytes of a number, the highest of them first. -/
def bigEndian (count n : Nat) : List UInt8 :=
  (List.range count).reverse.map fun i => (n >>> (8 * i)).toUInt8

/-- The padding of a message: a one bit, zeros up to eight bytes short of a block, the bit count. -/
def padding (length : Nat) : List UInt8 :=
  0x80 :: List.replicate ((119 - length % 64) % 64) 0 ++ bigEndian 8 (8 * length)

def words : List UInt8 → List UInt32
  | a :: b :: c :: d :: rest =>
    (a.toUInt32 <<< 24 ||| b.toUInt32 <<< 16 ||| c.toUInt32 <<< 8 ||| d.toUInt32) :: words rest
  | _ => []

/-- Extends a block by `count` words, each made of four earlier ones. The words stand in reverse
order, the latest first. -/
def extend : (count : Nat) → List UInt32 → List UInt32
  | 0, latest => latest
  | count + 1, latest =>
    let word (i : Nat) := latest.getD i 0
    extend count (rotateLeft (word 2 ^^^ word 7 ^^^ word 13 ^^^ word 15) 1 :: latest)

/-- The mixing function and the constant of the round with index `i`. -/
def mix (i : Nat) (b c d : UInt32) : UInt32 × UInt32 :=
  if i < 20 then ((b &&& c) ||| (~~~b &&& d), 0x5A827999)
  else if i < 40 then (b ^^^ c ^^^ d, 0x6ED9EBA1)
  else if i < 60 then ((b &&& c) ||| (b &&& d) ||| (c &&& d), 0x8F1BBCDC)
  else (b ^^^ c ^^^ d, 0xCA62C1D6)

def round (s : State) (word : UInt32) (i : Nat) : State :=
  let (f, k) := mix i s.b s.c s.d
  ⟨rotateLeft s.a 5 + f + s.e + k + word, s.a, rotateLeft s.b 30, s.c, s.d⟩

def compress (s : State) (block : List UInt32) : State :=
  let schedule := (extend 64 block.reverse).reverse
  s.add ((schedule.zipIdx).foldl (fun t (word, i) => round t word i) s)

def absorb : (count : Nat) → State → List UInt32 → State
  | 0, s, _ => s
  | count + 1, s, message => absorb count (compress s (message.take 16)) (message.drop 16)

def digest (message : List UInt8) : List UInt8 :=
  let padded := words (message ++ padding message.length)
  let s := absorb (padded.length / 16) .initial padded
  [s.a, s.b, s.c, s.d, s.e].flatMap fun w => bigEndian 4 w.toNat

end ToolChat.Sha1
