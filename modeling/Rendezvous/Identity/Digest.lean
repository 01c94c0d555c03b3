/-
The digest behind name-based identities.

SHA-1: the octets are padded to blocks of sixteen words, each block is stretched to eighty
words, and eighty rounds mix every block into a state of five words.
-/
import Rendezvous.Text.Bytes

namespace Rendezvous
namespace Digest

/-- The five words of the state. -/
structure State where
  a : UInt32
  b : UInt32
  c : UInt32
  d : UInt32
  e : UInt32

def State.start : State := ⟨0x67452301, 0xefcdab89, 0x98badcfe, 0x10325476, 0xc3d2e1f0⟩

/-- A word turned left by `n` bits. -/
def rotate (x : UInt32) (n : UInt32) : UInt32 := (x <<< n) ||| (x >>> (32 - n))

/-- The octets of a number, most significant first. -/
def bigEndian : Nat → Nat → Bytes
  | 0, _ => []
  | width + 1, n => bigEndian width (n / 256) ++ [UInt8.ofNat (n % 256)]

/-- A message with its end mark, zeros up to a whole block, and its length in bits. -/
def pad (b : Bytes) : Bytes :=
  let zeros := (119 - b.length % 64) % 64
  b ++ 0x80 :: List.replicate zeros 0 ++ bigEndian 8 (8 * b.length)

def words : Bytes → List UInt32
  | a :: b :: c :: d :: rest =>
    ((a.toUInt32 <<< 24) ||| (b.toUInt32 <<< 16) ||| (c.toUInt32 <<< 8) ||| d.toUInt32)
      :: words rest
  | _ => []

/-- Stretches a block by `n` words; the words are kept newest first. -/
def stretch : Nat → List UInt32 → List UInt32
  | 0, ws => ws
  | n + 1, ws =>
    let back (i : Nat) : UInt32 := ws.getD i 0
    stretch n (rotate (back 2 ^^^ back 7 ^^^ back 13 ^^^ back 15) 1 :: ws)

/-- The choice of words and the constant of a round. -/
def mix (round : Nat) (s : State) : UInt32 × UInt32 :=
  if round < 20 then ((s.b &&& s.c) ||| ((~~~s.b) &&& s.d), 0x5a827999)
  else if round < 40 then (s.b ^^^ s.c ^^^ s.d, 0x6ed9eba1)
  else if round < 60 then ((s.b &&& s.c) ||| (s.b &&& s.d) ||| (s.c &&& s.d), 0x8f1bbcdc)
  else (s.b ^^^ s.c ^^^ s.d, 0xca62c1d6)

def State.round (round : Nat) (s : State) (w : UInt32) : State :=
  let (f, k) := mix round s
  ⟨rotate s.a 5 + f + s.e + k + w, s.a, rotate s.b 30, s.c, s.d⟩

/-- The rounds of a stretched block, numbered from `round`. -/
def State.rounds : Nat → State → List UInt32 → State
  | _, s, [] => s
  | round, s, w :: ws => State.rounds (round + 1) (s.round round w) ws

/-- Mixes a block of sixteen words into the state. -/
def State.block (s : State) (ws : List UInt32) : State :=
  let t := State.rounds 0 s (stretch 64 ws.reverse).reverse
  ⟨s.a + t.a, s.b + t.b, s.c + t.c, s.d + t.d, s.e + t.e⟩

/-- Mixes whole blocks, at most `n` of them. -/
def State.blocks : Nat → State → List UInt32 → State
  | 0, s, _ => s
  | n + 1, s, ws =>
    if ws.isEmpty then s else State.blocks n (s.block (ws.take 16)) (ws.drop 16)

/-- The digest of octets, as a number of 160 bits. -/
def sha1 (b : Bytes) : Nat :=
  let ws := words (pad b)
  let s := State.blocks (ws.length / 16) State.start ws
  [s.a, s.b, s.c, s.d, s.e].foldl (fun n w => n * 0x100000000 + w.toNat) 0

end Digest
end Rendezvous
