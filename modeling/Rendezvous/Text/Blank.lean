/-
White space of every script.

Configuration values are trimmed, and tested for emptiness, by the Unicode property
White_Space, which is wider than the four blanks of a data format.
-/
namespace Rendezvous
namespace Text

/-- The ranges of the property White_Space, both ends included. -/
def blankRanges : List (Nat × Nat) :=
  [(0x9, 0xd), (0x20, 0x20), (0x85, 0x85), (0xa0, 0xa0), (0x1680, 0x1680), (0x2000, 0x200a),
   (0x2028, 0x2029), (0x202f, 0x202f), (0x205f, 0x205f), (0x3000, 0x3000)]

/-- A character with the property White_Space. -/
def isBlank (c : Char) : Bool :=
  blankRanges.any fun r => r.1 ≤ c.toNat && c.toNat ≤ r.2

/-- The characters of a text between its outer white space. -/
def trimmed (s : String) : List Char :=
  ((s.toList.dropWhile isBlank).reverse.dropWhile isBlank).reverse

def isVoid (s : String) : Bool :=
  s.toList.all isBlank

end Text
end Rendezvous
