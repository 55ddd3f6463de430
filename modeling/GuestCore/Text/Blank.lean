import GuestCore.Text.Ranges

/-!
# White Space

White space is the Unicode property of that name: twenty-five characters in ten ranges.  Trimming
removes them from both ends of a text and touches nothing between.
-/

namespace GuestCore.Text

/-- Closed ranges of the white-space code points, ascending and apart. -/
def blankRanges : List (Nat × Nat) :=
  [(0x09, 0x0D), (0x20, 0x20), (0x85, 0x85), (0xA0, 0xA0), (0x1680, 0x1680), (0x2000, 0x200A),
   (0x2028, 0x2029), (0x202F, 0x202F), (0x205F, 0x205F), (0x3000, 0x3000)]

def isBlank (char : Char) : Bool :=
  inRanges blankRanges char.toNat

def trimStart (chars : List Char) : List Char :=
  chars.dropWhile isBlank

def trimEnd (chars : List Char) : List Char :=
  (trimStart chars.reverse).reverse

/-- The text without the white space at its two ends. -/
def trim (chars : List Char) : List Char :=
  trimEnd (trimStart chars)

end GuestCore.Text
