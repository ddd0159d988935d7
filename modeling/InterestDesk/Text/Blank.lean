/-!
# Blank — white space and trimming

The white space characters are those with the `White_Space` property; `trim` drops them at both ends of a text.
-/
namespace InterestDesk
namespace Text

/-- Whether a character has the `White_Space` property. -/
def isBlank (c : Char) : Bool :=
  (0x9 ≤ c.val && c.val ≤ 0xd) || c.val == 0x20 || c.val == 0x85 || c.val == 0xa0 || c.val == 0x1680
    || (0x2000 ≤ c.val && c.val ≤ 0x200a) || c.val == 0x2028 || c.val == 0x2029 || c.val == 0x202f
    || c.val == 0x205f || c.val == 0x3000

/-- The elements up to the last one that fails `p`. -/
def dropTrailing {α : Type} (p : α → Bool) (s : List α) : List α :=
  (s.reverse.dropWhile p).reverse

def trim (s : List Char) : List Char :=
  dropTrailing isBlank (s.dropWhile isBlank)

end Text
end InterestDesk
