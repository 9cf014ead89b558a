import ImageBuild.Text.Pieces

/-!
# White space

`isBlank` is the Unicode property White_Space. `trim` removes it from both
ends of a text and `words` splits a text at it.
-/

namespace ImageBuild.Text

/-- Whether a character has the Unicode property White_Space. -/
def isBlank (c : Char) : Bool :=
  (0x09 ≤ c.val && c.val ≤ 0x0D) || c.val == 0x20 || c.val == 0x85 || c.val == 0xA0 ||
    c.val == 0x1680 || (0x2000 ≤ c.val && c.val ≤ 0x200A) || c.val == 0x2028 ||
    c.val == 0x2029 || c.val == 0x202F || c.val == 0x205F || c.val == 0x3000

/-- A text without the characters of a class at its end. -/
def dropEndWhile (p : Char → Bool) (s : List Char) : List Char :=
  (s.reverse.dropWhile p).reverse

def trimEnd (s : List Char) : List Char :=
  dropEndWhile isBlank s

def trim (s : List Char) : List Char :=
  trimEnd (s.dropWhile isBlank)

/-- The maximal runs of characters that are not white space. -/
def words (s : List Char) : List (List Char) :=
  (pieces isBlank s).filter (· ≠ [])

/-- A character with the ASCII capitals made small. -/
def lower (c : Char) : Char := c.toLower

/-- Equality of texts up to the case of ASCII letters. -/
def sameLetters (s t : List Char) : Bool :=
  s.map lower == t.map lower

end ImageBuild.Text
