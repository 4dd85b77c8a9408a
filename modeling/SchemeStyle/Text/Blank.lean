import SchemeStyle.Text.CodePoints

/-!
# Blank characters

The white space of Unicode as far as text is stripped of it: the characters with the property
`White_Space` and the four information separators. Around a number the separators are not white
space.
-/

namespace SchemeStyle

/-- The blank characters, in increasing order. -/
def blank : CodePoints :=
  [(0x09, 0x0D), (0x1C, 0x20), (0x85, 0x85), (0xA0, 0xA0), (0x1680, 0x1680), (0x2000, 0x200A),
    (0x2028, 0x2029), (0x202F, 0x202F), (0x205F, 0x205F), (0x3000, 0x3000)]

/-- Whether a character is blank. -/
def isBlank (c : Char) : Bool :=
  blank.contains c

/-- The information separators. -/
def separators : CodePoints := [(0x1C, 0x1F)]

/-- Whether a character may stand around a number. -/
def isPadding (c : Char) : Bool :=
  isBlank c && !separators.contains c

/-- A text without the characters at its ends that may stand around a number. -/
def trimPadding (cs : List Char) : List Char :=
  ((cs.dropWhile isPadding).reverse.dropWhile isPadding).reverse

end SchemeStyle
