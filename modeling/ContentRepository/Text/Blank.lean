import ContentRepository.Text.CodeRanges

/-!
# White space

The characters with the property White_Space. Words are separated by runs of them.
-/

namespace ContentRepository.Text

/-- The characters with the property White_Space. -/
def blankRanges : CodeRanges :=
  [(0x9, 0xD), (0x20, 0x20), (0x85, 0x85), (0xA0, 0xA0), (0x1680, 0x1680), (0x2000, 0x200A),
   (0x2028, 0x2029), (0x202F, 0x202F), (0x205F, 0x205F), (0x3000, 0x3000)]

/-- Whether the character separates words. -/
def isBlank (c : Char) : Bool := blankRanges.contains c

end ContentRepository.Text
