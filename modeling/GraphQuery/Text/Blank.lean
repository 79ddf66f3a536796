import GraphQuery.Text.CodeRange

/-!
# Blank characters

The white space of the Unicode standard: the characters that may separate two tokens of a script,
that a pattern's `\s` accepts, and that an extended pattern skips.
-/

namespace GraphQuery

/-- The code points with the property White_Space. -/
def blankTable : List CodeRange :=
  [⟨0x09, 0x0D⟩, ⟨0x20, 0x20⟩, ⟨0x85, 0x85⟩, ⟨0xA0, 0xA0⟩, ⟨0x1680, 0x1680⟩, ⟨0x2000, 0x200A⟩,
   ⟨0x2028, 0x2029⟩, ⟨0x202F, 0x202F⟩, ⟨0x205F, 0x205F⟩, ⟨0x3000, 0x3000⟩]

/-- Whether a character is white space. -/
def isBlank (c : Char) : Bool :=
  CodeRange.covers blankTable c

end GraphQuery
