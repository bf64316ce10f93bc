import Galley.Text.CodeRanges

/-! # Characters that show nothing

Fillers, joiners, selectors and the like only steer how the characters around them are shown. Where
that has no effect they show nothing at all, even those that count as letters. These are the
characters with the property "default ignorable code point" of Unicode 17.
-/

namespace Galley

/-- The code points with the property "default ignorable code point". -/
def ignorableRanges : CodeRanges :=
  [(0x00AD, 0x00AD), (0x034F, 0x034F), (0x061C, 0x061C), (0x115F, 0x1160), (0x17B4, 0x17B5),
   (0x180B, 0x180F), (0x200B, 0x200F), (0x202A, 0x202E), (0x2060, 0x206F), (0x3164, 0x3164),
   (0xFE00, 0xFE0F), (0xFEFF, 0xFEFF), (0xFFA0, 0xFFA0), (0xFFF0, 0xFFF8), (0x1BCA0, 0x1BCA3),
   (0x1D173, 0x1D17A), (0xE0000, 0xE0FFF)]

/-- Whether a character may show nothing. -/
def isIgnorable (char : Char) : Bool :=
  ignorableRanges.contains char.toNat

end Galley
