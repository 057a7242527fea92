/-!
# White space

Which characters count as blank, and a text without the blanks around it.
-/

namespace Spreadsheet.Text

/-- The characters with the White_Space property. -/
def isBlank (c : Char) : Bool :=
  let n := c.toNat
  (0x9 ≤ n && n ≤ 0xD) || n == 0x20 || n == 0x85 || n == 0xA0 || n == 0x1680 || (0x2000 ≤ n && n ≤ 0x200A) ||
    n == 0x2028 || n == 0x2029 || n == 0x202F || n == 0x205F || n == 0x3000

/-- A text without its leading blanks. -/
def trimLeft (s : List Char) : List Char :=
  s.dropWhile isBlank

/-- A text without the blanks at either end. -/
def trim (s : List Char) : List Char :=
  ((trimLeft s).reverse.dropWhile isBlank).reverse

end Spreadsheet.Text
