/-! The characters with the property White_Space, and texts that consist of them. Zero-width characters such
as U+200B and U+FEFF, and the separators U+001C to U+001F, do not have the property. -/

namespace TemplateTiming.Text

def isBlank (c : Char) : Bool :=
  let n := c.toNat
  (9 ≤ n && n ≤ 13) || n == 0x20 || n == 0x85 || n == 0xA0 || n == 0x1680 || (0x2000 ≤ n && n ≤ 0x200A)
    || n == 0x2028 || n == 0x2029 || n == 0x202F || n == 0x205F || n == 0x3000

/-- Nothing but white space, in particular the empty text. -/
def allBlank (text : List Char) : Bool := text.all isBlank

/-- The text without the white space at its two ends. -/
def trim (text : List Char) : List Char :=
  ((text.dropWhile isBlank).reverse.dropWhile isBlank).reverse

end TemplateTiming.Text
