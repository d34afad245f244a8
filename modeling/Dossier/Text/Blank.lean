/-!
# Blanks

`isBlank` holds of the characters with the property *White_Space* of the Unicode standard.  Trimming
takes them off the start of a text, off its end, or off both; what is between two characters that
are kept stays as it is.
-/

set_option autoImplicit false

namespace Dossier.Text

/-- The characters of the property White_Space. -/
def isBlank (c : Char) : Bool :=
  let n := c.toNat
  (decide (9 ≤ n) && decide (n ≤ 13)) || n == 0x20 || n == 0x85 || n == 0xA0 || n == 0x1680 ||
    (decide (0x2000 ≤ n) && decide (n ≤ 0x200A)) || n == 0x2028 || n == 0x2029 || n == 0x202F ||
    n == 0x205F || n == 0x3000

/-- The text without the blanks it starts with. -/
def dropBlanks (cs : List Char) : List Char := cs.dropWhile isBlank

/-- The text without the blanks it ends with. -/
def dropEndBlanks (cs : List Char) : List Char := (dropBlanks cs.reverse).reverse

/-- The text without the blanks at its two ends. -/
def trim (s : String) : String := String.ofList (dropEndBlanks (dropBlanks s.toList))

end Dossier.Text
