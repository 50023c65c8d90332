/-!
# White space

The characters with the Unicode property `White_Space`, and the removal of those at the two ends of
a text.  The zero-width space and the byte order mark do not have the property.

## Main definitions

* `Text.isBlank`
* `Text.trim`
-/

namespace FeedCapture.Text

/-- The character has the property `White_Space`. -/
def isBlank (c : Char) : Bool :=
  let n := c.toNat
  (9 ≤ n && n ≤ 13) || n = 0x20 || n = 0x85 || n = 0xA0 || n = 0x1680 ||
    (0x2000 ≤ n && n ≤ 0x200A) || n = 0x2028 || n = 0x2029 || n = 0x202F || n = 0x205F ||
    n = 0x3000

/-- The text without the white space before it. -/
def trimStart (text : List Char) : List Char := text.dropWhile isBlank

/-- The text without the white space after it. -/
def trimEnd (text : List Char) : List Char := (text.reverse.dropWhile isBlank).reverse

/-- The text without the white space at its two ends. -/
def trim (text : List Char) : List Char := trimEnd (trimStart text)

@[simp] theorem trimStart_nil : trimStart [] = [] := rfl

@[simp] theorem trimEnd_nil : trimEnd [] = [] := rfl

@[simp] theorem trim_nil : trim [] = [] := rfl

end FeedCapture.Text
