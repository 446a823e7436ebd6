import ToolRegistry.Text

/-!
# White space

Numbers in field pairs, registry locations and the numeric log level are
trimmed before they are read. What is trimmed is white space in Unicode's
sense, the property `White_Space`, which is wider than the blanks that
separate the words of a request line: it holds line breaks, the no-break
space and the ideographic space as well.
-/

namespace ToolRegistry.Text

/-- The characters with Unicode's property `White_Space`. -/
def isWhiteSpace (c : Char) : Bool :=
  let n := c.toNat
  (9 ≤ n && n ≤ 13) || n == 0x20 || n == 0x85 || n == 0xA0 || n == 0x1680 ||
    (0x2000 ≤ n && n ≤ 0x200A) || n == 0x2028 || n == 0x2029 || n == 0x202F ||
    n == 0x205F || n == 0x3000

/-- The text without the white space it begins with. -/
def trimStart (t : Text) : Text := t.dropWhile isWhiteSpace

/-- The text without the white space it ends in. -/
def trimEnd (t : Text) : Text := (t.reverse.dropWhile isWhiteSpace).reverse

/-- The text without white space at either end. -/
def trim (t : Text) : Text := trimEnd (trimStart t)

theorem trim_of_ends {t : Text} (hfirst : ∀ c ∈ t.head?, isWhiteSpace c = false)
    (hlast : ∀ c ∈ t.getLast?, isWhiteSpace c = false) : t.trim = t := by
  have hend : t.reverse.dropWhile isWhiteSpace = t.reverse :=
    dropWhile_of_head? (by rwa [List.head?_reverse])
  rw [trim, trimStart, dropWhile_of_head? hfirst, trimEnd, hend, List.reverse_reverse]

end ToolRegistry.Text
