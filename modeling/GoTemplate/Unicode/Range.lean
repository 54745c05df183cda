/-!
Sets of characters given as tables of code point ranges, the form in which the Unicode
Character Database lists its properties.
-/

namespace GoTemplate.Unicode

/-- Closed ranges `(first, last)` of code points, in increasing order. -/
abbrev RangeTable := List (Nat × Nat)

/-- Whether the code point of `c` lies in one of the ranges. -/
def RangeTable.contains (table : RangeTable) (c : Char) : Bool :=
  table.any fun range => range.1 ≤ c.toNat && c.toNat ≤ range.2

/-- Whether `c` is one of the first 128 characters, on which all classes of this folder are
decided without a table. -/
def isAscii (c : Char) : Bool := c.toNat < 0x80

end GoTemplate.Unicode
