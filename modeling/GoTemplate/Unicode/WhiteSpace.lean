/-!
The Unicode property White_Space. The separators U+001C to U+001F and the zero-width space U+200B
do not have it.
-/

namespace GoTemplate.Unicode

/-- Whether `c` has the property White_Space: tab to carriage return, the space, next line, the
no-break space, the fixed-width spaces, the line and paragraph separators and the ideographic
space. -/
def isWhiteSpace (c : Char) : Bool :=
  let code := c.toNat
  (0x09 ≤ code && code ≤ 0x0D) || code == 0x20 || code == 0x85 || code == 0xA0 ||
    code == 0x1680 || (0x2000 ≤ code && code ≤ 0x200A) || code == 0x2028 || code == 0x2029 ||
    code == 0x202F || code == 0x205F || code == 0x3000

end GoTemplate.Unicode
