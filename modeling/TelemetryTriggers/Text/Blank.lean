/-!
# White space

Addresses, messages, properties and spelled-out names are accepted with white
space around them.  White space is the Unicode property of that name, which is
wider than the ASCII blanks: it holds the no-break space and the ideographic
space, but not the zero-width characters.

Main definitions: `isBlank`, the property; `trim`, a text without the white
space at its two ends.
-/

namespace TelemetryTriggers
namespace Text

/-- The character has the Unicode property `White_Space`. -/
def isBlank (c : Char) : Bool :=
  let n := c.toNat
  (0x9 ≤ n && n ≤ 0xd) || n == 0x20 || n == 0x85 || n == 0xa0 || n == 0x1680 ||
    (0x2000 ≤ n && n ≤ 0x200a) || n == 0x2028 || n == 0x2029 || n == 0x202f ||
    n == 0x205f || n == 0x3000

def trimChars (cs : List Char) : List Char :=
  ((cs.dropWhile isBlank).reverse.dropWhile isBlank).reverse

def trim (s : String) : String :=
  String.ofList (trimChars s.toList)

theorem toList_trim (s : String) :
    (trim s).toList = trimChars s.toList := by
  simp [trim]

end Text
end TelemetryTriggers
