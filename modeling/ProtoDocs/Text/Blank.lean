import ProtoDocs.Text.Basic

/-!
# Blank characters

The characters with the Unicode property White_Space, and texts without them at their ends.

* `isBlank`          the property;
* `Text.trim`        both ends without blanks.

`isBlank_of_isWhitespace` says that the ASCII blanks of core's class are among them.
-/

namespace ProtoDocs

/-- Unicode White_Space -/
def isBlank (c : Char) : Bool :=
  let n := c.toNat
  (0x09 ≤ n && n ≤ 0x0D) || n == 0x20 || n == 0x85 || n == 0xA0 || n == 0x1680 ||
    (0x2000 ≤ n && n ≤ 0x200A) || n == 0x2028 || n == 0x2029 || n == 0x202F || n == 0x205F ||
    n == 0x3000

theorem isBlank_of_isWhitespace (c : Char) (h : c.isWhitespace = true) : isBlank c = true := by
  simp only [Char.isWhitespace, Bool.or_eq_true, decide_eq_true_eq] at h
  rcases h with ((h | h) | h) | h <;> subst h <;> decide

def Text.trim (t : Text) : Text :=
  t.trimBy isBlank

end ProtoDocs
