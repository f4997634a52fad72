/-!
White space, as the Unicode property White_Space has it: 25 code points, and no zero-width space.
-/

namespace FlightBlocks.Text

def isBlank (c : Char) : Bool :=
  let n := c.toNat
  (9 ≤ n && n ≤ 13) || n == 0x20 || n == 0x85 || n == 0xA0 || n == 0x1680 ||
    (0x2000 ≤ n && n ≤ 0x200A) || n == 0x2028 || n == 0x2029 || n == 0x202F || n == 0x205F ||
    n == 0x3000

def allBlank (s : String) : Bool := s.toList.all isBlank

theorem isBlank_of_isWhitespace {c : Char} (h : c.isWhitespace = true) : isBlank c = true := by
  simp only [Char.isWhitespace, Bool.or_eq_true, decide_eq_true_eq] at h
  rcases h with ((h | h) | h) | h <;> subst h <;> decide

theorem allBlank_eq_false_iff {s : String} :
    allBlank s = false ↔ ∃ c ∈ s.toList, isBlank c = false := by
  simp [allBlank]

end FlightBlocks.Text
