/-!
Room for lists and texts that are laid out before they are filled. More than `mostBytes` is never
given: whoever asks for more breaks off and gives no result, not even an error. How much memory
there is does not count here, and room within the bound is taken to be given.
-/

namespace FlightBlocks

/-- The greatest signed word. No list and no text takes more bytes. -/
def mostBytes : Nat := 9223372036854775807

def mostWord : Nat := 18446744073709551615

/-- A list holds of each text where its characters are, their number and their room. -/
def textBytes : Nat := 24

def hasRoom (count size : Nat) : Bool := count * size ≤ mostBytes

/-- The product of two words, which must be a word again. -/
def product? (a b : Nat) : Option Nat := if a * b ≤ mostWord then some (a * b) else none

theorem hasRoom_iff {count size : Nat} :
    hasRoom count size = true ↔ count * size ≤ mostBytes := decide_eq_true_iff

theorem hasRoom_eq_false_iff {count size : Nat} :
    hasRoom count size = false ↔ mostBytes < count * size := by
  rw [hasRoom, decide_eq_false_iff_not, Nat.not_le]

theorem hasRoom_of_le {count size count' size' : Nat} (room : hasRoom count size = true)
    (fewer : count' ≤ count) (smaller : size' ≤ size) : hasRoom count' size' = true := by
  apply hasRoom_iff.2
  calc count' * size' ≤ count * size := Nat.mul_le_mul fewer smaller
    _ ≤ mostBytes := hasRoom_iff.1 room

end FlightBlocks
