/-!
Replacing one text by another wherever it stands, from left to right.
-/

namespace FlightBlocks.Text

/-- `n` bounds the length of the text. -/
def replaceChars (old new : List Char) : Nat → List Char → List Char
  | 0, cs => cs
  | _, [] => []
  | n + 1, c :: cs =>
    if old.isPrefixOf (c :: cs) then new ++ replaceChars old new n ((c :: cs).drop old.length)
    else c :: replaceChars old new n cs

def replace (old new s : String) : String :=
  String.ofList (replaceChars old.toList new.toList s.length s.toList)

end FlightBlocks.Text
