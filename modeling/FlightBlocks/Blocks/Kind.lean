/-!
The block kinds of the palette, and the tokens that snapshots call them by.
-/

namespace FlightBlocks

inductive Kind where
  | takeOff
  | land
  | forward
  | right
  | left
  | back
  | rotate
  deriving DecidableEq, Repr

namespace Kind

def all : List Kind := [takeOff, land, forward, right, left, back, rotate]

def token : Kind → String
  | takeOff => "take_off"
  | land => "land"
  | forward => "forward_1s"
  | right => "right_1s"
  | left => "left_1s"
  | back => "back_1s"
  | rotate => "rotate"

def name : Kind → String
  | takeOff => "TakeOff"
  | land => "Land"
  | forward => "Forward"
  | right => "Right"
  | left => "Left"
  | back => "Back"
  | rotate => "Rotate"

def ofToken? (s : String) : Option Kind := all.find? fun k => k.token == s

def unknownMessage (s : String) : String := "unknown block kind: " ++ s

theorem ofToken?_token (k : Kind) : ofToken? k.token = some k := by cases k <;> decide

theorem token_of_ofToken? {s : String} {k : Kind} (h : ofToken? s = some k) : k.token = s := by
  simpa using List.find?_some h

end Kind

end FlightBlocks
