import FlightBlocks.Blocks.Kind
/-!
The directives that the firmware flies, and what each block kind is flown as.
-/

namespace FlightBlocks

inductive Directive where
  | forward
  | right
  | left
  | back
  | normal
  | flip
  deriving DecidableEq, Repr

namespace Directive

def all : List Directive := [forward, right, left, back, normal, flip]

def token : Directive → String
  | forward => "FORWARD"
  | right => "RIGHT"
  | left => "LEFT"
  | back => "BACK"
  | normal => "NORMAL"
  | flip => "FLIP"

def ofToken? : String → Option Directive
  | "FORWARD" => some forward
  | "RIGHT" => some right
  | "LEFT" => some left
  | "BACK" => some back
  | "NORMAL" => some normal
  | "FLIP" => some flip
  | _ => none

def unknownMessage (s : String) : String := "unknown directive: " ++ s

theorem ofToken?_token (d : Directive) : ofToken? d.token = some d := by cases d <;> rfl

end Directive

def Kind.directive? : Kind → Option Directive
  | .takeOff => none
  | .land => none
  | .forward => some .forward
  | .right => some .right
  | .left => some .left
  | .back => some .back
  | .rotate => some .flip

namespace Directive

def ofKindToken? (token : String) : Option Directive := (Kind.ofToken? token).bind Kind.directive?

end Directive

end FlightBlocks
