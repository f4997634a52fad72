/-!
What can be wrong with a block program.
-/

namespace FlightBlocks

inductive Defect where
  | cycle (index : Nat)
  | dangling (index count : Nat)
  | fieldOutOfRange (index : Nat) (field : String) (value least greatest : Int)
  | blankKind (index : Nat)
  /-- A snapshot that is no snapshot. The words of the reader of its format are not kept. -/
  | malformed
  deriving DecidableEq, Repr

def showIndex (index : Nat) : String := "#" ++ toString index

def Defect.message : Defect → String
  | cycle i => "cycle detected at block " ++ showIndex i
  | dangling i count =>
    "block " ++ showIndex i ++ " referenced but workspace holds " ++ toString count ++ " blocks"
  | fieldOutOfRange i field value least greatest =>
    "field '" ++ field ++ "' on block " ++ showIndex i ++ " is " ++ toString value ++
      ", expected " ++ toString least ++ "..=" ++ toString greatest
  | blankKind i => "block " ++ showIndex i ++ " has an empty kind"
  | malformed => "malformed workspace snapshot: "

end FlightBlocks
