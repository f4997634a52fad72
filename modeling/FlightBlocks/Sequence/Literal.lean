import FlightBlocks.Sequence.Directive
import FlightBlocks.Blocks.Walk
/-!
Programs and the array declaration they are flown from.
-/

namespace FlightBlocks

def sequenceType : String := "Direction_t"

def sequenceName : String := "direction_sequence"

def body (directives : List Directive) : String :=
  String.intercalate ", " (directives.map Directive.token)

def literal (directives : List Directive) : String :=
  sequenceType ++ " " ++ sequenceName ++ "[] = \x7b" ++ body directives ++ "\x7d;"

/-- A compiled program: the kinds walked, the directives they are flown as, and the declaration
of those. -/
structure Program where
  kinds : List String
  directives : List Directive
  literal : String
  deriving DecidableEq, Repr

namespace Program

/-- Kinds without a directive, unknown ones too, are left out. -/
def ofKinds (kinds : List String) : Program :=
  let directives := kinds.filterMap Directive.ofKindToken?
  ⟨kinds, directives, FlightBlocks.literal directives⟩

def ofSource : Option BlockSource → Except Defect Program
  | none => .ok (ofKinds [])
  | some source => source.walk.map ofKinds

/-- The same with the room that the walk asks for. -/
def ofSource? : Option BlockSource → Option (Except Defect Program)
  | none => some (.ok (ofKinds []))
  | some source => source.walk?.map (·.map ofKinds)

def ofWorkspace (ws : Option Workspace) : Except Defect Program :=
  ofSource (ws.map Workspace.source)

end Program

end FlightBlocks
