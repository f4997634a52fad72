import FlightBlocks.Json.Record
import FlightBlocks.Sequence.Literal
/-!
Directives and compiled programs as JSON. The literal of a program is read as it stands there; it
need not be the one that the directives make.
-/

namespace FlightBlocks

namespace Directive

def toJson (d : Directive) : Json := .string d.token

def ofJson? : Json → Option Directive := Json.variant? (all.map fun d => (d.token, d))

end Directive

namespace Program

def toJson (p : Program) : Json :=
  .record [("kinds", .strings p.kinds), ("directives", .array (p.directives.map Directive.toJson)),
    ("literal", .string p.literal)]

def ofJson? (v : Json) : Option Program :=
  match v.members? ["kinds", "directives", "literal"] with
  | some [kinds, directives, literal] => do
    return ⟨← Json.required (Json.items? Json.string?) kinds,
      ← Json.required (Json.items? Directive.ofJson?) directives,
      ← Json.required Json.string? literal⟩
  | _ => none

end Program

end FlightBlocks
