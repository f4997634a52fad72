import FlightBlocks.Blocks.Kind
import FlightBlocks.Blocks.Workspace
import FlightBlocks.Json.Printer
import FlightBlocks.Json.Reader
import FlightBlocks.Json.Record
/-!
Workspaces as JSON snapshots. A block without successor or without fields leaves that member out.
-/

namespace FlightBlocks

def readIndex? (v : Json) : Option Nat := v.word? 64

namespace Kind

def toJson (k : Kind) : Json := .string k.name

def ofJson? : Json → Option Kind := Json.variant? (all.map fun k => (k.name, k))

end Kind

namespace Field

def toJson (f : Field) : Json :=
  .record [("value", .int f.value.toInt), ("min", .int f.least.toInt),
    ("max", .int f.greatest.toInt)]

def ofJson? (v : Json) : Option Field :=
  match v.members? ["value", "min", "max"] with
  | some [value, least, greatest] => do
    return ⟨← Json.required Json.int64? value, ← Json.required Json.int64? least,
      ← Json.required Json.int64? greatest⟩
  | _ => none

end Field

namespace Fields

def toJson (fields : Fields) : Json :=
  .record (fields.entries.map fun (name, f) => (name, f.toJson))

def ofJson? (v : Json) : Option Fields := (v.entries? Field.ofJson?).map ofEntries

end Fields

namespace Block

def toJson (b : Block) : Json :=
  .record ([("kind", .string b.kind)] ++
    (match b.next with
      | none => []
      | some n => [("next", .nat n)]) ++
    (if b.fields.entries.isEmpty then [] else [("fields", b.fields.toJson)]))

def ofJson? (v : Json) : Option Block :=
  match v.members? ["kind", "next", "fields"] with
  | some [kind, next, fields] => do
    return ⟨← Json.required Json.string? kind,
      ← Json.orElse none (Json.nullable readIndex?) next,
      ← Json.orElse .empty Fields.ofJson? fields⟩
  | _ => none

end Block

namespace Workspace

def toJson (ws : Workspace) : Json :=
  .record [("blocks", .array (ws.blocks.map Block.toJson)),
    ("top_blocks", .array (ws.heads.map Json.nat))]

def ofJson? (v : Json) : Option Workspace :=
  match v.members? ["blocks", "top_blocks"] with
  | some [blocks, heads] => do
    return ⟨← Json.orElse [] (Json.items? Block.ofJson?) blocks,
      ← Json.orElse [] (Json.items? readIndex?) heads⟩
  | _ => none

def save (ws : Workspace) : String := ws.toJson.pretty

/-- Reads a snapshot as it is, with whatever defects it has. -/
def decode (text : String) : Except Defect Workspace :=
  match (Json.parse? text).bind ofJson? with
  | none => .error .malformed
  | some ws => .ok ws

def checked (ws : Workspace) : Except Defect Workspace := ws.validate.map fun _ => ws

def load (text : String) : Except Defect Workspace := (decode text).bind checked

end Workspace

end FlightBlocks
