import FlightBlocks.Blocks.Snapshot
/-!
The editor's own documents, in which every block holds its successor. The chains are taken in the
order in which a scan line that tilts by three degrees meets their heads on its way down.
-/

namespace FlightBlocks.Canvas

structure Piece where
  kind : String
  fields : Fields
  deriving DecidableEq, Repr

structure Chain where
  x : Option Float
  y : Option Float
  pieces : List Piece

def tilt : Float := 0.052335956242943835

def Chain.scanKey (chain : Chain) : Int := doubleKey (chain.y.getD 0.0 + tilt * chain.x.getD 0.0)

/-- Every field must be sound JSON; those that hold an integer of 64 bits are kept, unbounded. -/
def fields? (v : Json) : Option Fields := do
  let entries ← v.entries? fun field => if field.isSound then some field else none
  return Fields.ofEntries ((Json.lastOfEach entries).filterMap fun (name, field) =>
    field.int64?.map fun value => (name, Field.unbounded value))

def members? (v : Json) : Option (List (Option Json)) :=
  v.members? ["type", "x", "y", "fields", "next"]

def piece? (v : Json) : Option Piece :=
  match members? v with
  | some [kind, _, _, fields, _] => do
    return ⟨← Json.required Json.string? kind, ← Json.orElse .empty fields? fields⟩
  | _ => none

def coordinate? : Option Json → Option (Option Float) :=
  Json.orElse none (Json.nullable Json.float?)

def position? (v : Json) : Option (Option Float × Option Float) :=
  match members? v with
  | some [_, x, y, _, _] => do return (← coordinate? x, ← coordinate? y)
  | _ => none

def linkTarget? : Json → Option (Option Json)
  | .null => some none
  | link =>
    match link.members? ["block"] with
    | some [none] => some none
    | some [some .null] => some none
    | some [some v] => some (some v)
    | _ => none

def successor? (v : Json) : Option (Option Json) :=
  match members? v with
  | some [_, _, _, _, none] => some none
  | some [_, _, _, _, some link] => linkTarget? link
  | _ => none

theorem sizeOf_lt_of_linkTarget? {link v : Json} (h : linkTarget? link = some (some v)) :
    sizeOf v < sizeOf link := by
  unfold linkTarget? at h
  split at h
  · simp at h
  · split at h
    all_goals simp at h
    next found => exact Json.sizeOf_lt_of_members? found (by simp [h])

theorem sizeOf_lt_of_successor? {v w : Json} (h : successor? v = some (some w)) :
    sizeOf w < sizeOf v := by
  unfold successor? at h
  split at h
  · simp at h
  next found =>
    exact Nat.lt_trans (sizeOf_lt_of_linkTarget? h)
      (Json.sizeOf_lt_of_members? found (by simp))
  · simp at h

def pieces? (v : Json) : Option (List Piece) := do
  let piece ← piece? v
  let _ ← position? v
  match _h : successor? v with
  | none => none
  | some none => return [piece]
  | some (some w) => return piece :: (← pieces? w)
termination_by sizeOf v
decreasing_by exact sizeOf_lt_of_successor? ‹_›

def chain? (v : Json) : Option Chain := do
  let (x, y) ← position? v
  return ⟨x, y, ← pieces? v⟩

def chains? (v : Json) : Option (List Chain) :=
  match v.members? ["blocks"] with
  | some [none] => some []
  | some [some top] =>
    match top.members? ["blocks"] with
    | some [blocks] => Json.orElse [] (Json.items? chain?) blocks
    | _ => none
  | _ => none

/-- The chains from the top of the canvas to its bottom; those at one height keep their order. -/
def arrange (key : Chain → Int) (chains : List Chain) : List Chain :=
  chains.mergeSort fun a b => key a ≤ key b

/-- Appends one block of a chain, whose block before it stands at `previous`. A block with none
before it is a head. -/
def appendPiece (ws : Workspace) (previous : Option Nat) (p : Piece) : Workspace × Option Nat :=
  let (index, ws) := ws.push ⟨p.kind, none, p.fields⟩
  match previous with
  | none => ({ ws with heads := ws.heads ++ [index] }, some index)
  | some i =>
    ({ ws with blocks := ws.blocks.modify i fun b => { b with next := some index } }, some index)

def append (ws : Workspace) (chain : Chain) : Workspace :=
  (chain.pieces.foldl (fun s p => appendPiece s.1 s.2 p) (ws, none)).1

def assemble (chains : List Chain) : Workspace := chains.foldl append .empty

def load (text : String) : Except Defect Workspace :=
  match (Json.parse? text).bind chains? with
  | none => .error .malformed
  | some chains => (assemble (arrange Chain.scanKey chains)).checked

end FlightBlocks.Canvas
