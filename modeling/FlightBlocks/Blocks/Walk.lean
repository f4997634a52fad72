import FlightBlocks.Blocks.Workspace
import FlightBlocks.Room
/-!
Walking chains. Every head is followed to its end, and the kinds met on the way are strung
together; a block that two chains share is met once for each. A chain that comes back to itself,
or leads to no block, is a defect. Before all that, room is asked for as many kinds as the source
says it has blocks.
-/

namespace FlightBlocks

structure Node where
  kind : String
  next : Option Nat
  deriving DecidableEq, Repr

/-- Finitely many nodes by index, the heads to start from, and the count that room is asked for and
messages give. Nothing makes it the number of the nodes. -/
structure BlockSource where
  heads : List Nat
  nodes : List (Nat × Node)
  count : Nat
  deriving DecidableEq, Repr

namespace BlockSource

def node? (nodes : List (Nat × Node)) (i : Nat) : Option Node :=
  (nodes.find? fun entry => entry.1 == i).map (·.2)

def without (nodes : List (Nat × Node)) (i : Nat) : List (Nat × Node) :=
  nodes.filter fun entry => entry.1 != i

theorem length_without_lt {nodes : List (Nat × Node)} {i : Nat} {node : Node}
    (h : node? nodes i = some node) : (without nodes i).length < nodes.length := by
  obtain ⟨entry, found, -⟩ := Option.map_eq_some_iff.1 h
  refine List.length_filter_lt_length_iff_exists.2 ⟨entry, List.mem_of_find?_eq_some found, ?_⟩
  simpa using List.find?_some found

/-- Follows the chain from `i` through the nodes that are left; `seen` holds the indices met. -/
def follow (count : Nat) (left : List (Nat × Node)) (seen : List Nat) (i : Nat) :
    Except Defect (List String) :=
  if i ∈ seen then .error (.cycle i)
  else
    match _h : node? left i with
    | none => .error (.dangling i count)
    | some node =>
      match node.next with
      | none => .ok [node.kind]
      | some j => do
        let kinds ← follow count (without left i) (i :: seen) j
        return node.kind :: kinds
termination_by left.length
decreasing_by exact length_without_lt ‹_›

def walk (source : BlockSource) : Except Defect (List String) := do
  let chains ← source.heads.mapM (follow source.count source.nodes [])
  return chains.flatten

/-- The whole walk. It breaks off if there is no room for as many kinds as there may be blocks. -/
def walk? (source : BlockSource) : Option (Except Defect (List String)) :=
  if hasRoom source.count textBytes then some source.walk else none

theorem walk?_eq_none_iff {source : BlockSource} :
    source.walk? = none ↔ mostBytes < source.count * textBytes := by
  unfold walk?
  cases room : hasRoom source.count textBytes with
  | true => simpa using hasRoom_iff.1 room
  | false => simpa using hasRoom_eq_false_iff.1 room

theorem walk?_eq_some_iff {source : BlockSource} {walked : Except Defect (List String)}
    (room : hasRoom source.count textBytes = true) :
    source.walk? = some walked ↔ source.walk = walked := by
  rw [walk?, if_pos room, Option.some_inj]

end BlockSource

namespace Workspace

def node (b : Block) : Node := ⟨b.kind, b.next⟩

def source (ws : Workspace) : BlockSource :=
  ⟨ws.heads, ws.blocks.zipIdx.map fun (b, i) => (i, node b), ws.blocks.length⟩

/-- A list of blocks takes more bytes than a list of their kinds, so a workspace that is there at
all has the room to be walked. -/
def walk (ws : Workspace) : Except Defect (List String) := ws.source.walk

end Workspace

end FlightBlocks
