import FlightBlocks.Blocks.Block
import FlightBlocks.Blocks.Defect
import FlightBlocks.Text.Blank
/-!
A workspace: blocks that link to one another by index, and the heads of its chains in order.
-/

namespace FlightBlocks

structure Workspace where
  blocks : List Block
  heads : List Nat
  deriving DecidableEq, Repr

namespace Workspace

def empty : Workspace := ⟨[], []⟩

def push (ws : Workspace) (b : Block) : Nat × Workspace :=
  (ws.blocks.length, { ws with blocks := ws.blocks ++ [b] })

/-- Links each of the blocks from `start` on, up to `stop`, to the one behind it. -/
def linkEach (start stop : Nat) (blocks : List Block) : List Block :=
  (List.range' start (stop - start)).foldl
    (fun blocks i => blocks.modify i fun b => { b with next := some (i + 1) }) blocks

def pushChain (ws : Workspace) (kinds : List String) : Option Nat × Workspace :=
  let start := ws.blocks.length
  let ws := kinds.foldl (fun ws kind => (ws.push (.ofKind kind)).2) ws
  let stop := ws.blocks.length
  if start = stop then (none, ws)
  else (some start, ⟨linkEach start (stop - 1) ws.blocks, ws.heads ++ [start]⟩)

def chain (kinds : List String) : Workspace := (empty.pushChain kinds).2

def check (ok : Bool) (d : Defect) : Except Defect Unit := if ok then .ok () else .error d

def checkBlock (count i : Nat) (b : Block) : Except Defect Unit := do
  check (!Text.allBlank b.kind) (.blankKind i)
  match b.next with
  | none => pure ()
  | some n => check (n < count) (.dangling n count)
  b.fields.entries.forM fun (name, f) =>
    check f.inRange (.fieldOutOfRange i name f.value.toInt f.least.toInt f.greatest.toInt)

/-- Finds the first defect of a snapshot: heads before blocks. Cycles are left to the walk. -/
def validate (ws : Workspace) : Except Defect Unit := do
  let count := ws.blocks.length
  ws.heads.forM fun head => check (head < count) (.dangling head count)
  ws.blocks.zipIdx.forM fun (b, i) => checkBlock count i b

end Workspace

end FlightBlocks
