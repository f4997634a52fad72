import FlightBlocks.Store.History
import FlightBlocks.Store.Sandbox
/-!
Reading and writing texts in a sandbox. A path that is refused leaves the files alone, and every
write that succeeds is recorded.
-/

namespace FlightBlocks

structure Disk where
  tree : Tree
  history : History

structure ReadOutcome where
  content : String
  path : String
  deriving DecidableEq, Repr

structure WriteOutcome where
  path : String
  base : String
  bytes : Nat
  deriving DecidableEq, Repr

namespace Sandbox

def read (box : Sandbox) (t : Tree) (requested : String) : Except StoreFailure ReadOutcome := do
  let place ← box.resolve t requested
  match t.readText place.path with
  | .ok content => return ⟨content, place.text⟩
  | .error .notFound => .error (.notFound place.text)
  | .error fault => .error (.io place.text fault)

/-- Writes `content` at a place that was resolved, and makes the directories above it. -/
def writeAt (box : Sandbox) (time : Int64) (disk : Disk) (place : Place) (content : String) :
    Except StoreFailure WriteOutcome × Disk :=
  match disk.tree.makeDirectories place.parent with
  | (.error fault, tree) => (.error (.io place.parent.text fault), { disk with tree := tree })
  | (.ok (), tree) =>
    match tree.write place.path content.toUTF8 with
    | .error fault => (.error (.io place.text fault), { disk with tree := tree })
    | .ok tree =>
      (.ok ⟨place.text, box.base.text, content.utf8ByteSize⟩,
        ⟨tree, disk.history.append time place.text content⟩)

def write (box : Sandbox) (time : Int64) (disk : Disk) (requested content : String) :
    Except StoreFailure WriteOutcome × Disk :=
  if content.isEmpty then (.error (.invalidInput "missing content"), disk)
  else
    match box.resolve disk.tree requested with
    | .error failure => (.error failure, disk)
    | .ok place => box.writeAt time disk place content

end Sandbox

end FlightBlocks
