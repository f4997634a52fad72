import FlightBlocks.Files.Access
import FlightBlocks.Store.Failure
import FlightBlocks.Text.Blank
/-!
A directory that nothing leads out of. A path is first judged by its text alone, and then once
more by where its links lead.
-/

namespace FlightBlocks

/-- The base is absolute. It need not exist. -/
structure Sandbox where
  base : Place
  deriving DecidableEq, Repr

namespace Sandbox

def open? (t : Tree) (cwd : Place) (base : String) : Except StoreFailure Sandbox :=
  match t.canonical (cwd.follow (.ofText base)) with
  | .ok place => .ok ⟨place⟩
  | .error fault => .error (.io (cwd.joinText base) fault)

/-- The place in the sandbox that a path leads to, with no link left in it. -/
def resolve (box : Sandbox) (t : Tree) (requested : String) : Except StoreFailure Place :=
  let lexical := box.base.follow (.ofText requested)
  if Text.allBlank requested then .error (.invalidInput "missing path")
  else if !lexical.within box.base then .error (.outside requested box.base.text)
  else
    match t.canonical box.base, t.canonical lexical with
    | .error fault, _ => .error (.io box.base.text fault)
    | .ok _, .error fault => .error (.io lexical.text fault)
    | .ok base, .ok place =>
      if place.within base then .ok place else .error (.outside requested box.base.text)

end Sandbox

end FlightBlocks
