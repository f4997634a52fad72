import FlightBlocks.Files.Path
/-!
What stands at each place. The root is always a directory. An entry whose parent is no directory
is out of reach. A file stands at one place alone, so what is written to one shows nowhere else but
through links; there are no devices, pipes or sockets, and no rights that keep anybody off.
-/

namespace FlightBlocks

inductive Entry where
  | file (content : ByteArray)
  | directory
  | link (target : String)

section

-- contents are compared in this way, whichever others are known
local instance sameContent : DecidableEq ByteArray := ByteArray.instDecidableEq

deriving instance DecidableEq for Entry

end

abbrev Tree := List (Place × Entry)

namespace Tree

def entry? (t : Tree) : Place → Option Entry
  | [] => some .directory
  | place => t.lookup place

def isDirectory (t : Tree) (place : Place) : Bool := t.entry? place == some .directory

def put (t : Tree) (place : Place) (e : Entry) : Tree :=
  (place, e) :: t.filter fun entry => entry.1 != place

def erase (t : Tree) (place : Place) : Tree := t.filter fun entry => !Place.within entry.1 place

def rename (t : Tree) (source target : Place) : Tree :=
  let moved := t.filter fun entry => Place.within entry.1 source
  moved.map (fun entry => (target ++ entry.1.drop source.length, entry.2)) ++
    Tree.erase (Tree.erase t source) target

def below (t : Tree) (place : Place) : List (Place × Entry) :=
  (t.filter fun entry => Place.within entry.1 place && entry.1 != place).map
    fun entry => (entry.1.drop place.length, entry.2)

end Tree

end FlightBlocks
