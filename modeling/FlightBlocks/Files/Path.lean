/-!
Paths. A path as written may go up, stay where it is, and begin at the root or not; a place is an
absolute path with nothing but names in it.
-/

namespace FlightBlocks

inductive Part where
  | here
  | up
  | name (n : String)
  deriving DecidableEq, Repr

structure Path where
  rooted : Bool
  parts : List Part
  deriving DecidableEq, Repr

abbrev Place := List String

namespace Part

def ofName (n : String) : Part := if n == "." then here else if n == ".." then up else name n

def size : Part → Nat
  | here => 1
  | up => 2
  | name n => n.utf8ByteSize

def hasNul : Part → Bool
  | name n => n.toList.contains '\x00'
  | _ => false

end Part

namespace Path

def pieces : List Char → List (List Char)
  | [] => [[]]
  | c :: cs =>
    match pieces cs with
    | [] => [[c]]
    | piece :: rest => if c = '/' then [] :: piece :: rest else (c :: piece) :: rest

/-- A path that ends with a slash means its last part as a directory, which is what `.` there
would mean. -/
def ofChars (cs : List Char) : Path :=
  let written := (pieces cs).filter fun piece => !piece.isEmpty
  let parts := written.map fun piece => Part.ofName (String.ofList piece)
  ⟨cs.head? == some '/', if cs.getLast? == some '/' then parts ++ [.here] else parts⟩

def ofText (s : String) : Path := ofChars s.toList

def join (p q : Path) : Path := if q.rooted then q else ⟨p.rooted, p.parts ++ q.parts⟩

def foldStep (names : List String) : Part → List String
  | .here => names
  | .up => names.dropLast
  | .name n => names ++ [n]

/-- The names that are left when `..` takes back the name before it. Nothing is above the top. -/
def names (p : Path) : List String := p.parts.foldl foldStep []

def size (p : Path) : Nat := p.parts.foldr (fun part size => 1 + part.size + size) 0

def hasNul (p : Path) : Bool := p.parts.any Part.hasNul

def fold (p : Path) : Path := ⟨p.rooted, p.names.map .name⟩

end Path

namespace Place

def path (place : Place) : Path := ⟨true, place.map .name⟩

def parent (place : Place) : Place := place.dropLast

def text : Place → String
  | [] => "/"
  | place => String.join (place.map fun n => "/" ++ n)

def within (place base : Place) : Bool := base.isPrefixOf place

def joinText (place : Place) (p : String) : String :=
  if p.toList.head? == some '/' then p
  else if place.isEmpty then "/" ++ p
  else place.text ++ "/" ++ p

/-- Where the path `p` leads from `place`, as far as its text tells. -/
def follow (place : Place) (p : Path) : Place := (place.path.join p).names

end Place

end FlightBlocks
