import FlightBlocks.Files.Lookup
/-!
What a program can do with files. A path that the system is given has a length it must keep;
`realpath` looks at one part after another, so it need not.
-/

namespace FlightBlocks.Tree

def realpath (t : Tree) (p : Path) : Except FileFault Place := do
  match ← t.find true p with
  | .entry place => return place
  | _ => .error .notFound

def reach (t : Tree) (through : Bool) (p : Path) : Except FileFault Stop :=
  if !p.hasNul && p.size > longestPath then .error .nameTooLong
  else t.find through p

def linkTarget? (t : Tree) (p : Path) : Option String :=
  match t.reach false p with
  | .ok (.link _ target _) => some target
  | _ => none

def leadsToDirectory (t : Tree) (p : Path) : Bool :=
  match t.reach true p with
  | .ok (.entry place) => t.isDirectory place
  | _ => false

def readBytes (t : Tree) (p : Path) : Except FileFault ByteArray := do
  match ← t.reach true p with
  | .entry place =>
    match t.entry? place with
    | some (.file content) => return content
    | some .directory => .error .isDirectory
    | _ => .error .notFound
  | _ => .error .notFound

def readText (t : Tree) (p : Path) : Except FileFault String := do
  match String.fromUTF8? (← t.readBytes p) with
  | some text => return text
  | none => .error .notText

/-- Makes a file or replaces its content. A link is followed, also to where nothing stands yet.
What is assumed: a write fails only where opening the file fails. Once it is open all of `content`
gets there, so the disk is never full and does not break halfway. -/
def write (t : Tree) (p : Path) (content : ByteArray) : Except FileFault Tree := do
  match ← t.reach true p with
  | .entry place =>
    if t.isDirectory place then .error .isDirectory else return t.put place (.file content)
  | .free place => return t.put place (.file content)
  | _ => .error .notFound

def add (t : Tree) (p : Path) (e : Entry) : Except FileFault Tree := do
  match ← t.reach false p with
  | .free place => return t.put place e
  | _ => .error .exists

/-- Makes a directory with the directories above it. The directories made stay also when it
fails. -/
def makeDirectories (t : Tree) (place : Place) : Except FileFault Unit × Tree :=
  match t.add place.path .directory with
  | .ok t => (.ok (), t)
  | .error fault =>
    if _ : fault = .notFound ∧ place ≠ [] then
      match makeDirectories t place.parent with
      | (.error fault, t) => (.error fault, t)
      | (.ok (), t) =>
        match t.add place.path .directory with
        | .ok t => (.ok (), t)
        | .error fault =>
          (if t.leadsToDirectory place.path then .ok () else .error fault, t)
    else (if t.leadsToDirectory place.path then .ok () else .error fault, t)
termination_by place.length
decreasing_by
  have := List.length_pos_iff.2 (by assumption : fault = .notFound ∧ place ≠ []).2
  simp only [Place.parent, List.length_dropLast]
  omega

/-- The longest part of a path that exists, with no link left in it, and the rest of the path
behind it. A link to where nothing stands is followed, `hops` times at most; where it stands is
found in the same way, `depth` times at most. -/
def settle (t : Tree) (depth hops : Nat) (place rest : Place) : Except FileFault Place :=
  match t.realpath place.path with
  | .ok found => .ok (found ++ rest)
  | .error .notFound =>
    match t.linkTarget? place.path with
    | some target =>
      match depth, hops with
      | depth + 1, hops + 1 => do
        let directory ← settle t depth mostLinks place.parent []
        settle t (depth + 1) hops (directory.follow (.ofText target)) rest
      | _, _ => .error .endlessLinks
    | none =>
      if _ : place = [] then .ok rest
      else settle t depth hops place.dropLast (place.getLast ‹_› :: rest)
  | .error fault => .error fault
termination_by (depth, hops, place.length)
decreasing_by
  · exact Prod.Lex.left _ _ (by omega)
  · exact Prod.Lex.right _ (Prod.Lex.left _ _ (by omega))
  · refine Prod.Lex.right _ (Prod.Lex.right _ ?_)
    have := List.length_pos_iff.2 ‹place ≠ []›
    simp only [List.length_dropLast]
    omega

def canonical (t : Tree) (place : Place) : Except FileFault Place := t.settle 1 mostLinks place []

end FlightBlocks.Tree
