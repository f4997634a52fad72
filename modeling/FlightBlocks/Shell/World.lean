import FlightBlocks.Machine.Process
/-!
What all shells and programs share while a script runs: the files, and what is open. An open file
has one position for all that use it. All texts are byte texts.
-/

namespace FlightBlocks.Shell

structure Access where
  reads : Bool
  writes : Bool
  appends : Bool
  deriving DecidableEq, Repr

inductive Handle where
  | nothing
  | directory
  | pipe (content : String)
  | file (place : Place) (position : Nat) (access : Access)
  /-- A file that stands nowhere any more. -/
  | loose (content : String) (position : Nat) (access : Access)
  deriving DecidableEq, Repr

structure World where
  tree : Tree
  handles : List (Nat × Handle)
  nextHandle : Nat
  nextProcess : Nat
  signals : List (Nat × Nat)

namespace World

def ofTree (t : Tree) : World := ⟨t, [], 0, 2, []⟩

def handle (w : World) (i : Nat) : Handle := (w.handles.lookup i).getD .nothing

def setHandle (w : World) (i : Nat) (h : Handle) : World :=
  { w with handles := (i, h) :: w.handles.filter fun entry => entry.1 != i }

def add (w : World) (h : Handle) : Nat × World :=
  (w.nextHandle,
    { w with handles := (w.nextHandle, h) :: w.handles, nextHandle := w.nextHandle + 1 })

def content (t : Tree) (place : Place) : String :=
  match t.entry? place with
  | some (.file bytes) => Bytes.ofList bytes.toList
  | _ => ""

def remaining (w : World) (i : Nat) : Except FileFault (List Char) :=
  match w.handle i with
  | .nothing => .ok []
  | .directory => .error .isDirectory
  | .pipe content => .ok content.toList
  | .file place position access =>
    if access.reads then .ok ((content w.tree place).toList.drop position)
    else .error Scene.notOpen
  | .loose content position access =>
    if access.reads then .ok (content.toList.drop position)
    else .error Scene.notOpen

def source (w : World) (i : Nat) : Source :=
  ⟨(w.remaining i).map String.ofList,
    match w.handle i with
    | .file place _ _ => some place
    | _ => none⟩

def advance (w : World) (i : Nat) (n : Nat) : World :=
  match w.handle i with
  | .pipe content => w.setHandle i (.pipe (String.ofList (content.toList.drop n)))
  | .file place position access => w.setHandle i (.file place (position + n) access)
  | .loose content position access => w.setHandle i (.loose content (position + n) access)
  | _ => w

def overwritten (content : String) (position : Nat) (text : String) : String :=
  let before := content.toList.take position
  let gap := List.replicate (position - before.length) '\x00'
  String.ofList (before ++ gap) ++ text ++
    String.ofList (content.toList.drop (position + text.length))

def write? (w : World) (i : Nat) (text : String) : Option World :=
  match w.handle i with
  | .nothing => some w
  | .directory => none
  | .pipe content => some (w.setHandle i (.pipe (content ++ text)))
  | .file place position access =>
    if !access.writes then none
    else
      let old := content w.tree place
      let position := if access.appends then old.length else position
      let bytes := Bytes.toList (overwritten old position text)
      some ({ w with tree := w.tree.put place (.file ⟨bytes.toArray⟩) }.setHandle i
        (.file place (position + text.length) access))
  | .loose old position access =>
    if !access.writes then none
    else
      let position := if access.appends then old.length else position
      some (w.setHandle i
        (.loose (overwritten old position text) (position + text.length) access))

/-- The world after a program has changed the files. What is open stays readable. -/
def withTree (w : World) (t : Tree) : World :=
  let kept (h : Handle) : Handle :=
    match h with
    | .file place position access =>
      if (t.entry? place).isSome then h else .loose (content w.tree place) position access
    | _ => h
  { w with tree := t, handles := w.handles.map fun entry => (entry.1, kept entry.2) }

end World

end FlightBlocks.Shell
