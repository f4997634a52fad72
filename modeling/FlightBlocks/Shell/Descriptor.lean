import FlightBlocks.Shell.State
/-!
Opening and closing descriptors. All texts are byte texts.
-/

namespace FlightBlocks.Shell

def inDirectory (name directory : String) : String :=
  if directory.isEmpty then name else directory ++ "/" ++ name

def openingComplaint (creates : Bool) (path : String) (fault : FileFault) : String :=
  let start := if creates then "cannot create " else "cannot open "
  let phrase :=
    if fault == .notFound || fault == .notDirectory then
      if creates then "Directory nonexistent" else "No such file"
    else fault.phrase
  start ++ path ++ ": " ++ phrase

def Opening.creates : Opening → Bool
  | .read => false
  | _ => true

def Opening.access : Opening → Access
  | .read => ⟨true, false, false⟩
  | .write | .overwrite => ⟨false, true, false⟩
  | .append => ⟨false, true, true⟩
  | .readWrite => ⟨true, true, false⟩

def Opening.empties : Opening → Bool
  | .write | .overwrite => true
  | _ => false

def openPlace (w : World) (opening : Opening) (place : Place) : Except FileFault (Handle × World) :=
  if w.tree.isDirectory place then
    if opening.creates then .error .isDirectory else .ok (.directory, w)
  else
    let emptied := w.withTree (w.tree.put place (.file ⟨#[]⟩))
    .ok (.file place 0 opening.access, if opening.empties then emptied else w)

/-- What is wrong with making a file at a path with a slash behind its last name. Whatever the name
leads to, the path means a directory, so only what is above it is looked at. -/
def slashFault? (t : Tree) (cwd : Place) (path : String) : Option FileFault :=
  let above := (Scene.pathFrom cwd path).parts.dropLast
  match path.toList.getLast?, above.getLast? with
  | some '/', some (.name _) =>
    match t.reach true ⟨true, above.dropLast⟩ with
    | .ok (.entry place) => some (if t.isDirectory place then .isDirectory else .notDirectory)
    | .ok _ => some .notFound
    | .error problem => some problem
  | _, _ => none

/-- Opens the file that a path leads to. With `guards`, a file that there is stays as it is. -/
def openFile (w : World) (cwd : Place) (guards : Bool) (opening : Opening) (path : String) :
    Except FileFault (Handle × World) := do
  if opening.creates then
    match slashFault? w.tree cwd path with
    | some problem => throw problem
    | none => pure ()
  match ← Scene.reach w.tree cwd true path with
  | .entry place =>
    if guards && opening == .write && !w.tree.isDirectory place then throw .exists
    else openPlace w opening place
  | .free place =>
    if opening.creates then
      return (.file place 0 opening.access, w.withTree (w.tree.put place (.file ⟨#[]⟩)))
    else throw .notFound
  | .link _ _ _ => throw .notFound

namespace Act

def setDescriptor (d i : Nat) : Act Unit :=
  modify fun sh =>
    { sh with
      descriptors := (d, i) :: sh.descriptors.filter fun entry => entry.1 != d }

def closeDescriptor (d : Nat) : Act Unit :=
  modify fun sh =>
    { sh with descriptors := sh.descriptors.filter fun entry => entry.1 != d }

def provide (d : Nat) (h : Handle) : Act Unit := do
  let (i, world) := (← get).world.add h
  modify fun sh => { sh with world := world }
  setDescriptor d i

def duplicate (d source : Nat) : Act Unit := do
  match (← get).descriptors.lookup source with
  | some i => setDescriptor d i
  | none => fault (toString source ++ ": Bad file descriptor")

def provideOpened (d : Nat) (opening : Opening) (path : String)
    (result : Except FileFault (Handle × World)) : Act Unit := do
  match result with
  | .ok (h, world) =>
    modify fun sh => { sh with world := world }
    provide d h
  | .error problem => fault (openingComplaint opening.creates path problem)

def openUnder (d : Nat) (opening : Opening) (path : String) : Act Unit := do
  let sh ← get
  if path == "/dev/null" then provide d .nothing
  else
    match Scene.descriptorOf? path with
    | none =>
      provideOpened d opening path
        (openFile sh.world sh.cwd (sh.options.contains 'C') opening path)
    | some source =>
      match sh.descriptors.lookup source with
      | none => fault (openingComplaint opening.creates path .notFound)
      | some i =>
        match sh.world.handle i with
        | .file place _ _ => provideOpened d opening path (openPlace sh.world opening place)
        | _ => setDescriptor d i

def remaining (d : Nat) : Act (Except FileFault (List Char)) := do
  let sh ← get
  match sh.descriptors.lookup d with
  | some i => return sh.world.remaining i
  | none => return .error Scene.notOpen

def advance (d n : Nat) : Act Unit := do
  let sh ← get
  match sh.descriptors.lookup d with
  | some i => set { sh with world := sh.world.advance i n }
  | none => return ()

end Act

end FlightBlocks.Shell
