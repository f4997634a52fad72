import FlightBlocks.Shell.Descriptor
import FlightBlocks.Machine.Programs
/-!
Finding what a name or a path is as a program. All texts are byte texts.
-/

namespace FlightBlocks.Shell

inductive Unrunnable where
  | notFound
  | notAllowed
  | other (fault : FileFault)
  deriving DecidableEq, Repr

def Unrunnable.ofFault : FileFault → Unrunnable
  | .notFound | .notDirectory => notFound
  | .permission => notAllowed
  | fault => other fault

def Unrunnable.phrase : Unrunnable → String
  | notFound => "not found"
  | notAllowed => "Permission denied"
  | other fault => fault.phrase

def Unrunnable.status : Unrunnable → Nat
  | notFound | other .nameTooLong | other .linkLoop => 127
  | notAllowed | other _ => 126

def hasSlash (s : String) : Bool := s.toList.contains '/'

def programAt (t : Tree) (cwd : Place) (path : String) : Except Unrunnable String :=
  match Machine.programAt? (cwd.follow (.ofText (Bytes.decode path))) with
  | some name => .ok name
  | none =>
    match Scene.reach t cwd true path with
    | .ok (.entry _) => .error .notAllowed
    | .ok _ => .error .notFound
    | .error fault => .error (.ofFault fault)

def leadsSomewhere (t : Tree) (cwd : Place) (path : String) : Bool :=
  match programAt t cwd path with
  | .ok _ | .error .notAllowed => true
  | _ => false

structure Found where
  path : String
  program : String

def programNamed (t : Tree) (cwd : Place) (name : String) :
    List String → Unrunnable → Except Unrunnable Found
  | [], problem => .error problem
  | directory :: directories, problem =>
    let path := inDirectory name directory
    match programAt t cwd path with
    | .ok program => .ok ⟨path, program⟩
    | .error .notFound => programNamed t cwd name directories problem
    | .error other => programNamed t cwd name directories other

def scriptNamed? (t : Tree) (cwd : Place) (name : String) (directories : List String) :
    Option String :=
  (directories.map (inDirectory name)).find? fun path =>
    match Scene.reach t cwd true path with
    | .ok (.entry place) => !t.isDirectory place
    | _ => false

def usualPath : String := "/usr/local/sbin:/usr/local/bin:/usr/sbin:/usr/bin:/sbin:/bin"

namespace Act

def directories : Act (List String) := return ((← value? "PATH").getD usualPath).splitOn ":"

/-- Finds a program by its path, or looks for its name. A name that was found is kept track of if
`tracks` says so. -/
def findProgram (tracks : Bool) (name : String) : Act (Except Unrunnable Found) := do
  let sh ← get
  if hasSlash name then return (programAt sh.world.tree sh.cwd name).map (Found.mk name)
  else
    let result := programNamed sh.world.tree sh.cwd name (← directories) .notFound
    match result with
    | .ok found =>
      let others := sh.tracked.filter fun known => known.name != name
      let known : Tracked := ⟨name, found.path, false⟩
      if tracks then set { sh with tracked := others ++ [known] }
    | .error _ => pure ()
    return result

end Act

end FlightBlocks.Shell
