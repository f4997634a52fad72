import FlightBlocks.Shell.Builtin.Basic
import FlightBlocks.Shell.Descriptor
import FlightBlocks.Shell.Mask
/-!
Commands for the working directory and the rights of new files. All texts are byte texts.
-/

namespace FlightBlocks.Shell

namespace Builtin

open Act

def logical (cwdText dest : String) : String :=
  let p := (Path.ofText cwdText).join (Path.ofText dest)
  Place.text p.names

def isAnchored (path : String) : Bool :=
  match path.toList with
  | '/' :: _ | ['.'] | '.' :: '/' :: _ | ['.', '.'] | '.' :: '.' :: '/' :: _ => true
  | _ => false

def searchStart? (t : Tree) (cwd : Place) (directories name : String) : Option String :=
  if directories.isEmpty || isAnchored name then none
  else
    (directories.splitOn ":").find? fun directory =>
      match Scene.reach t cwd true (inDirectory name directory) with
      | .ok (.entry place) => t.isDirectory place
      | _ => false

def changeDirectory : Builtin := fun args => do
  let (letters, args) ← options ['L', 'P'] [] args
  let isPhysical := letters.getLast?.any fun l => l.1 == 'P'
  let dest := args.head?
  let (dest, shows) ← match dest with
    | none => do pure ((← value? "HOME").getD "", false)
    | some "-" => do pure ((← value? "OLDPWD").getD "", true)
    | some dest => pure (dest, false)
  let sh ← get
  let start? := searchStart? sh.world.tree sh.cwd ((← value? "CDPATH").getD "") dest
  let path := inDirectory (if dest.isEmpty then "." else dest) (start?.getD "")
  let shows := shows || start?.any fun start => !start.isEmpty
  let text := logical sh.cwdText path
  match Scene.reach sh.world.tree sh.cwd true (if isPhysical then path else text) with
  | .ok (.entry place) =>
    if !sh.world.tree.isDirectory place then fault ("can't cd to " ++ dest)
    let text := if isPhysical then Scene.placeText place else text
    modify fun sh => { sh with cwd := place, cwdText := text }
    modify fun sh =>
      { sh with tracked := sh.tracked.map fun found => { found with stale := true } }
    put "OLDPWD" ⟨some sh.cwdText, true, false⟩
    put "PWD" ⟨some text, true, false⟩
    if shows then print (text ++ "\n") else return 0
  | _ => fault ("can't cd to " ++ dest)

def workingDirectory : Builtin := fun args => do
  let (letters, _) ← options ['L', 'P'] [] args
  let sh ← get
  let isPhysical := letters.getLast?.any fun l => l.1 == 'P'
  print ((if isPhysical then Scene.placeText sh.cwd else sh.cwdText) ++ "\n")

def umask : Builtin := fun args => do
  let (letters, args) ← options ['S'] [] args
  let mask := (← get).mask
  match args with
  | [] => print ((if letters.isEmpty then Mask.text mask else Mask.rightsText mask) ++ "\n")
  | arg :: _ =>
    let cs := arg.toList
    let new ←
      if cs.head?.any Char.isDigit then do
        if !cs.all fun c => '0' ≤ c && c < '8' then fault ("Illegal number: " ++ arg)
        pure (Number.valueOf 8 cs % 512)
      else
        match Mask.ofText? mask arg with
        | some new => pure new
        | none => fault ("Illegal mode: " ++ arg)
    modify fun sh => { sh with mask := new }
    return 0

/-- Limits on what the shell may use. There are none, and new ones change nothing. -/
def limit : Builtin := fun args => do
  let (_, args) ← options "HSatfdscmlpnvwr".toList [] args
  if args.isEmpty then print "unlimited\n" else return 0

end Builtin

end FlightBlocks.Shell
