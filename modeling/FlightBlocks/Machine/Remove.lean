import FlightBlocks.Machine.Concatenate
/-!
Removing files and directories, after a question if it is asked for. All texts are byte texts.
-/

namespace FlightBlocks.Tools

inductive Caution where
  | never
  /-- Once, before many files or a directory with all that is in it. -/
  | once
  | always
  deriving DecidableEq, Repr

structure RemoveOptions where
  caution : Caution
  ignoresMissing : Bool
  recursive : Bool
  directories : Bool
  verbose : Bool
  deriving DecidableEq, Repr

namespace RemoveOptions

def known : Known :=
  ⟨"dfiIrRv".toList,
    [("force", 'f'), ("interactive", 'i'), ("recursive", 'r'), ("dir", 'd'), ("verbose", 'v')]⟩

def ofLetters (letters : List Char) : RemoveOptions :=
  let last := (letters.filter fun c => "fiI".toList.contains c).getLast?
  let caution : Caution :=
    if last == some 'i' then .always else if last == some 'I' then .once else .never
  ⟨caution, last == some 'f', letters.contains 'r' || letters.contains 'R', letters.contains 'd',
    letters.contains 'v'⟩

end RemoveOptions

structure Removal where
  outcome : ToolOutcome
  answers : List Char

namespace Removal

def complain (scene : Scene) (r : Removal) (problem : String) : Removal :=
  { r with outcome := Tools.complain scene r.outcome problem }

def refuse (scene : Scene) (r : Removal) (arg phrase : String) : Removal :=
  r.complain scene ("cannot remove " ++ Quoting.quoted arg ++ ": " ++ phrase)

def ask (scene : Scene) (r : Removal) (question : String) : Bool × Removal :=
  let line := r.answers.takeWhile (· != '\n')
  let outcome := r.outcome.warn (scene.name ++ ": " ++ question ++ "? ")
  (line.head? == some 'y' || line.head? == some 'Y',
    ⟨{ outcome with taken := [0] }, r.answers.drop (line.length + 1)⟩)

def askIf (asks : Bool) (scene : Scene) (r : Removal) (question : String) : Bool × Removal :=
  if asks then r.ask scene question else (true, r)

def erase (o : RemoveOptions) (r : Removal) (arg kind : String) (place : Place) : Removal :=
  let outcome := { r.outcome with tree := r.outcome.tree.erase place }
  { r with outcome :=
      if o.verbose then outcome.print ("removed " ++ kind ++ Quoting.quoted arg ++ "\n")
      else outcome }

end Removal

/-- Whether the last part of a path is `.` or `..`, whatever slashes stand behind it. -/
def endsInDots (arg : String) : Bool :=
  let last := (arg.toList.reverse.dropWhile (· == '/')).takeWhile (· != '/')
  last == ['.'] || last == ['.', '.']

def entryKind : Option Entry → String
  | some (.file content) => if content.size = 0 then "regular empty file" else "regular file"
  | some .directory => "directory"
  | _ => "symbolic link"

def children (t : Tree) (place : Place) : List Place :=
  (t.map (·.1)).filter fun p => p != [] && p.parent == place

/-- Removes what stands at a place, with all that is below it, `n` levels deep. -/
def removeEntry (scene : Scene) (o : RemoveOptions) : Nat → Removal → String → Place → Removal
  | 0, r, _, _ => r
  | n + 1, r, arg, place =>
    let asks := o.caution == .always
    let question := "remove " ++ entryKind (r.outcome.tree.entry? place) ++ " " ++
      Quoting.quoted arg
    if !r.outcome.tree.isDirectory place then
      let (isAllowed, r) := r.askIf asks scene question
      if isAllowed then r.erase o arg "" place else r
    else
      let below := children r.outcome.tree place
      let (descends, r) := r.askIf (asks && o.recursive && !below.isEmpty) scene
        ("descend into directory " ++ Quoting.quoted arg)
      if !descends then r
      else
        let r := if !o.recursive then r else below.foldl (fun r child =>
          removeEntry scene o n r (arg ++ "/" ++ Bytes.encode (child.getLast?.getD "")) child) r
        let (isAllowed, r) := r.askIf asks scene question
        if !isAllowed then r
        else if (children r.outcome.tree place).isEmpty then r.erase o arg "directory " place
        else r.refuse scene arg "Directory not empty"

def removeOperand (scene : Scene) (o : RemoveOptions) (r : Removal) (arg : String) : Removal :=
  let missing (fault : FileFault) : Removal :=
    if o.ignoresMissing then r else r.refuse scene arg fault.phrase
  let remove (place : Place) : Removal :=
    removeEntry scene o (r.outcome.tree.length + 2) r arg place
  match Scene.reach r.outcome.tree scene.cwd false arg with
  | .ok (.entry place) =>
    if !r.outcome.tree.isDirectory place then remove place
    else if !o.recursive && !o.directories then r.refuse scene arg "Is a directory"
    else if endsInDots arg then
      r.complain scene
        ("refusing to remove '.' or '..' directory: skipping " ++ Quoting.quoted arg)
    else if place.isEmpty && o.recursive then
      (r.complain scene ("it is dangerous to operate recursively on " ++ Quoting.quoted arg ++
          if arg == "/" then "" else " (same as '/')")).complain scene
        "use --no-preserve-root to override this failsafe"
    else remove place
  | .ok (.link place _ _) => remove place
  | .ok (.free _) => missing .notFound
  | .error .notFound => missing .notFound
  | .error .notDirectory => missing .notDirectory
  | .error fault => r.refuse scene arg fault.phrase

def rm : Tool := fun scene args =>
  match RemoveOptions.known.options args with
  | .error misuse => misused scene misuse
  | .ok (letters, operands) =>
    let o := RemoveOptions.ofLetters letters
    if operands.isEmpty then
      if o.ignoresMissing then scene.ended 0 else misused scene .noOperand
    else
      let answers := match (scene.sources.lookup 0).map Source.rest with
        | some (.ok text) => text.toList
        | _ => []
      let count := operands.length
      let (isAllowed, r) := Removal.askIf (o.caution == .once && (o.recursive || 3 < count)) scene
        ⟨scene.ended 0, answers⟩
        ("remove " ++ toString count ++ (if count = 1 then " argument" else " arguments") ++
          if o.recursive then " recursively" else "")
      if isAllowed then (operands.foldl (removeOperand scene o) r).outcome else r.outcome

end FlightBlocks.Tools
