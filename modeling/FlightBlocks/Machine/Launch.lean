import FlightBlocks.Shell.Run
/-!
Starting programs by name. A name without a slash is one of the programs of the machine; a path
may lead to one in a directory of programs, and to files that are none.

The programs, with the shell among them, stand for those of the machine on which an upload command
is run: with them a studio can be run to its end on a tree, uploads included. They are no part of
the studio, which takes any launcher, and nothing that is proved of it rests on them.
-/

namespace FlightBlocks.Machine

def programs : List (String × Tool) := ("sh", Shell.program) :: Shell.tools

def find (t : Tree) (cwd : Place) (program : String) : Except FileFault Tool :=
  if program.toList.contains '/' then
    match (programAt? (cwd.follow (.ofText program))).bind fun name => programs.lookup name with
    | some run => .ok run
    | none => do
      match ← t.reach true (cwd.path.join (.ofText program)) with
      | .entry _ => .error .permission
      | _ => .error .notFound
  else if program.utf8ByteSize > longestName then .error .nameTooLong
  else
    match programs.lookup program with
    | some run => .ok run
    | none => .error .notFound

def enter (t : Tree) (cwd : Place) : Option String → Except FileFault Place
  | none => .ok cwd
  | some dir =>
    if dir.isEmpty then .error .notFound
    else do
      match ← t.reach true (cwd.path.join (.ofText dir)) with
      | .entry place => if t.isDirectory place then .ok place else .error .notDirectory
      | _ => .error .notFound

def hasNul (s : String) : Bool := s.toList.contains '\x00'

/-- Starts a program and waits for its end. Its input is empty. -/
def launch (t : Tree) (cwd : Place) (program : String) (args : List String)
    (workingDir : Option String) : Except FileFault ToolOutcome :=
  if hasNul program || args.any hasNul || workingDir.any hasNul then .error .nulInCommand
  else do
    let cwd ← enter t cwd workingDir
    let run ← find t cwd program
    return run ⟨Bytes.encode program, t, cwd, [(0, ⟨.ok "", none⟩)], .stream⟩
      (args.map Bytes.encode)

end FlightBlocks.Machine
