import FlightBlocks.Machine.Process
import FlightBlocks.Store.Failure
import FlightBlocks.Studio.Settings
import FlightBlocks.Text.Replace
import FlightBlocks.Text.Utf8
/-!
Handing a written file on to a command. What the machine does at the command comes in from outside,
as a launcher; nothing is taken for granted of it.
-/

namespace FlightBlocks

structure UploadOutput where
  program : String
  exitCode : Nat
  out : String
  err : String
  deriving DecidableEq, Repr

/-- Takes the path of a written file; what it runs may change the files. -/
abbrev Uploader := Tree → String → Except StoreFailure UploadOutput × Tree

abbrev Launcher := Tree → Place → String → List String → Option String →
  Except FileFault ToolOutcome

namespace UploadSettings

def placeholder : String := "\x7bpath\x7d"

def argsFor (u : UploadSettings) (written : String) : List String :=
  u.args.map (Text.replace placeholder written)

def exitCode? : Exit → Option Int
  | .code n => some n
  | .signal _ => none

/-- Runs the command from the directory `cwd`. -/
def uploader (launch : Launcher) (u : UploadSettings) (cwd : Place) : Uploader := fun t written =>
  match launch t cwd u.program (u.argsFor written) u.workingDir with
  | .error fault => (.error (.notStarted u.program fault), t)
  | .ok o =>
    let err := Bytes.decode (o.printed .errors)
    if o.exit.succeeded then (.ok ⟨u.program, 0, Bytes.decode (o.printed .output), err⟩, o.tree)
    else (.error (.commandFailed u.program (exitCode? o.exit) err), o.tree)

end UploadSettings

end FlightBlocks
