import FlightBlocks.Shell.Builtin.Alias
import FlightBlocks.Shell.Builtin.Directory
import FlightBlocks.Shell.Builtin.Flow
import FlightBlocks.Shell.Builtin.Job
import FlightBlocks.Shell.Builtin.Output
import FlightBlocks.Shell.Builtin.Setting
/-!
The commands of the shell itself that run no other commands, by name.
-/

namespace FlightBlocks.Shell

namespace Builtin

open Act

/-- The commands of the shell that fail in a way that ends the shell. -/
def special : List (String × Builtin) :=
  [(":", succeed), ("break", leaving .leave), ("continue", leaving .again),
    ("exit", ending .shell), ("export", exporting), ("local", localizing),
    ("readonly", protecting),
    ("return", returning), ("set", setting), ("shift", shift), ("times", times), ("trap", trap),
    ("unset", unsetting)]

def ordinary : List (String × Builtin) :=
  [("[", bracket), ("alias", aliasing), ("bg", moveJob), ("cd", changeDirectory),
    ("chdir", changeDirectory), ("echo", echo), ("false", fail), ("fg", moveJob),
    ("getopts", getopts), ("jobs", listJobs), ("kill", kill), ("printf", printf),
    ("pwd", workingDirectory), ("read", read), ("test", test), ("true", succeed),
    ("ulimit", limit), ("umask", umask), ("unalias", unaliasing), ("wait", wait)]

end Builtin

end FlightBlocks.Shell
