import FlightBlocks.Shell.Builtin.Basic
/-!
Commands that leave loops, functions and the shell, or pass over arguments.
-/

namespace FlightBlocks.Shell

namespace Builtin

open Act

/-- Leaves loops, so many as there are. -/
def leaving (stop : Nat → Stop) : Builtin := fun args => do
  let n ← match args with
    | [] => pure 1
    | arg :: _ => do
      let n ← number arg
      if n = 0 then fault ("Illegal number: " ++ arg)
      pure n
  let loops := (← get).loops
  if loops = 0 then return 0
  setStatus 0
  throw (stop (min n loops))

def ending (stop : Stop) : Builtin := fun args => do
  match args with
  | [] => pure ()
  | arg :: _ => setStatus ((← number arg) % 256)
  throw stop

def returning : Builtin := fun args => do
  match args with
  | [] => pure ()
  | arg :: _ => setStatus (← number arg)
  throw .function

def shift : Builtin := fun args => do
  let n ← match args with
    | [] => pure 1
    | arg :: _ => number arg
  let arguments := (← get).arguments
  if arguments.length < n then fault "can't shift that many"
  setArguments (arguments.drop n)
  return 0

end Builtin

end FlightBlocks.Shell
