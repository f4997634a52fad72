import FlightBlocks.Files.Fault
/-!
What can fail when files are found, read and written, and when a written file is handed on.
-/

namespace FlightBlocks

inductive StoreFailure where
  | invalidInput (problem : String)
  | outside (requested base : String)
  | notFound (path : String)
  | io (path : String) (fault : FileFault)
  | notStarted (program : String) (fault : FileFault)
  /-- No exit code means that a signal ended the command. -/
  | commandFailed (program : String) (exitCode : Option Int) (errors : String)
  | tampered (sequence : Nat)
  deriving DecidableEq, Repr

namespace StoreFailure

def showExit : Option Int → String
  | none => "signal"
  | some code => toString code

def message : StoreFailure → String
  | invalidInput problem => "invalid input: " ++ problem
  | outside requested base => "path '" ++ requested ++ "' resolves outside " ++ base
  | notFound path => "file not found: " ++ path
  | io path fault => "io error on " ++ path ++ ": " ++ fault.message
  | notStarted program fault => "failed to spawn '" ++ program ++ "': " ++ fault.message
  | commandFailed program exitCode errors =>
    "'" ++ program ++ "' exited with " ++ showExit exitCode ++ ": " ++ errors
  | tampered sequence => "audit record " ++ toString sequence ++ " failed integrity check"

def isUploadFailure : StoreFailure → Bool
  | notStarted .. => true
  | commandFailed .. => true
  | _ => false

end StoreFailure

end FlightBlocks
