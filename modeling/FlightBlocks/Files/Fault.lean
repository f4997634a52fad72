/-!
Why an access to the files can fail, in the words of the operating system.
-/

namespace FlightBlocks

inductive FileFault where
  | notFound
  | permission
  | exists
  | notDirectory
  | isDirectory
  | nameTooLong
  | linkLoop
  /-- Links that lead on for ever, found without the system's help. -/
  | endlessLinks
  | notText
  | nulInName
  | nulInCommand
  | other (message : String)
  deriving DecidableEq, Repr

namespace FileFault

def number? : FileFault → Option Nat
  | notFound => some 2
  | permission => some 13
  | «exists» => some 17
  | notDirectory => some 20
  | isDirectory => some 21
  | nameTooLong => some 36
  | linkLoop => some 40
  | _ => none

def phrase : FileFault → String
  | notFound => "No such file or directory"
  | permission => "Permission denied"
  | «exists» => "File exists"
  | notDirectory => "Not a directory"
  | isDirectory => "Is a directory"
  | nameTooLong => "File name too long"
  | linkLoop => "Too many levels of symbolic links"
  | endlessLinks => "too many levels of symbolic links"
  | notText => "stream did not contain valid UTF-8"
  | nulInName => "file name contained an unexpected NUL byte"
  | nulInCommand => "nul byte found in provided data"
  | other message => message

def message (fault : FileFault) : String :=
  match fault.number? with
  | none => fault.phrase
  | some n => fault.phrase ++ " (os error " ++ toString n ++ ")"

end FileFault

end FlightBlocks
