import FlightBlocks.Shell.CommandReader
import FlightBlocks.Shell.Number
import FlightBlocks.Shell.Signal
import FlightBlocks.Shell.World
/-!
The state of a shell, and acts on it. An act may stop what the shell is doing: a loop, a function or
the shell itself.
-/

namespace FlightBlocks.Shell

structure Variable where
  value : Option String
  exported : Bool
  readOnly : Bool
  deriving DecidableEq, Repr

structure Tracked where
  name : String
  path : String
  /-- Whether the working directory has changed since. -/
  stale : Bool
  deriving DecidableEq, Repr

structure Job where
  number : Nat
  process : Nat
  exit? : Option Exit
  noted : Bool
  waited : Bool
  deriving DecidableEq, Repr

structure Frame where
  bindings : List (String × Option Variable)
  options? : Option (List Char)

structure State where
  world : World
  name : String
  arguments : List String
  bindings : List (String × Variable)
  functions : List (String × Command)
  aliases : List (String × String)
  documents : List (Nat × Word)
  options : List Char
  descriptors : List (Nat × Nat)
  cwd : Place
  cwdText : String
  status : Nat
  outputStatus : Nat
  background : Option Nat
  jobs : List Job
  traps : List (Nat × String)
  ignored : List Nat
  process : Nat
  ancestors : List Nat
  forked : Bool
  line : Nat
  running : Option String
  loops : Nat
  hidden : List Frame
  tracked : List Tracked
  mask : Nat
  /-- How many arguments `getopts` has taken. -/
  optionsTaken : Nat
  /-- How many characters of the last of them it has taken, or 0 if the rest does not count. -/
  lettersTaken : Nat

/-- What an act may stop. -/
inductive Stop where
  | leave (loops : Nat)
  | again (loops : Nat)
  | function
  | shell
  | failure
  | killed (signal : Nat)
  | endless
  deriving DecidableEq, Repr

abbrev Act := ExceptT Stop (StateM State)

namespace Act

variable {α : Type}

def writes (descriptor : Nat) (text : String) : Act Bool := do
  let sh ← get
  match (sh.descriptors.lookup descriptor).bind fun i => sh.world.write? i text with
  | some world =>
    set { sh with world := world }
    return true
  | none => return false

def write (descriptor : Nat) (text : String) : Act Unit := do
  let _ ← writes descriptor text

def setStatus (n : Nat) : Act Unit := modify fun sh => { sh with status := n }

def action? (signal : Nat) : Act (Option String) := do
  let sh ← get
  if Signal.isCompelling signal then return none
  else if sh.ignored.contains signal then return some ""
  else return sh.traps.lookup signal

def complain (problem : String) : Act Unit := do
  let sh ← get
  let running := (sh.running.map (· ++ ": ")).getD ""
  write 2 (sh.name ++ ": " ++ toString sh.line ++ ": " ++ running ++ problem ++ "\n")

def refuse (problem : String) (status : Nat) : Act α := do
  complain problem
  setStatus status
  throw .failure

def fault (problem : String) : Act α := refuse problem 2

def isSet (letter : Char) : Act Bool := return (← get).options.contains letter

def value? (name : String) : Act (Option String) :=
  return ((← get).bindings.lookup name).bind Variable.value

def put (name : String) (v : Variable) : Act Unit :=
  modify fun sh =>
    { sh with
      bindings := (name, v) :: sh.bindings.filter fun entry => entry.1 != name }

def assign (name : String) (value : String) : Act Unit := do
  let sh ← get
  let old := (sh.bindings.lookup name).getD ⟨none, false, false⟩
  if old.readOnly then fault (name ++ ": is read only")
  put name { old with value := some value, exported := old.exported || sh.options.contains 'a' }
  if name == "OPTIND" then
    match Number.natural? value with
    | some n => modify fun sh => { sh with optionsTaken := n - 1, lettersTaken := 0 }
    | none => fault ("Illegal number: " ++ value)
  if name == "PATH" then modify fun sh => { sh with tracked := [] }

def unset (name : String) : Act Unit := do
  let old := (← get).bindings.lookup name
  if old.any Variable.readOnly then fault (name ++ ": is read only")
  if name == "OPTIND" then fault "Illegal number: "
  modify fun sh =>
    { sh with bindings := sh.bindings.filter fun entry => entry.1 != name }

/-- Runs an act in a shell of its own, and keeps nothing but what all shells share. -/
def forking (act : Act α) : Act (Except Stop α × State) := do
  let sh ← get
  let traps := sh.traps.filter fun trap => trap.2.isEmpty
  let (result, inner) := act.run { sh with forked := true, traps := traps }
  set { sh with world := inner.world }
  return (result, inner)

def afterwards (act : Act α) (finish : Act Unit) : Act α := do
  let result ← tryCatch (do return Except.ok (← act)) fun stop => return Except.error stop
  finish
  match result with
  | .ok a => return a
  | .error stop => throw stop

def separator : Act String := do
  match ← value? "IFS" with
  | none => return " "
  | some s => return String.ofList (s.toList.take 1)

def separators : Act (List Char) := do
  match ← value? "IFS" with
  | none => return [' ', '\t', '\n']
  | some s => return s.toList

end Act

end FlightBlocks.Shell
