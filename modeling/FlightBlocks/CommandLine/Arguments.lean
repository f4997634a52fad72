/-!
Reading the arguments of the command line from left to right. An option takes the argument right
behind it, or the text attached to it. A value that stands alone is judged only when the next
argument of its level has been reached.
-/

namespace FlightBlocks.CommandLine

inductive Taking where
  | nothing
  | text
  | path
  | number
  deriving DecidableEq, Repr

structure Switch where
  long : String
  short : Option Char
  taking : Taking
  deriving DecidableEq, Repr

abbrev Given := List (String × String)

/-- An option that waits for its value, or for its value to be judged. -/
structure Reading where
  given : Given
  pending : Option (Switch × Option String)
  deriving DecidableEq, Repr

inductive Ending where
  | refused
  | help
  | version
  | complete (given : Given)
  | entered (command : String) (reading : Reading) (rest : List String)
  deriving DecidableEq, Repr

def wordLimit : Nat := UInt64.size

/-- A number below `2 ^ 64`, in decimal digits; a plus sign may stand in front. -/
def number? (s : String) : Option Nat :=
  let digits : List Char := match s.toList with
    | '+' :: cs => cs
    | cs => cs
  let n := digits.foldl (fun n c => n * 10 + (c.toNat - 48)) 0
  if digits.isEmpty ∨ !digits.all Char.isDigit ∨ n ≥ wordLimit then none else some n

def accepts (taking : Taking) (value : String) : Bool :=
  match taking with
  | .nothing => false
  | .text => true
  | .path => !value.isEmpty
  | .number => (number? value).isSome

def helpSwitch : Switch := ⟨"help", some 'h', .nothing⟩

def versionSwitch : Switch := ⟨"version", some 'V', .nothing⟩

namespace Reading

def empty : Reading := ⟨[], none⟩

def record (r : Reading) (s : Switch) (value : String) : Option Reading :=
  if (r.given.lookup s.long).isSome then none
  else some { r with given := r.given ++ [(s.long, value)] }

def recordValue (r : Reading) (s : Switch) (value : String) : Option Reading :=
  if accepts s.taking value then r.record s value else none

def settle (r : Reading) : Option Reading :=
  match r.pending with
  | none => some r
  | some (_, none) => none
  | some (s, some value) => ({ r with pending := none } : Reading).recordValue s value

end Reading

/-- Whether an argument cannot be an option. -/
def isValue (token : String) : Bool := token == "-" || !token.startsWith "-"

inductive Effect where
  | read (reading : Reading)
  | stop (ending : Ending)

def flag (r : Reading) (s : Switch) : Effect :=
  if s == helpSwitch then .stop .help
  else if s == versionSwitch then .stop .version
  else
    match r.record s "" with
    | some r => .read r
    | none => .stop .refused

def attached (r : Reading) (s : Switch) (value : String) : Effect :=
  match r.recordValue s value with
  | some r => .read r
  | none => .stop .refused

def longOption (switches : List Switch) (r : Reading) (body : List Char) : Effect :=
  let name := String.ofList (body.takeWhile (· != '='))
  match switches.find? fun s => s.long == name, r.settle with
  | some s, some r =>
    match body.dropWhile (· != '=') with
    | [] => if s.taking = .nothing then flag r s else .read { r with pending := some (s, none) }
    | _ :: value => attached r s (String.ofList value)
  | _, _ => .stop .refused

def shortOptions (switches : List Switch) : Reading → List Char → Effect
  | r, [] => .read r
  | r, c :: cs =>
    match switches.find? fun s => s.short == some c, r.settle with
    | some s, some r =>
      if s.taking = .nothing then
        match flag r s with
        | .read r => shortOptions switches r cs
        | stop => stop
      else
        match cs with
        | [] => .read { r with pending := some (s, none) }
        | '=' :: value => attached r s (String.ofList value)
        | value => attached r s (String.ofList value)
    | _, _ => .stop .refused

def completed (r : Reading) : Ending :=
  match r.settle with
  | some r => .complete r.given
  | none => .refused

/-- Reads the arguments of a level, up to the command that opens the next one. -/
def readLevel (switches : List Switch) (commands : List String) : Reading → List String → Ending
  | r, [] => completed r
  | r, token :: rest =>
    match r.pending with
    | some (s, none) =>
      if isValue token then
        readLevel switches commands { r with pending := some (s, some token) } rest
      else .refused
    | _ =>
      if commands.contains token then .entered token r rest
      else if token == "--" then (if rest.isEmpty then completed r else .refused)
      else
        let effect := match token.toList with
          | '-' :: '-' :: body => longOption switches r body
          | '-' :: c :: cs => shortOptions switches r (c :: cs)
          | _ => .stop .refused
        match effect with
        | .read r => readLevel switches commands r rest
        | .stop ending => ending

end FlightBlocks.CommandLine
