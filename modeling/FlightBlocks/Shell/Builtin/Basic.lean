import FlightBlocks.Shell.State
/-!
Commands of the shell itself: how they take their arguments and print. All texts are byte texts.
-/

namespace FlightBlocks.Shell

abbrev Builtin := List String → Act Nat

namespace Act

def print (s : String) : Act Nat := do
  if s.isEmpty || (← writes 1 s) then return 0
  else
    complain (((← get).running.getD "") ++ ": I/O error")
    return 1

/-- The letters of one argument, each with what it needs, and the letter that still needs the next
argument. The error is a letter that is not known. -/
def cluster (letters needy : List Char) :
    List Char → Except Char (List (Char × String) × Option Char)
  | [] => .ok ([], none)
  | c :: cs =>
    if needy.contains c then
      .ok (if cs.isEmpty then ([], some c) else ([(c, String.ofList cs)], none))
    else if letters.contains c then
      (cluster letters needy cs).map fun (more, open') => ((c, "") :: more, open')
    else .error c

/-- The letters among the arguments, each with what it needs, and the other arguments. `letters` are
known; `needy` ones take an argument. -/
def options (letters needy : List Char) : List String → Act (List (Char × String) × List String)
  | [] => return ([], [])
  | "--" :: args => return ([], args)
  | arg :: args => do
    match arg.toList with
    | '-' :: c :: cs =>
      match cluster letters needy (c :: cs), args with
      | .error c, _ => fault ("Illegal option -" ++ c.toString)
      | .ok (_, some c), [] => fault ("No arg for -" ++ c.toString ++ " option")
      | .ok (found, some c), value :: args =>
        let (more, rest) ← options letters needy args
        return (found ++ (c, value) :: more, rest)
      | .ok (found, none), args =>
        let (more, rest) ← options letters needy args
        return (found ++ more, rest)
    | _ => return ([], arg :: args)

def operands (args : List String) : Act (List String) := return (← options [] [] args).2

def number (s : String) : Act Nat := do
  match Number.natural? s with
  | some n => return n
  | none => fault ("Illegal number: " ++ s)

end Act

namespace Builtin

open Act

def setArguments (arguments : List String) : Act Unit :=
  modify fun sh => { sh with arguments := arguments, optionsTaken := 0, lettersTaken := 0 }

def nameAndValue (arg : String) : String × Option String :=
  let name := arg.toList.takeWhile (· != '=')
  let rest := arg.toList.drop name.length
  (String.ofList name, if rest.isEmpty then none else some (String.ofList (rest.drop 1)))

def variableName (arg : String) : Act String := do
  let name := (nameAndValue arg).1
  if !isName name.toList then fault (name ++ ": bad variable name")
  return name

end Builtin

end FlightBlocks.Shell
