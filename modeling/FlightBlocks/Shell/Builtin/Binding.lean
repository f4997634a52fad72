import FlightBlocks.Shell.Builtin.Basic
import FlightBlocks.Shell.Descriptor
import FlightBlocks.Shell.Reading
/-!
Commands that set and list variables. All texts are byte texts.
-/

namespace FlightBlocks.Shell

namespace Builtin

open Act

def singleQuoted (s : String) : String :=
  let rec inner : Nat → List Char → List Char
    | 0, _ => []
    | n + 1, cs =>
      let plain := cs.takeWhile (· != '\'')
      let rest := cs.drop plain.length
      let marks := rest.takeWhile (· == '\'')
      let start := if plain.isEmpty && !rest.isEmpty then [] else '\'' :: plain ++ ['\'']
      if rest.isEmpty then start
      else
        let more := rest.drop marks.length
        start ++ ('"' :: marks ++ ['"']) ++ if more.isEmpty then [] else inner n more
  String.ofList (inner (s.length + 1) s.toList)

def listing (command : String) (p : Variable → Bool) : Act Nat := do
  let found := (← get).bindings.filter fun entry => p entry.2
  let lines := (found.mergeSort fun a b => a.1 ≤ b.1).map fun (name, v) =>
    command ++ name ++ (match v.value with
      | some value => "=" ++ singleQuoted value
      | none => "") ++ "\n"
  print (String.join lines)

def marking (command : String) (isMarked : Variable → Bool) (mark : Variable → Variable) :
    Builtin := fun args => do
  let (letters, args) ← options ['p'] [] args
  if args.isEmpty || !letters.isEmpty then return ← listing (command ++ " ") isMarked
  args.forM fun arg => do
    let name ← variableName arg
    match (nameAndValue arg).2 with
    | some value => assign name value
    | none => pure ()
    put name (mark (((← get).bindings.lookup name).getD ⟨none, false, false⟩))
  return 0

def exporting : Builtin :=
  marking "export" Variable.exported fun v => { v with exported := true }

def protecting : Builtin :=
  marking "readonly" Variable.readOnly fun v => { v with readOnly := true }

/-- Makes variables that only the running function has. A dash stands for the options. -/
def localizing : Builtin := fun args => do
  match (← get).hidden with
  | [] => fault "not in a function"
  | frame :: frames =>
    let mut frame := frame
    for arg in args do
      let sh ← get
      if arg == "-" then
        frame := { frame with options? := frame.options?.or (some sh.options) }
        modify fun sh => { sh with hidden := frame :: frames }
      else
        let name ← variableName arg
        if !frame.bindings.any fun entry => entry.1 == name then
          frame := { frame with bindings := (name, sh.bindings.lookup name) :: frame.bindings }
        modify fun sh => { sh with hidden := frame :: frames }
        match (nameAndValue arg).2 with
        | some value => assign name value
        | none => pure ()
    return 0

def unsetting : Builtin := fun args => do
  let (letters, names) ← options ['f', 'v'] [] args
  let isFunction := letters.getLast?.any fun l => l.1 == 'f'
  names.forM fun name => do
    if isFunction then
      modify fun sh =>
        { sh with functions := sh.functions.filter fun entry => entry.1 != name }
    else unset (← variableName name)
  return 0

def read : Builtin := fun args => do
  let (letters, names) ← options ['r'] ['p'] args
  if names.isEmpty then fault "arg count"
  let raw := letters.any fun l => l.1 == 'r'
  let (cs, _) ← match ← remaining 0 with
    | .ok cs => pure (cs, true)
    | .error _ => pure ([], false)
  let l := Reading.line raw cs
  advance 0 l.taken
  let values := Reading.fields (← separators) names.length l.glyphs
  (names.zip values).forM fun (name, value) => do assign (← variableName name) value
  return if l.complete then 0 else 1

end Builtin

end FlightBlocks.Shell
