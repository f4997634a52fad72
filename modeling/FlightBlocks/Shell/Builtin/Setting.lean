import FlightBlocks.Shell.Builtin.Binding
import FlightBlocks.Shell.Switch
/-!
Commands for options: those of the shell, and those among arguments. All texts are byte texts.
-/

namespace FlightBlocks.Shell

namespace Builtin

open Act

def optionLine (isSet : Char → Bool) (o : Char × String) : String :=
  o.2 ++ String.ofList (List.replicate (16 - o.2.length) ' ') ++
    (if isSet o.1 then "on" else "off") ++ "\n"

def setOption (on : Bool) (letter : Char) : Act Unit := do
  if on && letter == 'm' then complain "can't access tty; job control turned off"
  else
    modify fun sh =>
      let others := sh.options.filter (· != letter)
      { sh with options := if on then letter :: others else others }

def optionLines (on : Bool) (isSet : Char → Bool) : String :=
  if on then "Current option settings\n" ++ String.join (Switch.all.map (optionLine isSet))
  else
    String.join (Switch.all.map fun o =>
      "set " ++ (if isSet o.1 then "-o " else "+o ") ++ o.2 ++ "\n")

def switch : Switch → Act Unit
  | .letter on c => do
    if !Switch.letters.contains c then fault ("Illegal option -" ++ c.toString)
    setOption on c
    if on && c == 'V' then setOption false 'E'
    if on && c == 'E' then setOption false 'V'
  | .named on name => do
    match Switch.all.find? fun o => o.2 == name with
    | some o => setOption on o.1
    | none => fault ("Illegal option -o " ++ name)
  | .listing on => do
    let sh ← get
    let _ ← print (optionLines on sh.options.contains)
  | .quiet => do
    setOption false 'x'
    setOption false 'v'

def setting : Builtin := fun args => do
  if args.isEmpty then return ← listing "" fun v => v.value.isSome
  let (switches, arguments?) := Switch.ofArguments args.length args
  switches.forM switch
  match arguments? with
  | some arguments => setArguments arguments
  | none => pure ()
  return 0

/-- The letter that `getopts` has found, and what goes with it. -/
structure Found where
  letter : Char
  argument : Option String
  complaint : Option String
  taken : Nat
  letters : Nat
  isEnd : Bool

def nextOption (known : List Char) (args : List String) (index letters : Nat) : Found :=
  let quiet := known.head? == some ':'
  let word (i : Nat) : List Char := ((args[i]?).map String.toList).getD []
  let inside := letters > 0 && index > 0 && (word (index - 1)).length > letters
  let atEnd (taken : Nat) : Found := ⟨'?', none, none, taken, 0, true⟩
  let position : Option (Nat × Nat) :=
    if inside then some (index - 1, letters)
    else
      match word index with
      | '-' :: _ :: _ => some (index, 1)
      | _ => none
  match position with
  | none => atEnd index
  | some (i, k) =>
    if !inside && word i == ['-', '-'] then atEnd (i + 1)
    else
      let letter := (word i).getD k '?'
      let rest := (word i).drop (k + 1)
      let after := k + 1
      match known.findIdx? fun c => c == letter && letter != ':' with
      | none =>
        if quiet then ⟨'?', some letter.toString, none, i + 1, after, false⟩
        else
          ⟨'?', none, some ("Illegal option -" ++ letter.toString), i + 1, after, false⟩
      | some at' =>
        if known[at' + 1]? == some ':' then
          if !rest.isEmpty then ⟨letter, some (String.ofList rest), none, i + 1, 0, false⟩
          else
            match args[i + 1]? with
            | some value => ⟨letter, some value, none, i + 2, 0, false⟩
            | none =>
              if quiet then ⟨':', some letter.toString, none, i + 1, 0, false⟩
              else
                ⟨'?', none, some ("No arg for -" ++ letter.toString ++ " option"), i + 1, 0, false⟩
        else ⟨letter, some "", none, i + 1, after, false⟩

def getopts : Builtin := fun args => do
  match args with
  | known :: name :: rest =>
    let sh ← get
    let args := if rest.isEmpty then sh.arguments else rest
    let (taken, letters) :=
      if sh.optionsTaken > args.length then (0, 0) else (sh.optionsTaken, sh.lettersTaken)
    let found := nextOption known.toList args taken letters
    match found.complaint with
    | some text => write 2 (text ++ "\n")
    | none => pure ()
    if !found.isEnd then
      match found.argument with
      | some value => assign "OPTARG" value
      | none => unset "OPTARG"
    assign "OPTIND" (toString (found.taken + 1))
    modify fun sh => { sh with optionsTaken := 0, lettersTaken := 0 }
    assign (← variableName name) found.letter.toString
    modify fun sh => { sh with optionsTaken := found.taken, lettersTaken := found.letters }
    return if found.isEnd then 1 else 0
  | _ => fault "Usage: getopts optstring var [arg...]"

end Builtin

end FlightBlocks.Shell
