import FlightBlocks.Shell.Builtin.Binding
/-!
Commands for aliases. All texts are byte texts.
-/

namespace FlightBlocks.Shell

namespace Builtin

open Act

/-- The place of a name among `n` rows of names, in whose order names are listed. -/
def row (n : Nat) (name : String) : Nat :=
  let codes := name.toList.map Char.toNat
  (codes.headD 0 * 16 + codes.foldl Nat.add 0) % n

def setAlias (name value : String) : Act Unit :=
  modify fun sh =>
    if (sh.aliases.lookup name).isSome then
      { sh with
        aliases := sh.aliases.map fun entry => if entry.1 == name then (name, value) else entry }
    else { sh with aliases := sh.aliases ++ [(name, value)] }

def aliasing : Builtin := fun args => do
  let shown (a : String × String) : String := a.1 ++ "=" ++ singleQuoted a.2 ++ "\n"
  if args.isEmpty then
    let inRows := (← get).aliases.mergeSort fun a b => row 39 a.1 ≤ row 39 b.1
    return ← print (String.join (inRows.map shown))
  let mut status := 0
  for arg in args do
    let (rest, value?) := nameAndValue (arg.drop 1).toString
    let name := (arg.take 1).toString ++ rest
    match value?, (← get).aliases.lookup name with
    | some value, _ => setAlias name value
    | none, some value =>
      let _ ← print (shown (name, value))
    | none, none =>
      write 2 ("alias: " ++ name ++ " not found\n")
      status := 1
  return status

def unaliasing : Builtin := fun args => do
  let (letters, names) ← options ['a'] [] args
  if !letters.isEmpty then
    modify fun sh => { sh with aliases := [] }
    return 0
  let mut status := 0
  for name in names do
    let sh ← get
    if (sh.aliases.lookup name).isNone then
      write 2 ("unalias: " ++ name ++ " not found\n")
      status := 1
    modify fun sh => { sh with aliases := sh.aliases.filter fun entry => entry.1 != name }
  return status

end Builtin

end FlightBlocks.Shell
