import FlightBlocks.Shell.Builtin.Table
import FlightBlocks.Shell.Search
/-!
What a word is as the name of a command. All texts are byte texts.
-/

namespace FlightBlocks.Shell

def isOrdinary (name : String) : Bool :=
  (Builtin.ordinary.lookup name).isSome || ["command", "hash", "type"].contains name

/-- The words of a command, and whether it looks past functions and special commands. -/
structure Target where
  words : List String
  isPlain : Bool

def commanded? : List String → Option (List String)
  | [] => none
  | "--" :: words => if words.isEmpty then none else some words
  | word :: words =>
    match word.toList with
    | '-' :: c :: cs => if (c :: cs).all (· == 'p') then commanded? words else none
    | _ => some (word :: words)

def target : Nat → List String → Target
  | n + 1, "command" :: rest =>
    match commanded? rest with
    | some words => ⟨(target n words).words, true⟩
    | none => ⟨"command" :: rest, true⟩
  | _, words => ⟨words, false⟩

def takesAssignments (words : List String) : Bool :=
  (target words.length words).words.head?.any
    fun name => ["export", "readonly", "local", "alias"].contains name

namespace Act

def describe (brief : Bool) (name : String) : Act Nat := do
  let sh ← get
  let say (text : String) : Act Nat := do print ((if brief then text else name ++ text) ++ "\n")
  let isUnknown : Act Nat := do
    if !brief then
      let _ ← print (name ++ ": not found\n")
    return 127
  if keywords.contains name then say (if brief then name else " is a shell keyword")
  else if let some text := sh.aliases.lookup name then
    say (if brief then "alias " ++ name ++ "=" ++ Builtin.singleQuoted text
      else " is an alias for " ++ text)
  else if (sh.functions.lookup name).isSome then
    say (if brief then name else " is a shell function")
  else if specialNames.contains name then
    say (if brief then name else " is a special shell builtin")
  else if isOrdinary name then
    say (if brief then name else " is a shell builtin")
  else if hasSlash name then
    if leadsSomewhere sh.world.tree sh.cwd name then say (if brief then name else " is " ++ name)
    else isUnknown
  else
    let isTracked := sh.tracked.any fun known => known.name == name
    match ← findProgram true name with
    | .ok found =>
      say (if brief then found.path
        else (if isTracked then " is a tracked alias for " else " is ") ++ found.path)
    | .error _ => isUnknown

def describeAll (brief : Bool) (names : List String) : Act Unit := do
  setStatus ((← names.mapM (describe brief)).foldl max 0)

def track (args : List String) : Act Unit := do
  let (letters, names) ← options ['r'] [] args
  if !letters.isEmpty then modify fun sh => { sh with tracked := [] }
  else if names.isEmpty then
    let known := (← get).tracked.mergeSort fun a b =>
      Builtin.row 31 a.name ≤ Builtin.row 31 b.name
    setStatus (← print (String.join (known.map fun found =>
      found.path ++ (if found.stale then "*\n" else "\n"))))
  else
    setStatus 0
    names.forM fun name => do
      let sh ← get
      let isOwn := (sh.functions.lookup name).isSome || specialNames.contains name ||
        isOrdinary name
      if !isOwn && !hasSlash name then
        match ← findProgram true name with
        | .ok _ => return ()
        | .error problem =>
          complain (name ++ ": " ++ problem.phrase)
          setStatus 1

def commandItself (args : List String) : Act Unit := do
  let (letters, names) ← options ['v', 'V', 'p'] [] args
  let letters := letters.map (·.1)
  if letters.contains 'v' then describeAll true (names.take 1)
  else if letters.contains 'V' then describeAll false (names.take 1)
  else setStatus 0

end Act

end FlightBlocks.Shell
