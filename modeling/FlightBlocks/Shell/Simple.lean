import FlightBlocks.Shell.Name
import FlightBlocks.Shell.Program
/-!
Running simple commands: functions, commands of the shell itself and programs, with assignments and
redirections. `run` runs a command, and `n` bounds how deep words stand in words. All texts are
byte texts.
-/

namespace FlightBlocks.Shell

def mostCalls : Nat := 1000

namespace Act

/-- What stands in front of what is run, when the shell says so. Its expansions are not traced, and
a failure in them leaves it as it is. -/
def traceStart (run : Command → Act Unit) (n : Nat) : Act String := do
  let sh ← get
  let text := (← value? "PS4").getD "+ "
  match readText text sh.documents with
  | .error m =>
    complain ("Syntax error: " ++ m.fault.message)
    return text
  | .ok (w, documents) =>
    set { sh with documents := documents, options := sh.options.filter (· != 'x') }
    afterwards (tryCatch (expandDocument run n w) fun _ => return text)
      (modify fun after => { after with options := sh.options })

def trace (run : Command → Act Unit) (n : Nat) (assignments : List (String × String))
    (words : List String) : Act Unit := do
  if ← isSet 'x' then
    let start ← traceStart run n
    let parts := assignments.map (fun (name, value) => name ++ "=" ++ value) ++ words
    write 2 (start ++ String.intercalate " " parts ++ "\n")

/-- Runs an act with variables that last as long as it does. -/
def keeping (names : List String) (act : Act Unit) : Act Unit := do
  let before ← get
  afterwards act do
    modify fun sh =>
      let others := sh.bindings.filter fun entry => !names.contains entry.1
      { sh with
        bindings := before.bindings.filter (fun entry => names.contains entry.1) ++ others
        tracked := if names.contains "PATH" then before.tracked else sh.tracked }

def assignAll (run : Command → Act Unit) (n : Nat) (exports : Bool)
    (as : List (String × Word)) : Act (List (String × String)) :=
  as.mapM fun (name, w) => do
    let value ← expandValue run n w
    assign name value
    if exports then
      put name { ((← get).bindings.lookup name).getD ⟨none, false, false⟩ with exported := true }
    return (name, value)

section Commands

variable (run : Runner) (n : Nat)

def call (c : Context) (body : Command) (args : List String) : Act Unit := do
  let before ← get
  if before.hidden.length ≥ mostCalls then
    fault ("Maximum function recursion depth (" ++ toString mostCalls ++ ") reached")
  Builtin.setArguments args
  modify fun sh => { sh with loops := 0, hidden := ⟨[], none⟩ :: sh.hidden }
  let restore : Act Unit := modify fun sh =>
    let frame := sh.hidden.headD ⟨[], none⟩
    let others := sh.bindings.filter fun entry => !frame.bindings.any fun f => f.1 == entry.1
    let shown := frame.bindings.filterMap fun (name, v) => v.map fun v => (name, v)
    { sh with
      arguments := before.arguments, optionsTaken := before.optionsTaken
      lettersTaken := before.lettersTaken, loops := before.loops, hidden := before.hidden
      bindings := shown ++ others, options := frame.options?.getD sh.options }
  afterwards
    (tryCatch (run c.inner body) fun stop =>
      match stop with
      | .function => return ()
      | stop => throw stop)
    restore

def source (args : List String) : Act Unit := do
  match ← operands args with
  | [] => return ()
  | path :: _ =>
    let sh ← get
    let found ← if hasSlash path then pure path else do
      match scriptNamed? sh.world.tree sh.cwd path (← directories) with
      | some found => pure found
      | none => fault (path ++ ": not found")
    match openFile sh.world sh.cwd false .read found with
    | .ok (.file place _ _, _) =>
      tryCatch (runText run n ⟨false, false⟩ (World.content sh.world.tree place)) fun stop =>
        match stop with
        | .function => return ()
        | stop => throw stop
    | .ok _ => return ()
    | .error problem => fault (openingComplaint false path problem)

def compound? (c : Context) (name : String) (args : List String) : Option (Act Unit) :=
  if name == "eval" then
    some (do runText run n c.inner (String.intercalate " " (← operands args)))
  else if name == "." then some (source run n args)
  else if name == "exec" then
    some do
      match ← operands args with
      | [] => setStatus 0
      | name :: args =>
        match ← findProgram false name with
        | .ok found =>
          let exit ← useProgram run n found.program name args
          modify fun sh => { sh with traps := [] }
          conclude ⟨c.tested, true⟩ exit
          throw .shell
        | .error problem => refuse (name ++ ": " ++ problem.phrase) problem.status
  else if name == "type" then some (describeAll false args)
  else if name == "hash" then some (track args)
  else none

def own? (c : Context) (name : String) (args : List String) : Option (Act Unit) :=
  let simple := (Builtin.special.lookup name).or (Builtin.ordinary.lookup name)
  (simple.map fun b => do setStatus (← b args)).or (compound? run n c name args)

def runOwn (isFatal : Bool) (name : String) (act : Act Unit) : Act Unit := do
  let before := (← get).running
  modify fun sh => { sh with running := some name }
  let restore : Act Unit := modify fun sh => { sh with running := before }
  tryCatch (afterwards act restore) fun stop =>
    match stop with
    | .failure => if isFatal then throw .failure else return ()
    | stop => throw stop

def commandWords (ws : List Word) : Act (List String) :=
  ws.foldlM (fun words w => do
    match if takesAssignments words then w.assignment? else none with
    | some (name, value) =>
      return words ++ [name ++ "=" ++ (← expandValue (embedded run n) n value)]
    | none => return words ++ (← expandWord (embedded run n) n w)) []

def perform (c : Context) (t : Target) (as : List (String × Word)) (rs : List Redirection) :
    Act Unit := do
  let inner := embedded run n
  let name := t.words.headD ""
  let args := t.words.tail
  let special := specialNames.contains name && !t.isPlain
  let sh ← get
  let body := if t.isPlain then none else sh.functions.lookup name
  let names := as.map (·.1)
  let assigning (exports : Bool) (act : Act Unit) : Act Unit := do
    let assigned ← assignAll inner n exports as
    trace inner n assigned t.words
    act
  let act : Act Unit :=
    if special then
      match own? run n c name args with
      | some act => assigning false (runOwn true name act)
      | none => return ()
    else
      match body, own? run n c name args with
      | some body, _ => keeping names (assigning true (call run c body args))
      | none, some act => keeping names (assigning false (runOwn false name act))
      | none, none =>
        if name == "command" then runOwn false name (commandItself args)
        else keeping names (assigning true (external run n c name args))
  if name == "exec" && args.isEmpty then
    (← rs.mapM (route inner n)).forM (redirect inner n)
    act
  else
    let made ← redirecting inner n rs act
    if !made then
      setStatus 2
      if special then throw .failure

def simple (c : Context) (line : Nat) (as : List (String × Word)) (ws : List Word)
    (rs : List Redirection) : Act Unit := do
  let inner := embedded run n
  modify fun sh => { sh with line := line, outputStatus := 0 }
  let words ← commandWords run n ws
  if words.isEmpty then
    let made ← redirecting inner n rs do
      let assigned ← assignAll inner n false as
      trace inner n assigned []
    let sh ← get
    setStatus (if made then sh.outputStatus else 2)
  else perform run n c (target words.length words) as rs

end Commands

end Act

end FlightBlocks.Shell
