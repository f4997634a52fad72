import FlightBlocks.Shell.Simple
/-!
Running commands. `run` runs the commands inside of a command, and `n` bounds how deep words stand
in words and how often a loop is run. All texts are byte texts. The shell is here for upload
commands that are scripts; it is a program of the machine, and no statement of the library is about
it.
-/

namespace FlightBlocks.Shell

def freeNumber (jobs : List Job) : Nat :=
  let isFree (n : Nat) : Bool :=
    !jobs.any fun job => job.number == n && !(job.waited && job.exit?.isSome)
  ((List.range (jobs.length + 1)).find? fun i => isFree (i + 1)).getD jobs.length + 1

namespace Act

/-- Ends the shell after a failure that nothing looks at, if it is to do so. -/
def leaveAtFailure (c : Context) : Act Unit := do
  let sh ← get
  if sh.status != 0 && !c.tested && sh.options.contains 'e' then throw .shell

section Commands

variable (run : Runner) (n : Nat)

def foresee (command : Command) : Act Unit := do
  match command with
  | .simple _ _ (w :: _) _ =>
    match Word.plainText? w with
    | some cs =>
      let name := String.ofList cs
      if isName cs && !isOrdinary name && !specialNames.contains name then
        let _ ← findProgram true name
    | none => return ()
  | _ => return ()

def pipeline (c : Context) : Option Nat → List Command → Act Unit
  | _, [] => return ()
  | input, command :: rest => do
    foresee command
    let (out, world) := (← get).world.add (.pipe "")
    if !rest.isEmpty then modify fun sh => { sh with world := world }
    let exit ← inSubshell run n do
      match input with
      | some i => setDescriptor 0 i
      | none => pure ()
      if !rest.isEmpty then setDescriptor 1 out
      run ⟨c.tested, true⟩ command
    if rest.isEmpty then conclude ⟨c.tested, false⟩ exit
    else
      match exit with
      | .signal signal => write 2 (Signal.notice signal)
      | .code _ => pure ()
      pipeline c (some out) rest

/-- Runs a command beside the shell, which goes on at once. A command that would not end runs on. -/
def background (command : Command) : Act Unit := do
  let exit? ← tryCatch (do
      return some (← inSubshell run n do
        modify fun sh => { sh with ignored := 2 :: 3 :: sh.ignored }
        provide 0 .nothing
        run ⟨false, true⟩ command))
    fun stop =>
      match stop with
      | .endless => return none
      | stop => throw stop
  modify fun sh =>
    let process := sh.world.nextProcess
    let number := freeNumber sh.jobs
    let others := sh.jobs.filter fun job => job.number != number
    { sh with
      world := { sh.world with nextProcess := process + 1 }
      jobs := ⟨number, process, exit?, false, false⟩ :: others
      background := some process
      status := 0 }

def part (act : Act Unit) : Act Bool := do
  tryCatch (do
      act
      return true)
    fun stop =>
      match stop with
      | .leave 1 => return false
      | .leave (k + 2) => throw (.leave (k + 1))
      | .again 1 => return true
      | .again (k + 2) => throw (.again (k + 1))
      | stop => throw stop

def looping (act : Act Unit) : Act Unit := do
  modify fun sh => { sh with loops := sh.loops + 1 }
  afterwards act (modify fun sh => { sh with loops := sh.loops - 1 })

def whileFrom (c : Context) (stopsAtSuccess : Bool) (test body : Command) : Nat → Nat → Act Unit
  | 0, _ => throw .endless
  | k + 1, status => do
    let holds ← tryCatch (do
        run .test test
        return some (((← get).status == 0) != stopsAtSuccess))
      fun stop =>
        match stop with
        | .leave 1 => return none
        | .leave (k + 2) => throw (.leave (k + 1))
        | .again 1 => return some true
        | .again (k + 2) => throw (.again (k + 1))
        | stop => throw stop
    match holds with
    | none => setStatus 0
    | some false => setStatus status
    | some true =>
      let goesOn ← part (run c.inner body)
      let sh ← get
      if goesOn then whileFrom c stopsAtSuccess test body k sh.status else return ()

def eachOf (c : Context) (name : String) (body : Command) : List String → Act Unit
  | [] => return ()
  | word :: words => do
    assign name word
    if ← part (run c.inner body) then eachOf c name body words else return ()

def choose (c : Context) (text : List Char) :
    List (List Word × Option Command) → Act Unit
  | [] => setStatus 0
  | (patterns, body) :: branches => do
    let found ← patterns.foldlM (fun found w => do
      if found then return true
      else return Pattern.isMatch (← expandPattern (embedded run n) n w) text) false
    if found then
      match body with
      | some body => run c body
      | none => setStatus 0
    else choose c text branches

def commandWith (c : Context) (command : Command) : Act Unit := do
  match command with
  | .simple line as ws rs =>
    simple run n c line as ws rs
    leaveAtFailure c
  | .pipeline cs =>
    pipeline run n c none cs
    leaveAtFailure c
  | .negation command =>
    run .test command
    let sh ← get
    setStatus (if sh.status = 0 then 1 else 0)
  | .sequence first second =>
    run c.inner first
    run c second
  | .both first second =>
    run .test first
    if (← get).status = 0 then run c second
  | .either first second =>
    run .test first
    if (← get).status != 0 then run c second
  | .background command => background run n command
  | .subshell command =>
    conclude c (← inSubshell run n (run ⟨c.tested, true⟩ command))
    leaveAtFailure c
  | .conditional test consequent alternative =>
    run .test test
    if (← get).status = 0 then run c consequent
    else
      match alternative with
      | some alternative => run c alternative
      | none => setStatus 0
  | .loop stopsAtSuccess test body => looping (whileFrom run c stopsAtSuccess test body n 0)
  | .each line name words body =>
    modify fun sh => { sh with line := line }
    let words ← expandWords (embedded run n) n words
    if words.isEmpty then setStatus 0
    looping (eachOf run c name body words)
  | .choice line word branches =>
    modify fun sh => { sh with line := line }
    let text ← expandText (embedded run n) n word
    choose run n c text.toList branches
  | .define name body =>
    modify fun sh =>
      { sh with
        functions := (name, body) :: sh.functions.filter fun entry => entry.1 != name
        status := 0 }
  | .redirected line command rs =>
    modify fun sh => { sh with line := line }
    let made ← redirecting (embedded run n) n rs (run c.inner command)
    if !made then setStatus 2

end Commands

def execute (n : Nat) : Nat → Runner
  | 0, _, _ => throw .endless
  | depth + 1, c, command => do
    if ← isSet 'n' then return
    commandWith (execute n depth) n c command
    deliver (execute n depth) n

end Act

/-- How often a script may run a loop before it counts as endless. -/
def mostRounds : Nat := 1000000

def mostDepth : Nat := 20000

def program : Tool := fun scene args =>
  let w := World.ofTree scene.tree
  let (input, w) := w.add (match (scene.sources.lookup 0).map Source.rest with
    | some (.ok text) => .pipe text
    | _ => .nothing)
  let (out, w) := w.add (.pipe "")
  let (err, w) := w.add (.pipe "")
  let bindings := [("HOME", "/root"), ("PATH", usualPath)].map fun (name, value) =>
    (name, (⟨some value, true, false⟩ : Variable))
  let start := State.fresh w [(0, input), (1, out), (2, err)] scene.cwd 18 [] [] bindings
  let (result, sh) := (Act.shell (Act.execute mostRounds mostDepth) mostRounds args).run start
  let printed (i : Nat) : String :=
    match sh.world.handle i with
    | .pipe content => content
    | _ => ""
  { tree := sh.world.tree
    prints := [⟨.output, printed out⟩, ⟨.errors, printed err⟩]
    taken := [0]
    exit := exitOf result sh.status }

end FlightBlocks.Shell
