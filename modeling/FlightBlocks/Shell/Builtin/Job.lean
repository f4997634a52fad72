import FlightBlocks.Shell.Builtin.Binding
/-!
Commands for what runs in the background, and for signals. All texts are byte texts.
-/

namespace FlightBlocks.Shell

namespace Builtin

open Act

def jobNamed (spec : String) : Act Job := do
  let jobs := (← get).jobs
  let found := (spec.toList.drop 1 |> String.ofList).toNat?.bind fun n =>
    jobs.find? fun job => job.number == n
  if spec == "%" || spec == "%%" || spec == "%+" then
    match jobs with
    | job :: _ => return job
    | [] => fault "No current job"
  else if spec == "%-" then
    match jobs with
    | _ :: job :: _ => return job
    | _ => fault "No previous job"
  else
    match if spec.startsWith "%" then found else none with
    | some job => return job
    | none => fault ("No such job: " ++ spec)

def setJob (job : Job) : Act Unit :=
  modify fun sh =>
    { sh with jobs := sh.jobs.map fun other => if other.number == job.number then job else other }

def jobState (job : Job) : String :=
  match job.exit?, job.noted with
  | some (.code 0), true => "Done"
  | some (.code n), true => "Done(" ++ toString n ++ ")"
  | some (.signal n), true => Signal.effect n
  | _, _ => "Running"

def showJob (onlyProcess : Bool) (job : Job) : Act Nat := do
  let jobs := (← get).jobs
  let isOther (other : Job) : Bool := other.number != job.number
  let mark :=
    if !jobs.head?.any isOther then " + " else if !(jobs[1]?).any isOther then " - " else "   "
  let line := "[" ++ toString job.number ++ "]" ++ mark ++ jobState job
  if job.noted && job.exit?.isSome then modify fun sh => { sh with jobs := jobs.filter isOther }
  if onlyProcess then print (toString job.process ++ "\n")
  else print (line ++ String.ofList (List.replicate (max 1 (33 - line.length)) ' ') ++ "\n")

def listJobs : Builtin := fun args => do
  let (letters, args) ← options ['l', 'p'] [] args
  let onlyProcess := letters.getLast?.any fun l => l.1 == 'p'
  if args.isEmpty then
    let _ ← (← get).jobs.mapM (showJob onlyProcess)
  else
    for arg in args do
      let _ ← showJob onlyProcess (← jobNamed arg)
  return 0

/-- Refuses to bring a command to the front or the background, which needs job control. -/
def moveJob : Builtin := fun args => do
  let args ← operands args
  let _ ← jobNamed (args.headD "%")
  fault ("job " ++ args.headD "(null)" ++ " not created under job control")

def killUsage : String :=
  "Usage: kill [-s sigspec | -signum | -sigspec] [pid | job]... or\nkill -l [exitstatus]"

def processNamed (target : String) : Act Nat := do
  if target.startsWith "%" then return (← jobNamed target).process
  else number (if target.startsWith "-" then (target.drop 1).toString else target)

def signalJob (signal : Nat) (job : Job) : Act Nat := do
  if job.noted then
    complain "No such process\n"
    return 1
  if job.exit?.isNone && !Signal.isHarmless signal && signal != 2 && signal != 3 then
    setJob { job with exit? := some (.signal signal) }
  return 0

def send (signal : Nat) (target : String) : Act Nat := do
  let process ← processNamed target
  let sh ← get
  let isAncestor := sh.ancestors.contains process
  if process != sh.process && !isAncestor then
    match sh.jobs.find? fun job => job.process == process with
    | some job => return ← signalJob signal job
    | none =>
      complain "No such process\n"
      return 1
  if !Signal.isHarmless signal then
    match ← action? signal, sh.forked || isAncestor with
    | none, false => throw (.killed signal)
    | _, _ =>
      modify fun sh =>
        { sh with world := { sh.world with signals := sh.world.signals ++ [(process, signal)] } }
  return 0

def signalNamed (least : Nat) (s : String) : Act Nat := do
  match Signal.ofText? least s with
  | some n => return n
  | none => fault ("invalid signal number or name: " ++ s)

def listSignals (args : List String) : Act Nat := do
  match args with
  | [] => print ("0\n" ++ String.join (Signal.names.tail.map (· ++ "\n")))
  | arg :: _ =>
    let n ← number arg
    let n := if n > 128 then n - 128 else n
    if 0 < n && n < Signal.names.length then print (Signal.name n ++ "\n")
    else fault ("invalid signal number or exit status: " ++ arg)

def kill : Builtin := fun args => do
  let toAll (signal : Nat) (targets : List String) : Act Nat := do
    if targets.isEmpty then fault killUsage
    return (← targets.mapM (send signal)).foldl max 0
  match args with
  | [] => fault killUsage
  | first :: rest =>
    match first.toList with
    | '-' :: cs =>
      match Signal.ofText? 1 (String.ofList cs) with
      | some signal => toAll signal rest
      | none =>
        let (letters, operands) ← options ['l'] ['s'] args
        if letters.any fun l => l.1 == 'l' then listSignals operands
        else
          match letters.getLast? with
          | some (_, name) => toAll (← signalNamed 1 name) operands
          | none => toAll 15 operands
    | _ => toAll 15 args

def trapLine (trap : Nat × String) : String :=
  "trap -- " ++ singleQuoted trap.2 ++ " " ++ Signal.name trap.1 ++ "\n"

def trap : Builtin := fun args => do
  let args ← operands args
  match args with
  | [] =>
    let traps := (← get).traps.mergeSort fun a b => a.1 ≤ b.1
    print (String.join (traps.map trapLine))
  | first :: rest =>
    let isSignal := rest.isEmpty || (!first.isEmpty && first.toList.all Char.isDigit)
    let action := if isSignal || first == "-" then none else some first
    let mut status := 0
    for arg in if isSignal then args else rest do
      match Signal.ofText? 0 arg with
      | none =>
        write 2 ("trap: " ++ arg ++ ": bad trap\n")
        return 1
      | some signal =>
        modify fun sh =>
          let others := sh.traps.filter fun trap => trap.1 != signal
          { sh with traps := match action with
              | some action => (signal, action) :: others
              | none => others }
        status := 0
    return status

def waitFor (job : Job) : Act Nat := do
  match job.exit? with
  | none => throw .endless
  | some exit =>
    match exit, job.noted with
    | .signal n, false => write 2 (Signal.notice n)
    | _, _ => pure ()
    setJob { job with noted := true, waited := true }
    return exit.status

def wait : Builtin := fun args => do
  let args ← operands args
  let jobs := (← get).jobs
  if args.isEmpty then
    if jobs.any fun job => job.exit?.isNone then throw .endless
    modify fun sh =>
      { sh with jobs := jobs.map fun job => { job with noted := true, waited := true } }
  let mut status := 0
  for arg in args do
    if arg.startsWith "%" then status ← waitFor (← jobNamed arg)
    else
      let process ← number arg
      match jobs.find? fun job => job.process == process with
      | some job => status ← waitFor job
      | none => status := 127
  return status

end Builtin

end FlightBlocks.Shell
