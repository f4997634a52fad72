import FlightBlocks.Shell.Redirect
/-!
Running scripts line by line, and what a shell does at signals and at its end. `run` runs a command,
and `n` bounds how deep words stand in words. All texts are byte texts.
-/

namespace FlightBlocks.Shell

structure Context where
  /-- Whether a failure is looked at, so that it does not end the shell. -/
  tested : Bool
  last : Bool
  deriving DecidableEq, Repr

namespace Context

def test : Context := ⟨true, false⟩

def inner (c : Context) : Context := { c with last := false }

end Context

abbrev Runner := Context → Command → Act Unit

def exitOf (result : Except Stop Unit) (status : Nat) : Exit :=
  match result with
  | .error (.killed signal) => .signal signal
  | .error .endless => .signal 9
  | _ => .code (status % 256)

inductive Script where
  | text (text : String)
  | input
  | file (path : String)
  deriving DecidableEq, Repr

namespace Act

section Scripts

variable (run : Runner) (n : Nat)

def runLines (c : Context) : Nat → Input → Bool → Act Bool
  | 0, _, _ => throw .endless
  | k + 1, input, ran => do
    let sh ← get
    match readLine { input with aliases := sh.aliases, documents := sh.documents } with
    | .error m =>
      modify fun sh => { sh with line := m.line }
      fault ("Syntax error: " ++ m.fault.message)
    | .ok ((command, ends), input) =>
      modify fun sh => { sh with documents := input.documents }
      match command with
      | some command => run c command
      | none => pure ()
      let ran := ran || command.isSome
      if ends then return ran else runLines c k input ran

def runText (c : Context) (text : String) : Act Unit := do
  let sh ← get
  let ran ← runLines run c n (Input.ofText .script text.toList sh.aliases sh.documents) false
  if !ran then setStatus 0

def runAction (action : String) : Act Unit := do
  let status := (← get).status
  runText run n ⟨false, false⟩ action
  setStatus status

def deliver : Act Unit := do
  let sh ← get
  let mine := sh.world.signals.filter fun s => s.1 == sh.process
  if sh.forked || mine.isEmpty then return
  let others := sh.world.signals.filter fun s => s.1 != sh.process
  set { sh with world := { sh.world with signals := others } }
  mine.forM fun (_, signal) => do
    match ← action? signal with
    | some action => if !action.isEmpty then runAction run n action
    | none => if !Signal.isHarmless signal then throw (.killed signal)

def toTheEnd (act : Act Unit) : Act Unit :=
  afterwards act do
    let sh ← get
    match sh.traps.lookup 0 with
    | some action =>
      modify fun sh => { sh with traps := sh.traps.filter fun trap => trap.1 != 0 }
      if !action.isEmpty then runAction run n action
    | none => pure ()

def embedded (command : Command) : Act Unit := toTheEnd run n (run ⟨false, true⟩ command)

def inSubshell (act : Act Unit) : Act Exit := do
  let (result, inner) ← forking (toTheEnd run n act)
  match result with
  | .error .endless => throw .endless
  | _ => return exitOf result inner.status

/-- Takes the end of a program or another shell for the status; a signal that ended it is said,
unless the shell ends with it. -/
def conclude (c : Context) (exit : Exit) : Act Unit := do
  match exit with
  | .signal signal =>
    if c.last && (← get).traps.isEmpty then throw (.killed signal)
    else write 2 (Signal.notice signal)
  | .code _ => pure ()
  setStatus exit.status

end Scripts

def scriptText (script : Script) : Act String := do
  match script with
  | .text text => return text
  | .input =>
    match ← remaining 0 with
    | .ok cs =>
      advance 0 cs.length
      return String.ofList cs
    | .error _ => return ""
  | .file path =>
    let sh ← get
    match openFile sh.world sh.cwd false .read path with
    | .ok (.file place _ _, _) => return World.content sh.world.tree place
    | .ok _ => return ""
    | .error problem =>
      modify fun sh => { sh with name := "sh" }
      fault (openingComplaint false path problem)

end Act

end FlightBlocks.Shell
