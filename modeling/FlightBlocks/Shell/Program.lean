import FlightBlocks.Machine.Remove
import FlightBlocks.Machine.Tools
import FlightBlocks.Shell.Builtin.Table
import FlightBlocks.Shell.Script
import FlightBlocks.Shell.Search
/-!
Programs as commands, a shell among them. All texts are byte texts.
-/

namespace FlightBlocks.Shell

def tools : List (String × Tool) :=
  [("echo", Tools.echo), ("true", Tools.succeed), ("false", Tools.fail), ("cat", Tools.cat),
    ("pwd", Tools.pwd), ("rm", Tools.rm)]

def State.sink (sh : State) : Sink :=
  match sh.descriptors.lookup 1 with
  | none => .closed
  | some i =>
    match sh.world.handle i with
    | .file place _ _ => .file place
    | _ => .stream

structure Start where
  script : Script
  name : String
  arguments : List String

def Start.ofOperands (isText isInput : Bool) : List String → Except String Start
  | [] => if isText then .error "-c requires an argument" else .ok ⟨.input, "sh", []⟩
  | first :: rest =>
    if isText then .ok ⟨.text first, rest.headD "sh", rest.drop 1⟩
    else if isInput then .ok ⟨.input, "sh", first :: rest⟩
    else .ok ⟨.file first, first, rest⟩

def State.namedDirectory (sh : State) : String :=
  let named := (sh.bindings.lookup "PWD").bind Variable.value
  let isHere (path : String) : Bool :=
    match Scene.reach sh.world.tree sh.cwd true path with
    | .ok (.entry place) => path.startsWith "/" && place == sh.cwd
    | _ => false
  match named with
  | some path => if isHere path then path else Scene.placeText sh.cwd
  | none => Scene.placeText sh.cwd

def State.fresh (world : World) (descriptors : List (Nat × Nat)) (cwd : Place) (mask : Nat)
    (ignored ancestors : List Nat) (bindings : List (String × Variable)) : State :=
  let sh : State :=
    { world := { world with nextProcess := world.nextProcess + 1 }
      name := "sh", arguments := [], bindings := bindings, functions := [], aliases := []
      documents := [], options := [], descriptors := descriptors, cwd := cwd, cwdText := ""
      status := 0, outputStatus := 0, background := none, jobs := [], traps := []
      ignored := ignored, process := world.nextProcess, ancestors := ancestors, forked := false
      line := 0, running := none, loops := 0, hidden := [], tracked := [], mask := mask
      optionsTaken := 0, lettersTaken := 0 }
  let named := sh.namedDirectory
  let set (name value : String) (vs : List (String × Variable)) : List (String × Variable) :=
    (name, ⟨some value, name == "PWD" || (vs.lookup name).any Variable.exported, false⟩) ::
      vs.filter fun entry => entry.1 != name
  let values : List (String × String) :=
    [("IFS", " \t\n"), ("OPTIND", "1"), ("PPID", toString (ancestors.headD 1)), ("PS1", "# "),
      ("PS2", "> "), ("PS4", "+ "), ("PWD", named)]
  { sh with
    cwdText := named
    bindings := values.foldl (fun vs (name, value) => set name value vs) bindings }

namespace Act

def useTool (tool : Tool) (name : String) (args : List String) : Act Exit := do
  let sh ← get
  let sources := sh.descriptors.map fun (d, i) => (d, sh.world.source i)
  let o := tool ⟨name, sh.world.tree, sh.cwd, sources, sh.sink⟩ args
  modify fun sh => { sh with world := sh.world.withTree o.tree }
  o.taken.forM fun d =>
    match (sources.lookup d).map Source.rest with
    | some (.ok text) => advance d text.length
    | _ => return ()
  o.prints.forM fun p => write (if p.stream == .output then 1 else 2) p.text
  return o.exit

/-- Sets an option of a shell that starts. Before they are settled, all options count as set. -/
def startSwitch (s : Switch) : Act Unit :=
  match s with
  | .listing on => do
    let _ ← print (Builtin.optionLines on fun _ => true)
  | .letter _ 'c' | .letter _ 'l' | .letter true 'm' | .named true "monitor" | .quiet => return ()
  | s => Builtin.switch s

def begin (args : List String) : Act Start := do
  let (switches, rest) := Switch.ofArguments args.length args
  switches.forM startSwitch
  let operands := rest.getD []
  let isText := switches.any fun s => s == .letter true 'c' || s == .letter false 'c'
  if operands.isEmpty then Builtin.setOption true 's'
  match Start.ofOperands isText (← isSet 's') operands with
  | .error problem => fault problem
  | .ok start =>
    modify fun sh => { sh with name := start.name, arguments := start.arguments }
    if switches.any fun s => s == .letter true 'm' || s == .named true "monitor" then
      Builtin.setOption true 'm'
    return start

def shell (run : Runner) (n : Nat) (args : List String) : Act Unit :=
  toTheEnd run n do
    let start ← begin args
    let text ← scriptText start.script
    modify fun sh => { sh with line := 1 }
    runText run n ⟨false, false⟩ text
    if start.script != .input && (← isSet 's') then
      runText run n ⟨false, false⟩ (← scriptText .input)

def useShell (run : Runner) (n : Nat) (args : List String) : Act Exit := do
  let sh ← get
  let exported := sh.bindings.filterMap fun (name, v) =>
    if v.exported && v.value.isSome then some (name, { v with readOnly := false }) else none
  let unheard := (sh.traps.filter fun trap => trap.2.isEmpty).map (·.1)
  let (result, inner) :=
    (shell run n args).run
      (State.fresh sh.world sh.descriptors sh.cwd sh.mask (sh.ignored ++ unheard)
        (sh.process :: sh.ancestors) exported)
  set { sh with world := inner.world }
  match result with
  | .error .endless => throw .endless
  | _ => return exitOf result inner.status

def useProgram (run : Runner) (n : Nat) (program name : String) (args : List String) :
    Act Exit := do
  match tools.lookup program with
  | some tool => useTool tool name args
  | none =>
    if program == "sh" then useShell run n args
    else
      let builtin := if program == "printf" then Builtin.printf else Builtin.kill
      inSubshell run n do setStatus (← builtin args)

def external (run : Runner) (n : Nat) (c : Context) (name : String) (args : List String) :
    Act Unit := do
  match ← findProgram true name with
  | .ok found => conclude c (← useProgram run n found.program name args)
  | .error problem =>
    complain (name ++ ": " ++ problem.phrase)
    setStatus (if hasSlash name then problem.status else 127)

end Act

end FlightBlocks.Shell
