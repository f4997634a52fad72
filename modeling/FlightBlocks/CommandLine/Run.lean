import FlightBlocks.Blocks.Canvas
import FlightBlocks.CommandLine.Command
import FlightBlocks.Preview.Live
import FlightBlocks.Studio.Response
/-!
Running a command: what it prints, how it exits, and the files after it.
-/

namespace FlightBlocks.CommandLine

structure Surroundings where
  launch : Launcher
  cwd : Place
  baseDir : Option String
  time : Int64

structure Answer where
  exit : Nat
  out : String
  deriving DecidableEq, Repr

def answerFor (value : Json) : Answer := ⟨0, value.pretty ++ "\n"⟩

def failureAnswer (failure : StudioFailure) : Answer :=
  ⟨1, failure.report.toJson.pretty ++ "\n"⟩

def readFile (s : Studio) (cwd : Place) (path : String) : Except StudioFailure String :=
  (Studio.readLocal s.disk.tree cwd path).mapError fun fault => .store (.io path fault)

def loadWorkspace (s : Studio) (cwd : Place) (file : WorkspaceFile) :
    Except StudioFailure Workspace := do
  let text ← readFile s cwd file.path
  (if file.canvas then Canvas.load text else Workspace.load text).mapError .program

/-- A command that breaks off is killed by the signal 6, which a shell shows as this code. -/
def brokenOff : Answer := ⟨134, ""⟩

def showFrame? (g : Grid) (f : Frame) : Option String := do
  let drawn ← g.draw? f.drone
  return "step " ++ toString f.step ++ " (" ++ f.action.getD "start" ++ ")\n" ++ drawn ++ "\n"

def summary (o : RunOutcome) : String :=
  if o.cancelled then "stopped at " ++ o.final.status ++ "\n"
  else
    "finished at " ++ o.final.status ++ " after " ++ toString o.trace.flips ++ " flip(s)\n"

/-- With pauses between the steps the frames are drawn while the run goes on; without pauses they
are drawn from its trace. -/
def drawnFrames (course : Course) (kinds : List String) (o : RunOutcome) : List Frame :=
  if course.stepDelay > 0 then (Run.start course kinds).watched else o.trace

def simulate (s : Studio) (ws : Workspace) (asJson : Bool) : Except StudioFailure Answer := do
  let program ← Studio.compile (some ws)
  let (outcome, _) ← s.preview (some ws)
  match outcome with
  | none => return ⟨0, ""⟩
  | some outcome =>
    if asJson then return answerFor outcome.toJson
    else
      let course := s.session.course
      -- all frames are drawn on one grid, so if one is not drawn, the first is not
      match (drawnFrames course program.kinds outcome).mapM (showFrame? course.grid) with
      | none => return brokenOff
      | some drawn => return ⟨0, String.join drawn ++ summary outcome⟩

def deployAnswer (report : PersistReport) : Answer :=
  { answerFor report.toJson with exit := if report.isPartial then 2 else 0 }

def keeping (s : Studio) (result : Except StudioFailure Answer) :
    Except StudioFailure Answer × Studio := (result, s)

def perform (around : Surroundings) (s : Studio) :
    Command → Except StudioFailure Answer × Studio
  | .compile file => keeping s do
    let ws ← loadWorkspace s around.cwd file
    return answerFor (← Studio.compile (some ws)).toJson
  | .read path => keeping s do return answerFor (← s.read path).toJson
  | .write path content =>
    match readFile s around.cwd content with
    | .error failure => (.error failure, s)
    | .ok text =>
      let (outcome, s) := s.write around.time path text
      (outcome.map fun o => answerFor o.toJson, s)
  | .deploy file target =>
    match loadWorkspace s around.cwd file with
    | .error failure => (.error failure, s)
    | .ok ws =>
      let (report, s) := s.persistTo around.time (some ws) (target.getD s.settings.targetFile)
      (report.map deployAnswer, s)
  | .simulate file _ asJson => keeping s do
    let ws ← loadWorkspace s around.cwd file
    simulate s ws asJson

def withPace (settings : Settings) : Command → Settings
  | .simulate _ (some ms) _ =>
    { settings with preview := { settings.preview with stepDelay := UInt64.ofNat ms } }
  | _ => settings

def settingsFor (around : Surroundings) (t : Tree) (config : Option String) (command : Command) :
    Except StudioFailure Settings := do
  let settings ← match config with
    | none => .ok Settings.default
    | some path => Studio.loadSettings t around.cwd path
  return withPace (settings.withBaseDir around.baseDir) command

def runCommand (around : Surroundings) (t : Tree) (settings : Settings) (command : Command) :
    Answer × Tree :=
  match Studio.open? around.launch settings t around.cwd with
  | .error failure => (failureAnswer failure, t)
  | .ok s =>
    match perform around s command with
    | (.ok answer, s) => (answer, s.disk.tree)
    | (.error failure, s) => (failureAnswer failure, s.disk.tree)

/-- Runs the program with the given arguments. What is wrong with the arguments or in the settings
file is not printed here. -/
def run (around : Surroundings) (t : Tree) (args : List String) : Answer × Tree :=
  match request args with
  | .refused => (⟨2, ""⟩, t)
  | .print text => (⟨0, text⟩, t)
  | .run config command =>
    match settingsFor around t config command with
    | .error _ => (⟨1, ""⟩, t)
    | .ok settings => runCommand around t settings command

end FlightBlocks.CommandLine
