import FlightBlocks.CommandLine.Arguments
/-!
The commands of the command line, with their options and their help.
-/

namespace FlightBlocks.CommandLine

inductive CommandName where
  | compile
  | read
  | write
  | deploy
  | simulate
  deriving DecidableEq, Repr

namespace CommandName

def all : List CommandName := [compile, read, write, deploy, simulate]

def text : CommandName → String
  | compile => "compile"
  | read => "read"
  | write => "write"
  | deploy => "deploy"
  | simulate => "simulate"

def about : CommandName → String
  | compile => "Print the direction sequence for a workspace"
  | read => "Read a file under the base directory"
  | write => "Write a file under the base directory"
  | deploy => "Patch the firmware header with a workspace, then upload"
  | simulate => "Preview a workspace on the grid"

def ofText? (s : String) : Option CommandName := all.find? fun c => c.text == s

end CommandName

def configSwitch : Switch := ⟨"config", some 'c', .path⟩

def logSwitch : Switch := ⟨"log-json", none, .nothing⟩

def workspaceSwitch : Switch := ⟨"workspace", some 'w', .path⟩

def canvasSwitch : Switch := ⟨"blockly", none, .nothing⟩

def pathSwitch : Switch := ⟨"path", none, .text⟩

def contentSwitch : Switch := ⟨"content", none, .path⟩

def targetSwitch : Switch := ⟨"target", none, .text⟩

def stepSwitch : Switch := ⟨"step-ms", none, .number⟩

def jsonSwitch : Switch := ⟨"json", none, .nothing⟩

def describe (s : Switch) : String :=
  if s == configSwitch then "TOML configuration file"
  else if s == logSwitch then "Emit logs as JSON lines"
  else if s == workspaceSwitch then "Workspace snapshot (JSON)"
  else if s == canvasSwitch then "Snapshot uses the editor's serialization format"
  else if s == pathSwitch then "Relative path"
  else if s == contentSwitch then "Local file holding the content to write"
  else if s == targetSwitch then "Header path relative to the base directory"
  else if s == stepSwitch then "Delay between steps in milliseconds"
  else if s == jsonSwitch then "Print the full trace as JSON instead of drawing frames"
  else if s == versionSwitch then "Print version"
  else "Print help"

def topSwitches : List Switch := [configSwitch, logSwitch, helpSwitch, versionSwitch]

namespace CommandName

def switches : CommandName → List Switch
  | compile => [configSwitch, workspaceSwitch, canvasSwitch, logSwitch, helpSwitch]
  | read => [configSwitch, pathSwitch, logSwitch, helpSwitch]
  | write => [configSwitch, pathSwitch, contentSwitch, logSwitch, helpSwitch]
  | deploy => [configSwitch, workspaceSwitch, canvasSwitch, logSwitch, targetSwitch, helpSwitch]
  | simulate =>
    [configSwitch, workspaceSwitch, canvasSwitch, logSwitch, stepSwitch, jsonSwitch, helpSwitch]

def required : CommandName → List Switch
  | compile => [workspaceSwitch]
  | read => [pathSwitch]
  | write => [pathSwitch, contentSwitch]
  | deploy => [workspaceSwitch]
  | simulate => [workspaceSwitch]

end CommandName

def showLong (s : Switch) : String :=
  "--" ++ s.long ++ (if s.taking = .nothing then "" else " <" ++ s.long ++ ">")

def showSwitch (s : Switch) : String :=
  (match s.short with
    | some c => "-" ++ String.singleton c ++ ", "
    | none => "    ") ++ showLong s

def table (rows : List (String × String)) : String :=
  let width := (rows.map fun row => row.1.length).foldl max 0
  String.join (rows.map fun (left, right) =>
    "  " ++ left ++ "".pushn ' ' (width - left.length + 2) ++ right ++ "\n")

def helpAbout : String := "Print this message or the help of the given subcommand(s)"

def optionTable (switches : List Switch) : String :=
  "Options:\n" ++ table (switches.map fun s => (showSwitch s, describe s))

def topHelp : String :=
  "Block programs for the StampFly drone\n\nUsage: sfb [OPTIONS] <COMMAND>\n\nCommands:\n" ++
    table (CommandName.all.map (fun c => (c.text, c.about)) ++ [("help", helpAbout)]) ++ "\n" ++
    optionTable topSwitches

def CommandName.help (c : CommandName) : String :=
  c.about ++ "\n\nUsage: sfb " ++ c.text ++ " [OPTIONS]" ++
    String.join (c.required.map fun s => " " ++ showLong s) ++ "\n\n" ++ optionTable c.switches

def helpHelp : String :=
  helpAbout ++ "\n\nUsage: sfb help [COMMAND]...\n\nArguments:\n" ++
    table [("[COMMAND]...", "Print help for the subcommand(s)")]

def versionText : String := "sfb 0.1.0\n"

structure WorkspaceFile where
  path : String
  canvas : Bool
  deriving DecidableEq, Repr

inductive Command where
  | compile (file : WorkspaceFile)
  | read (path : String)
  | write (path content : String)
  | deploy (file : WorkspaceFile) (target : Option String)
  | simulate (file : WorkspaceFile) (stepDelay : Option Nat) (asJson : Bool)
  deriving DecidableEq, Repr

inductive Request where
  | run (config : Option String) (command : Command)
  | print (text : String)
  | refused
  deriving DecidableEq, Repr

def given? (g : Given) (s : Switch) : Option String := g.lookup s.long

def isGiven (g : Given) (s : Switch) : Bool := (given? g s).isSome

def workspaceFile? (g : Given) : Option WorkspaceFile :=
  (given? g workspaceSwitch).map fun path => ⟨path, isGiven g canvasSwitch⟩

/-- The command that the options make up, unless a required one is missing. -/
def CommandName.command? (g : Given) : CommandName → Option Command
  | compile => (workspaceFile? g).map .compile
  | read => (given? g pathSwitch).map .read
  | write => do return .write (← given? g pathSwitch) (← given? g contentSwitch)
  | deploy => (workspaceFile? g).map fun file => .deploy file (given? g targetSwitch)
  | simulate => (workspaceFile? g).map fun file =>
    .simulate file ((given? g stepSwitch).bind number?) (isGiven g jsonSwitch)

def helpOn : List String → Request
  | [] => .print topHelp
  | ["help"] => .print helpHelp
  | [name] =>
    match CommandName.ofText? name with
    | some c => .print c.help
    | none => .refused
  | _ => .refused

/-- The options of the top level count where the command's own do not say otherwise. -/
def requestOf (top : Reading) (name : CommandName) (g : Given) : Request :=
  match name.command? g, top.settle with
  | some command, some top =>
    .run ((given? g configSwitch).or (given? top.given configSwitch)) command
  | _, _ => .refused

def commandNames : List String := CommandName.all.map CommandName.text ++ ["help"]

def enter (top : Reading) (command : String) (rest : List String) : Request :=
  match CommandName.ofText? command with
  | none => helpOn rest
  | some name =>
    match readLevel name.switches [] .empty rest with
    | .complete g => requestOf top name g
    | .help => .print name.help
    | _ => .refused

def request (args : List String) : Request :=
  match readLevel topSwitches commandNames .empty args with
  | .help => .print topHelp
  | .version => .print versionText
  | .entered command top rest => enter top command rest
  | _ => .refused

end FlightBlocks.CommandLine
