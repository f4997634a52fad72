import FlightBlocks.Files.Access
import FlightBlocks.Text.Bytes
/-!
What a program does when it runs: it takes from its input, prints on two streams, changes files,
and ends. All texts are byte texts.
-/

namespace FlightBlocks

inductive Exit where
  | code (n : Nat)
  | signal (n : Nat)
  deriving DecidableEq, Repr

def Exit.status : Exit → Nat
  | code n => n
  | signal n => 128 + n

def Exit.succeeded (e : Exit) : Bool := e == .code 0

inductive Sink where
  | closed
  | stream
  | file (place : Place)
  deriving DecidableEq, Repr

structure Source where
  rest : Except FileFault String
  /-- The file that it is, if it is one. One who opens it anew reads it from its beginning. -/
  file : Option Place

structure Scene where
  name : String
  tree : Tree
  cwd : Place
  sources : List (Nat × Source)
  sink : Sink

inductive Stream where
  | output
  | errors
  deriving DecidableEq, Repr

structure Print where
  stream : Stream
  text : String
  deriving DecidableEq, Repr

structure ToolOutcome where
  tree : Tree
  prints : List Print
  /-- The descriptors from which all was taken. -/
  taken : List Nat
  exit : Exit

abbrev Tool := Scene → List String → ToolOutcome

namespace ToolOutcome

def print (o : ToolOutcome) (text : String) : ToolOutcome :=
  { o with prints := o.prints ++ [⟨.output, text⟩] }

def complain (o : ToolOutcome) (text : String) : ToolOutcome :=
  { o with prints := o.prints ++ [⟨.errors, text ++ "\n"⟩], exit := .code 1 }

def warn (o : ToolOutcome) (text : String) : ToolOutcome :=
  { o with prints := o.prints ++ [⟨.errors, text⟩] }

def printed (o : ToolOutcome) (stream : Stream) : String :=
  String.join ((o.prints.filter fun p => p.stream == stream).map Print.text)

end ToolOutcome

namespace Scene

def ended (scene : Scene) (code : Nat) : ToolOutcome := ⟨scene.tree, [], [], .code code⟩

def notOpen : FileFault := .other "Bad file descriptor"

def printing (scene : Scene) (text : String) : ToolOutcome := (scene.ended 0).print text

def pathFrom (cwd : Place) (p : String) : Path := cwd.path.join (.ofText (Bytes.decode p))

def path (scene : Scene) (p : String) : Path := pathFrom scene.cwd p

def placeText (place : Place) : String := Bytes.encode place.text

def descriptorPaths : List (String × Nat) :=
  [("/dev/stdin", 0), ("/dev/stdout", 1), ("/dev/stderr", 2)]

/-- The descriptor that a path stands for. -/
def descriptorOf? (path : String) : Option Nat :=
  let digitsBehind? (start : String) : Option Nat :=
    if path.startsWith start then (path.drop start.length).toNat? else none
  (descriptorPaths.lookup path).or
    ((digitsBehind? "/dev/fd/").or (digitsBehind? "/proc/self/fd/"))

def reach (t : Tree) (cwd : Place) (through : Bool) (p : String) : Except FileFault Stop :=
  if p.isEmpty then .error .notFound else t.reach through (pathFrom cwd p)

def readText (scene : Scene) (p : String) : Except FileFault String :=
  if p.isEmpty then .error .notFound
  else (scene.tree.readBytes (scene.path p)).map fun content => Bytes.ofList content.toList

end Scene

end FlightBlocks
