import FlightBlocks.Machine.Options
import FlightBlocks.Machine.Process
import FlightBlocks.Machine.Quoting
/-!
Printing files one after another, as they are or with their lines numbered and their bytes made
visible. All texts are byte texts.
-/

namespace FlightBlocks.Tools

def complain (scene : Scene) (o : ToolOutcome) (problem : String) : ToolOutcome :=
  o.complain (scene.name ++ ": " ++ problem)

def misused (scene : Scene) (misuse : Misuse) : ToolOutcome :=
  complain scene (scene.ended 1)
    (misuse.message ++ "\nTry '" ++ scene.name ++ " --help' for more information.")

structure Show where
  numbers : Bool
  numbersText : Bool
  /-- Whether of empty lines in a row one is shown. -/
  squeezes : Bool
  ends : Bool
  tabs : Bool
  marks : Bool
  deriving DecidableEq, Repr

namespace Show

def known : Known :=
  ⟨"AbeEnstTuv".toList,
    [("number-nonblank", 'b'), ("number", 'n'), ("squeeze-blank", 's'),
      ("show-nonprinting", 'v'), ("show-ends", 'E'), ("show-tabs", 'T'), ("show-all", 'A')]⟩

def ofLetters (letters : List Char) : Show :=
  let has (cs : List Char) := letters.any cs.contains
  ⟨has ['n'], has ['b'], has ['s'], has ['E', 'e', 'A'], has ['T', 't', 'A'],
    has ['v', 'e', 't', 'A']⟩

def marked (c : Char) : List Char :=
  let low (n : Nat) : List Char :=
    if n < 32 then ['^', Char.ofNat (n + 64)]
    else if n = 127 then ['^', '?']
    else [Char.ofNat n]
  let n := c.toNat
  if n < 128 then low n else 'M' :: '-' :: low (n - 128)

def char (s : Show) (c : Char) : List Char :=
  if c = '\t' then if s.tabs then ['^', 'I'] else [c]
  else if s.marks then marked c
  else [c]

def linesOf : List Char → List (List Char)
  | [] => []
  | c :: cs =>
    if c = '\n' then [c] :: linesOf cs
    else
      match linesOf cs with
      | [] => [[c]]
      | l :: ls => (c :: l) :: ls

def numbered (n : Nat) : List Char :=
  let digits := (toString n).toList
  List.replicate (6 - digits.length) ' ' ++ digits ++ ['\t']

/-- Shows lines; `count` lines are numbered already, and `blank` says whether the last one was
empty. -/
def lines (s : Show) (count : Nat) (blank : Bool) : List (List Char) → List Char
  | [] => []
  | l :: ls =>
    let isEmpty := l == ['\n']
    if s.squeezes && isEmpty && blank then lines s count blank ls
    else
      let counts := if s.numbersText then !isEmpty else s.numbers
      let body := (l.filter (· != '\n')).flatMap s.char
      let ending := if l.getLast? == some '\n' then (if s.ends then ['$', '\n'] else ['\n']) else []
      (if counts then numbered (count + 1) else []) ++ body ++ ending ++
        lines s (if counts then count + 1 else count) isEmpty ls

def text (s : Show) (text : String) : String :=
  if s == ⟨false, false, false, false, false, false⟩ then text
  else String.ofList (s.lines 0 false (linesOf text.toList))

end Show

structure Operand where
  content : Except FileFault String
  file : Option Place
  taken : Option Nat

namespace Operand

/-- Reads from a descriptor, or, `anew`, from the beginning of what it stands for. -/
def ofDescriptor (scene : Scene) (taken : List Nat) (anew : Bool) (d : Nat) : Operand :=
  match scene.sources.lookup d with
  | none => ⟨.error (if anew then .notFound else Scene.notOpen), none, none⟩
  | some source =>
    match anew, source.file with
    | true, some place => ⟨scene.readText (Scene.placeText place), some place, none⟩
    | _, _ => ⟨if taken.contains d then .ok "" else source.rest, source.file, some d⟩

def ofArgument (scene : Scene) (taken : List Nat) (arg : String) : Operand :=
  if arg == "-" then ofDescriptor scene taken false 0
  else
    match Scene.descriptorOf? arg with
    | some d => ofDescriptor scene taken true d
    | none =>
      let file := match Scene.reach scene.tree scene.cwd true arg with
        | .ok (.entry place) => some place
        | _ => none
      ⟨scene.readText arg, file, none⟩

end Operand

def cat : Tool := fun scene args =>
  match Show.known.options args with
  | .error misuse => misused scene misuse
  | .ok (letters, operands) =>
    if scene.sink == .closed then
      complain scene (scene.ended 0) "standard output: Bad file descriptor"
    else
      let step (o : ToolOutcome) (arg : String) : ToolOutcome :=
        let operand := Operand.ofArgument scene o.taken arg
        let isTarget := match operand.file, scene.sink with
          | some place, .file target => place == target
          | _, _ => false
        match operand.content with
        | .ok content =>
          if isTarget && !(content ++ o.printed .output).isEmpty then
            complain scene o (Quoting.shown arg ++ ": input file is output file")
          else { o.print content with taken := operand.taken.toList ++ o.taken }
        | .error fault => complain scene o (Quoting.shown arg ++ ": " ++ fault.phrase)
      let operands := if operands.isEmpty then ["-"] else operands
      let o := operands.foldl step (scene.ended 0)
      let o :=
        if operands.contains "-" && (scene.sources.lookup 0).isNone then
          complain scene o "closing standard input: Bad file descriptor"
        else o
      let shown := Show.ofLetters letters
      { o with prints := o.prints.map fun p =>
          if p.stream == .output then { p with text := shown.text p.text } else p }

end FlightBlocks.Tools
