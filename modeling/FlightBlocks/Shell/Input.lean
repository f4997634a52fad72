import FlightBlocks.Shell.Syntax
/-!
The text of a script as it is read: the characters left, the line they stand on, and the texts that
are still to come behind the line. All texts are byte texts.
-/

namespace FlightBlocks.Shell

inductive SyntaxFault where
  | unexpected (found : String) (wanted : Option String)
  | openQuote
  | openBrace
  | openArithmetic
  | openBackquote
  | badLoopVariable
  | badFunctionName
  | endless
  deriving DecidableEq, Repr

def SyntaxFault.message : SyntaxFault → String
  | unexpected found none => found ++ " unexpected"
  | unexpected found (some wanted) => found ++ " unexpected (expecting " ++ wanted ++ ")"
  | openQuote => "Unterminated quoted string"
  | openBrace => "Missing '\x7d'"
  | openArithmetic => "Missing '))'"
  | openBackquote => "EOF in backquote substitution"
  | badLoopVariable => "Bad for loop variable"
  | badFunctionName => "Bad function name"
  | endless => "endless script"

inductive Token where
  | word (w : Word)
  | keyword (name : String)
  | operator (sign : String)
  | redirection (descriptor : Option Nat) (sign : String)
  | newline
  | ending

def Token.shown : Token → String
  | .word _ => "word"
  | .keyword name => "\"" ++ name ++ "\""
  | .operator sign => "\"" ++ sign ++ "\""
  | .redirection _ _ => "redirection"
  | .newline => "newline"
  | .ending => "end of file"

structure Delimiter where
  line : List Char
  strips : Bool
  deriving DecidableEq, Repr

structure Awaited where
  number : Nat
  delimiter : Delimiter
  expands : Bool
  deriving DecidableEq, Repr

structure Replacement where
  name : String
  /-- How long the text behind it is. -/
  behind : Nat
  endsBlank : Bool
  deriving DecidableEq, Repr

def Replacement.goesOn (r : Replacement) (left : Nat) : Bool :=
  if r.endsBlank then r.behind < left else r.behind ≤ left

/-- What is read as one text. -/
inductive Bounds where
  | script
  | text
  | document (delimiter : Delimiter)
  deriving DecidableEq, Repr

structure Input where
  rest : List Char
  bounds : Bounds
  line : Nat
  ahead : Option Token
  aliases : List (String × String)
  replacing : List Replacement
  awaited : List Awaited
  documents : List (Nat × Word)
  nextDocument : Nat
  delimits : Bool

def Input.ofText (bounds : Bounds) (cs : List Char) (aliases : List (String × String))
    (documents : List (Nat × Word)) : Input :=
  ⟨cs, bounds, 1, none, aliases, [], [], documents, documents.length, false⟩

structure Misreading where
  line : Nat
  fault : SyntaxFault
  deriving DecidableEq, Repr

abbrev Reader := StateT Input (Except Misreading)

namespace Reader

variable {α : Type}

def fail (fault : SyntaxFault) : Reader α := do throw ⟨(← get).line, fault⟩

def skip (n : Nat) : Reader Unit :=
  modify fun input =>
    { input with
      rest := input.rest.drop n
      line := input.line + ((input.rest.take n).filter (· == '\n')).length }

/-- Takes a character that stands where none can, whatever it is. A line end there does not count
among the lines. -/
def swallow : Reader Unit := modify fun input => { input with rest := input.rest.drop 1 }

def peek? : Reader (Option Char) := return (← get).rest.head?

def skipJoins : Reader Unit :=
  modify fun input =>
    let rec joins : List Char → Nat
      | '\\' :: '\n' :: cs => joins cs + 1
      | _ => 0
    let n := joins input.rest
    { input with rest := input.rest.drop (2 * n), line := input.line + n }

def peekJoined? : Reader (Option Char) := do
  skipJoins
  peek?

def takeWhile (p : Char → Bool) : Nat → Reader (List Char)
  | 0 => return []
  | n + 1 => do
    match ← peekJoined? with
    | some c =>
      if p c then
        skip 1
        return c :: (← takeWhile p n)
      else return []
    | none => return []

def closes (d : Delimiter) : Reader Bool := do
  let input ← get
  let start := if d.strips then input.rest.dropWhile (· == '\t') else input.rest
  let behind := start.drop d.line.length
  if d.line.isPrefixOf start && (behind.isEmpty || behind.head? == some '\n') then
    set { input with rest := behind.drop 1, line := input.line + 1 }
    return true
  else
    set { input with rest := start }
    return false

def endsAtLine : Reader Bool := do
  match (← get).bounds with
  | .document d => closes d
  | _ => return false

def within (bounds : Bounds) (read : Reader α) : Reader α := do
  let outer := (← get).bounds
  modify fun input => { input with bounds := bounds }
  let a ← read
  modify fun input => { input with bounds := outer }
  return a

def size : Reader Nat := return (← get).rest.length

def takes (sign : Char) : Reader Bool := do
  if (← peekJoined?) == some sign then
    skip 1
    return true
  else return false

end Reader

end FlightBlocks.Shell
