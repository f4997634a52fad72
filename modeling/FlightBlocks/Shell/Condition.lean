import FlightBlocks.Machine.Process
import FlightBlocks.Machine.Programs
import FlightBlocks.Shell.Number
/-!
Conditions on texts, numbers and files, as `test` has them. A condition is a row of words; a word is
an operator only where the words behind it let it be one. `n` bounds the words that are left. All
texts are byte texts.
-/

namespace FlightBlocks.Shell.Condition

inductive Problem where
  | missingBracket
  | unexpectedOperator (word : String)
  | argumentExpected (operator : String)
  | closingExpected
  | illegalNumber (word : String)
  | endless
  deriving DecidableEq, Repr

def Problem.message : Problem → String
  | missingBracket => "missing ]"
  | unexpectedOperator word =>
    if word.isEmpty then "unexpected operator" else word ++ ": unexpected operator"
  | argumentExpected operator => operator ++ ": argument expected"
  | closingExpected => "closing paren expected"
  | illegalNumber word => "Illegal number: " ++ word
  | endless => "endless"

inductive Role where
  | unary (operator : String)
  | binary (operator : String)
  | negation
  | conjunction
  | disjunction
  | opening
  | closing
  | operand
  | ending
  deriving DecidableEq, Repr

def unaryOperators : List String :=
  ["-r", "-w", "-x", "-e", "-f", "-d", "-c", "-b", "-p", "-u", "-g", "-k", "-s", "-t", "-z", "-n",
    "-h", "-O", "-G", "-L", "-S"]

def binaryOperators : List String :=
  ["=", "!=", "<", ">", "-eq", "-ne", "-ge", "-gt", "-le", "-lt", "-nt", "-ot", "-ef"]

/-- Whether a word behind a unary operator makes an operand of it. -/
def isOperandBefore : List String → Bool
  | [] => true
  | [_] => false
  | s :: _ => binaryOperators.contains s

def role : List String → Role
  | [] => .ending
  | s :: rest =>
    if unaryOperators.contains s then if isOperandBefore rest then .operand else .unary s
    else if binaryOperators.contains s then .binary s
    else if s == "!" then .negation
    else if s == "-a" then .conjunction
    else if s == "-o" then .disjunction
    else if s == "(" then if rest.isEmpty then .operand else .opening
    else if s == ")" then .closing
    else .operand

abbrev Eval := StateT (List String) (Except Problem)

def behind (n : Nat) : Eval (List String) := return (← get).drop n

def forward (n : Nat) : Eval Unit := modify fun words => words.drop n

def current : Eval String := return (← get).headD ""

def number (s : String) : Eval Int :=
  match Number.ofText? (some 10) s with
  | some n => return n
  | none => throw (.illegalNumber s)

structure Files where
  tree : Tree
  cwd : Place

inductive Kind where
  | regular (size : Nat)
  | program
  | directory
  | link
  | device
  deriving DecidableEq, Repr

def Files.kind? (f : Files) (through : Bool) (path : String) : Option Kind :=
  if path == "/dev/null" then some .device
  else
    match Scene.reach f.tree f.cwd through path with
    | .ok (.entry place) =>
      match f.tree.entry? place with
      | some (.file content) => some (.regular content.size)
      | some .directory => some .directory
      | _ => none
    | .ok (.link _ _ _) => some .link
    | _ =>
      (Machine.programAt? (f.cwd.follow (.ofText (Bytes.decode path)))).map fun _ => .program

def Files.place? (f : Files) (path : String) : Option Place :=
  match Scene.reach f.tree f.cwd true path with
  | .ok (.entry place) => some place
  | _ => none

def unary (f : Files) (operator word : String) : Bool :=
  let kind := f.kind? true word
  if operator == "-z" then word.isEmpty
  else if operator == "-n" then !word.isEmpty
  else if ["-e", "-r", "-w", "-O", "-G"].contains operator then kind.isSome
  else if operator == "-x" then kind == some .directory || kind == some .program
  else if operator == "-d" then kind == some .directory
  else if operator == "-c" then kind == some .device
  else if operator == "-h" || operator == "-L" then f.kind? false word == some .link
  else
    match kind with
    | some (.regular size) => operator == "-f" || (operator == "-s" && size > 0)
    | some .program => operator == "-f" || operator == "-s"
    | some .directory => operator == "-s"
    | _ => false

def binary (f : Files) (operator a b : String) : Eval Bool := do
  if operator == "=" then return a == b
  else if operator == "!=" then return a != b
  else if operator == "<" then return a < b
  else if operator == ">" then return b < a
  else if operator == "-ef" then return (f.place? a).isSome && f.place? a == f.place? b
  else if operator == "-nt" || operator == "-ot" then return false
  else
    let m ← number a
    let n ← number b
    return if operator == "-eq" then m == n
      else if operator == "-ne" then m != n
      else if operator == "-ge" then m ≥ n
      else if operator == "-gt" then m > n
      else if operator == "-le" then m ≤ n
      else m < n

section Expressions

variable (f : Files)

def primary (whole : Role → Eval Bool) (r : Role) : Eval Bool := do
  match r with
  | .ending => return false
  | .opening =>
    forward 1
    let inner := role (← get)
    if inner == .closing then return false
    let result ← whole inner
    forward 1
    if role (← get) != .closing then throw .closingExpected
    return result
  | .unary operator =>
    forward 1
    if (← get).isEmpty then throw (.argumentExpected operator)
    if operator == "-t" then
      let _ ← number (← current)
      return false
    return unary f operator (← current)
  | _ =>
    match role (← behind 1) with
    | .binary operator =>
      let a ← current
      forward 2
      if (← get).isEmpty then throw (.argumentExpected operator)
      binary f operator a (← current)
    | _ => return !(← current).isEmpty

def negated (whole : Role → Eval Bool) : Nat → Role → Eval Bool
  | 0, _ => throw .endless
  | n + 1, r => do
    if r == .negation then
      let next := role (← behind 1)
      if next != .ending then forward 1
      return !(← negated whole n next)
    else primary f whole r

def conjunction (whole : Role → Eval Bool) : Nat → Role → Eval Bool
  | 0, _ => throw .endless
  | n + 1, r => do
    let a ← negated f whole (n + 1) r
    if role (← behind 1) == .conjunction then
      forward 2
      let b ← conjunction whole n (role (← get))
      return a && b
    else return a

def disjunction (whole : Role → Eval Bool) : Nat → Role → Eval Bool
  | 0, _ => throw .endless
  | n + 1, r => do
    let a ← conjunction f whole (n + 1) r
    if role (← behind 1) == .disjunction then
      forward 2
      let b ← disjunction whole n (role (← get))
      return a || b
    else return a

def whole (size : Nat) : Nat → Role → Eval Bool
  | 0, _ => throw .endless
  | n + 1, r => disjunction f (whole size n) size r

structure Opened where
  words : List String
  role : Role
  negated : Bool

/-- Takes what stands around a short condition off it: words of negation, which may be several and
count as one, and parentheses. -/
def opened (negated : Bool) : List String → Opened
  | [] => ⟨[], .ending, negated⟩
  | first :: rest =>
    let words := first :: rest
    if rest.length = 2 && (rest.head?.any binaryOperators.contains) then
      ⟨words, .operand, negated⟩
    else if rest.length = 2 || rest.length = 3 then
      if first == "(" && rest.getLast? == some ")" then
        ⟨rest.dropLast, Condition.role rest.dropLast, negated⟩
      else if first == "!" then opened true rest
      else ⟨words, Condition.role words, negated⟩
    else ⟨words, Condition.role words, negated⟩

def holds (words : List String) : Except Problem Bool := do
  if words.isEmpty then return false
  let size := words.length + 2
  let r := opened false words
  let (result, left) ← (whole f size size r.role).run r.words
  match left with
  | word :: _ :: _ => throw (.unexpectedOperator word)
  | _ => return result != r.negated

def bracketed (words : List String) : Except Problem Bool :=
  if words.getLast?.any fun word => word.startsWith "]" then holds f words.dropLast
  else .error .missingBracket

end Expressions

end FlightBlocks.Shell.Condition
