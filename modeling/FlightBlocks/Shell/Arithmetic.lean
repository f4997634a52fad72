import FlightBlocks.Shell.Number
import FlightBlocks.Shell.Syntax
/-!
Arithmetic on integers of 64 bits, as expressions in a text. An expression is evaluated while it is
read; parts that do not count are read all the same. `n` bounds the tokens that are left.
-/

namespace FlightBlocks.Shell.Arithmetic

inductive Token where
  | number (n : Int)
  | variable (name : String)
  | sign (s : String)
  | bad
  | ending
  deriving DecidableEq, Repr

inductive Problem where
  | divisionByZero
  | expectingPrimary
  | expectingColon
  | expectingParenthesis
  | expectingEnd
  | illegalNumber (value : String)
  | overflow
  | endless
  deriving DecidableEq, Repr

def Problem.phrase : Problem → String
  | divisionByZero => "division by zero"
  | expectingPrimary => "expecting primary"
  | expectingColon => "expecting ':'"
  | expectingParenthesis => "expecting ')'"
  | expectingEnd => "expecting EOF"
  | illegalNumber value => "Illegal number: " ++ value
  | overflow => "overflow"
  | endless => "endless"

def Problem.complaint (expression : String) : Problem → String
  | .illegalNumber value => "Illegal number: " ++ value
  | problem => "arithmetic expression: " ++ problem.phrase ++ ": \"" ++ expression ++ "\""

def signs : List String :=
  ["<<=", ">>=", "<<", ">>", "<=", ">=", "==", "!=", "&&", "||", "+=", "-=", "*=", "/=", "%=",
    "&=", "^=", "|=", "<", ">", "=", "+", "-", "*", "/", "%", "(", ")", "~", "!", "&", "^", "|",
    "?", ":"]

def tokens : Nat → List Char → List Token
  | 0, _ => []
  | n + 1, cs =>
    match cs with
    | [] => []
    | c :: rest =>
      if Number.isSpace c then tokens n rest
      else if c.isDigit then
        let r := Number.scan none cs
        .number (max Number.least (min Number.greatest r.value)) :: tokens n r.rest
      else if isNameStart c then
        let name := cs.takeWhile isNameChar
        .variable (String.ofList name) :: tokens n (cs.drop name.length)
      else
        match signs.find? fun s => s.toList.isPrefixOf cs with
        | some s => .sign s :: tokens n (cs.drop s.length)
        | none => .bad :: tokens n rest

/-- How strongly a sign between two numbers binds; 0 is strongest. -/
def strength : List (String × Nat) :=
  [("*", 0), ("/", 0), ("%", 0), ("+", 1), ("-", 1), ("<<", 2), (">>", 2), ("<", 3), ("<=", 3),
    (">", 3), (">=", 3), ("==", 4), ("!=", 4), ("&", 5), ("^", 6), ("|", 7)]

def ofBool (b : Bool) : Int := if b then 1 else 0

def bits (a : Int) : Nat := (a % UInt64.size).toNat

def ofBits (n : Nat) : Int := Number.wrap n

def combine (sign : String) (a b : Int) : Except Problem Int :=
  if sign == "/" || sign == "%" then
    if b = 0 then .error .divisionByZero
    else if a = Number.least && b = -1 then .error .overflow
    else .ok (if sign == "/" then Int.tdiv a b else Int.tmod a b)
  else .ok (
    if sign == "*" then Number.wrap (a * b)
    else if sign == "+" then Number.wrap (a + b)
    else if sign == "-" then Number.wrap (a - b)
    else if sign == "<<" then ofBits (bits a <<< (bits b % 64))
    else if sign == ">>" then a >>> (bits b % 64)
    else if sign == "<" then ofBool (a < b)
    else if sign == "<=" then ofBool (a ≤ b)
    else if sign == ">" then ofBool (b < a)
    else if sign == ">=" then ofBool (b ≤ a)
    else if sign == "==" then ofBool (a == b)
    else if sign == "!=" then ofBool (a != b)
    else if sign == "&" then ofBits (bits a &&& bits b)
    else if sign == "^" then ofBits (bits a ^^^ bits b)
    else ofBits (bits a ||| bits b))

structure Work where
  tokens : List Token
  value? : String → Option String
  assigned : List (String × String)

abbrev Eval := StateT Work (Except Problem)

def next : Eval Token := do
  let w ← get
  set { w with tokens := w.tokens.tail }
  return w.tokens.headD .ending

def peek : Eval Token := return (← get).tokens.headD .ending

def valueOf (name : String) : Eval Int := do
  let w ← get
  let text := ((w.assigned.lookup name).or (w.value? name)).getD ""
  match Number.ofText? none text with
  | some n => return n
  | none => throw (.illegalNumber text)

def primary (assignment : Bool → Eval Int) : Nat → Bool → Eval Int
  | 0, _ => throw .endless
  | n + 1, counts => do
    match ← next with
    | .number k => return k
    | .variable name => if counts then valueOf name else return 0
    | .sign "(" => do
      let k ← assignment counts
      if (← next) == .sign ")" then return k else throw .expectingParenthesis
    | .sign "+" => primary assignment n counts
    | .sign "-" => return Number.wrap (-(← primary assignment n counts))
    | .sign "!" => return ofBool ((← primary assignment n counts) == 0)
    | .sign "~" => return -(← primary assignment n counts) - 1
    | _ => throw .expectingPrimary

def strength? : Token → Option (String × Nat)
  | .sign s => (strength.lookup s).map fun k => (s, k)
  | _ => none

/-- Combines `a` with what follows, as far as the signs bind more strongly than `limit`. -/
def binary (assignment : Bool → Eval Int) : Nat → Nat → Bool → Int → Eval Int
  | 0, _, _, _ => throw .endless
  | n + 1, limit, counts, a => do
    match strength? (← peek) with
    | none => return a
    | some (sign, k) =>
      if limit ≤ k then return a
      let _ ← next
      let b ← primary assignment (n + 1) counts
      let b ← binary assignment n k counts b
      let a ← if counts then combine sign a b else pure b
      binary assignment n limit counts a

def conjunction (assignment : Bool → Eval Int) : Nat → Bool → Eval Int
  | 0, _ => throw .endless
  | n + 1, counts => do
    let a ← binary assignment (n + 1) 8 counts (← primary assignment (n + 1) counts)
    if (← peek) == .sign "&&" then
      let _ ← next
      let b ← conjunction assignment n (counts && a != 0)
      return ofBool (a != 0 && b != 0)
    else return a

def disjunction (assignment : Bool → Eval Int) : Nat → Bool → Eval Int
  | 0, _ => throw .endless
  | n + 1, counts => do
    let a ← conjunction assignment (n + 1) counts
    if (← peek) == .sign "||" then
      let _ ← next
      let b ← disjunction assignment n (counts && a == 0)
      return ofBool (a != 0 || b != 0)
    else return a

def conditional (assignment : Bool → Eval Int) : Nat → Bool → Eval Int
  | 0, _ => throw .endless
  | n + 1, counts => do
    let a ← disjunction assignment (n + 1) counts
    if (← peek) == .sign "?" then
      let _ ← next
      let b ← assignment (counts && a != 0)
      if (← next) != .sign ":" then throw .expectingColon
      let c ← conditional assignment n (counts && a == 0)
      return if a != 0 then b else c
    else return a

def assigningSigns : List (String × Option String) :=
  [("=", none), ("+=", some "+"), ("-=", some "-"), ("*=", some "*"), ("/=", some "/"),
    ("%=", some "%"), ("<<=", some "<<"), (">>=", some ">>"), ("&=", some "&"), ("^=", some "^"),
    ("|=", some "|")]

def assignment : Nat → Bool → Eval Int
  | 0, _ => throw .endless
  | n + 1, counts => do
    let size := (← get).tokens.length + 1
    match (← get).tokens with
    | .variable name :: .sign s :: rest =>
      match assigningSigns.lookup s with
      | some sign? => do
        modify fun w => { w with tokens := rest }
        let k ← assignment n counts
        if !counts then return k
        let k ← match sign? with
          | none => pure k
          | some sign => combine sign (← valueOf name) k
        modify fun w => { w with assigned := (name, toString k) :: w.assigned }
        return k
      | none => conditional (assignment n) size counts
    | _ => conditional (assignment n) size counts

def evaluate (value? : String → Option String) (expression : String) :
    Except Problem (Int × List (String × String)) := do
  let ts := tokens (expression.length + 1) expression.toList
  let (k, w) ← (assignment (ts.length + 1) true).run ⟨ts, value?, []⟩
  if w.tokens.isEmpty then return (k, w.assigned) else .error .expectingEnd

end FlightBlocks.Shell.Arithmetic
