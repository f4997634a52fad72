import FlightBlocks.Shell.Input
/-!
Reading words. A word is read in a mode that says where it ends and what its quotes mean; `n` bounds
the characters that are left. The reader of command lists comes in from outside, for commands whose
output is put into a word.
-/

namespace FlightBlocks.Shell

inductive Mode where
  | bare
  | braced
  | quoted
  | quotedBraced
  | document
  /-- Up to two closing parentheses, with so many open. -/
  | arithmetic (depth : Nat)
  deriving DecidableEq, Repr

def Mode.isQuoted : Mode → Bool
  | bare | braced => false
  | _ => true

def Mode.inner (m : Mode) : Mode := if m.isQuoted then quotedBraced else braced

def endsWord (c : Char) : Bool := " \t\n;&|<>()".toList.contains c

def escaped (m : Mode) (c : Char) : Piece :=
  let taken := !m.isQuoted || "$`\\".toList.contains c ||
    (c == '"' && m != .document) || (c == '\x7d' && m == .quotedBraced)
  .literal (if taken then [c] else ['\\', c])

def backquoted? (quoted : Bool) : List Char → Option (List Char × List Char)
  | [] => none
  | '`' :: cs => some ([], cs)
  | '\\' :: '\n' :: cs => backquoted? quoted cs
  | '\\' :: c :: cs =>
    let taken := "\\`$".toList.contains c || (quoted && c == '"')
    (backquoted? quoted cs).map fun (text, rest) =>
      ((if taken then [c] else ['\\', c]) ++ text, rest)
  | c :: cs => (backquoted? quoted cs).map fun (text, rest) => (c :: text, rest)

def useOf? (orEmpty : Bool) (sign : Char) (word : Word) : Option Use :=
  if sign = '-' then some (.default orEmpty word)
  else if sign = '=' then some (.assign orEmpty word)
  else if sign = '?' then some (.require orEmpty word)
  else if sign = '+' then some (.alternative orEmpty word)
  else none

namespace Reader

def bracedName? : Reader (Option String) := do
  match ← peekJoined? with
  | none => return none
  | some c =>
    if isNameStart c then return some (String.ofList (← takeWhile isNameChar (← size)))
    else if c.isDigit then return some (String.ofList (← takeWhile Char.isDigit (← size)))
    else if isSpecial c then
      skip 1
      return some c.toString
    else return none

section Words

variable (list : Reader (Option Command)) (pieces : Mode → Reader Word)

def bracedUse (m : Mode) (name : String) : Reader Piece := do
  let sign ← peekJoined?
  let orEmpty := sign == some ':'
  if orEmpty then skip 1
  let sign ← peekJoined?
  match sign with
  | some '\x7d' =>
    skip 1
    if orEmpty then return .parameter name (.extended (← pieces m.inner))
    else return .parameter name .value
  | some '%' | some '#' =>
    if orEmpty then
      let _ ← pieces m.inner
      return .parameter name .bad
    skip 1
    let longest ← takes (sign.getD '#')
    return .parameter name (.trim (sign == some '%') longest (← pieces .braced))
  | some c =>
    swallow
    let word ← pieces m.inner
    return .parameter name ((useOf? orEmpty c word).getD .bad)
  | none =>
    let _ ← pieces m.inner
    return .parameter name .bad

def bracedLength (m : Mode) : Reader Piece := do
  skipJoins
  match (← get).rest with
  | '\x7d' :: _ => bracedUse pieces m "#"
  | c :: cs =>
    if isNameChar c || cs.head? == some '\x7d' then
      let name := (← bracedName?).getD ""
      if name.isEmpty then swallow
      let isWhole := !name.isEmpty && (← peekJoined?) == some '\x7d'
      let _ ← pieces m.inner
      return .parameter name (if isWhole then .length else .bad)
    else bracedUse pieces m "#"
  | [] => bracedUse pieces m "#"

def braced (m : Mode) : Reader Piece := do
  if (← peekJoined?) == some '#' then
    skip 1
    bracedLength pieces m
  else
    match ← bracedName? with
    | some name => bracedUse pieces m name
    | none =>
      if (← peek?) != some '\x7d' then swallow
      let _ ← pieces m.inner
      return .parameter "" .bad

def closing : Reader Unit := do
  match (← get).ahead with
  | some (.operator ")") => modify fun input => { input with ahead := none }
  | some token => fail (.unexpected token.shown (some "\")\""))
  | none => fail (.unexpected "end of file" (some "\")\""))

def dollar (m : Mode) : Reader Piece := do
  match ← peekJoined? with
  | some '(' =>
    skip 1
    if ← takes '(' then return .arithmetic (← pieces (.arithmetic 0))
    else
      let outer ← get
      set { outer with ahead := none, awaited := [] }
      let body ← within .script do
        let body ← list
        closing
        return body
      modify fun input => { input with ahead := outer.ahead, awaited := outer.awaited }
      return .output body
  | some '\x7b' =>
    skip 1
    braced pieces m
  | some c =>
    if isNameStart c then
      return .parameter (String.ofList (← takeWhile isNameChar (← size))) .value
    else if isSpecial c then
      skip 1
      return .parameter c.toString .value
    else return .plain '$'
  | none => return .plain '$'

/-- A command between backquotes, behind the first of them. Its lines are counted from 1, and what
stands behind the command there counts for nothing. -/
def backquotes (m : Mode) : Reader Piece := do
  let input ← get
  match backquoted? m.isQuoted input.rest with
  | none =>
    skip input.rest.length
    fail .openBackquote
  | some (text, rest) =>
    set { Input.ofText .script text input.aliases input.documents with
      nextDocument := input.nextDocument }
    let body ← list
    let inner ← get
    let taken := input.rest.take (input.rest.length - rest.length)
    set { input with
      rest := rest
      line := input.line + (taken.filter (· == '\n')).length
      documents := inner.documents
      nextDocument := inner.nextDocument }
    return .output body

def atEnd : Mode → Reader Word
  | .bare | .document => return []
  | .braced => fail .openBrace
  | .quoted | .quotedBraced => do
    if (← get).bounds == .script then fail .openQuote else fail .openBrace
  | .arithmetic _ => fail .openArithmetic

def singleQuoted : Nat → Reader (List Char)
  | 0 => fail .endless
  | n + 1 => do
    let part := (← get).rest.takeWhile fun c => c != '\'' && c != '\n'
    skip part.length
    let next ← peek?
    skip 1
    if next == some '\'' then return part
    else if next.isNone || (← endsAtLine) then
      let _ ← atEnd .quoted
      return part
    else return part ++ '\n' :: (← singleQuoted n)

def ordinary (m : Mode) (c : Char) : Reader Word := return .plain c :: (← pieces m)

def closed (m : Mode) : Reader Word := do
  match m with
  | .arithmetic 0 => if ← takes ')' then return [] else ordinary pieces m ')'
  | .arithmetic (depth + 1) => ordinary pieces (.arithmetic depth) ')'
  | _ => ordinary pieces m ')'

def doubleQuote (m : Mode) : Reader Word := do
  match m with
  | .quoted => return []
  | .document | .arithmetic _ => ordinary pieces m '"'
  | .bare | .braced | .quotedBraced =>
    let inner ← pieces .quoted
    return .double inner :: (← pieces m)

def backslash (m : Mode) : Reader Word := do
  match ← peek? with
  | none => return [.literal ['\\']]
  | some '\n' =>
    skip 1
    pieces m
  | some c =>
    skip 1
    return escaped m c :: (← pieces m)

def lineEnd (m : Mode) : Reader Word := do
  if ← endsAtLine then return .plain '\n' :: (← atEnd m) else ordinary pieces m '\n'

def piecesFrom (m : Mode) (c : Char) : Reader Word := do
  if m == .bare && endsWord c then return []
  skip 1
  match c with
  | '\\' => backslash pieces m
  | '"' => doubleQuote pieces m
  | '$' | '`' =>
    if (← get).delimits then ordinary pieces m c
    else
      let piece ← if c = '$' then dollar list pieces m else backquotes list m
      return piece :: (← pieces m)
  | '\x7d' => if m == .braced || m == .quotedBraced then return [] else ordinary pieces m c
  | ')' => closed pieces m
  | '(' =>
    match m with
    | .arithmetic depth => ordinary pieces (.arithmetic (depth + 1)) c
    | _ => ordinary pieces m c
  | '\n' => lineEnd pieces m
  | '\'' =>
    if m.isQuoted then ordinary pieces m c
    else
      let text ← singleQuoted ((← size) + 1)
      return .literal text :: (← pieces m)
  | _ => ordinary pieces m c

end Words

def pieces (list : Reader (Option Command)) : Nat → Mode → Reader Word
  | 0, _ => fail .endless
  | n + 1, m => do
    match ← peek? with
    | none => atEnd m
    | some c => piecesFrom list (pieces list n) m c

def word (list : Reader (Option Command)) : Reader Word := do pieces list ((← size) + 1) .bare

end Reader

end FlightBlocks.Shell
