import FlightBlocks.Shell.WordReader
/-!
Reading commands. A script is read one line at a time, so that each line is run before the next one
is looked at; a command that goes on over lines is read to its end. `n` bounds what is left to read.
-/

namespace FlightBlocks.Shell

/-- What may stand in the place of the next token. -/
structure Allowed where
  newlines : Bool
  keywords : Bool
  aliases : Bool
  deriving DecidableEq, Repr

namespace Allowed

def none : Allowed := ⟨false, false, false⟩

def command : Allowed := ⟨false, true, true⟩

def later : Allowed := ⟨true, true, true⟩

end Allowed

/-- Where a list of commands ends. -/
inductive Extent where
  | line
  | body
  | optional
  deriving DecidableEq, Repr

def keywords : List String :=
  ["!", "case", "do", "done", "elif", "else", "esac", "fi", "for", "if", "in", "then", "until",
    "while", "\x7b", "\x7d"]

def Token.endsList : Token → Bool
  | .ending => true
  | .operator sign => sign == ")" || sign == ";;"
  | .keyword name => ["do", "done", "elif", "else", "esac", "fi", "then", "\x7d"].contains name
  | _ => false

def Token.isKeyword (name : String) : Token → Bool
  | .keyword k => k == name
  | _ => false

def Token.isOperator (sign : String) : Token → Bool
  | .operator s => s == sign
  | _ => false

def longSigns : List String := ["<<", "<&", "<>", ">>", ">|", ">&"]

def specialNames : List String :=
  [".", ":", "break", "continue", "eval", "exec", "exit", "export", "local", "readonly", "return",
    "set", "shift", "times", "trap", "unset"]

def sequenced : Option Command → Command → Command
  | none, c => c
  | some first, c => .sequence first c

namespace Reader

def operatorFrom (c : Char) : Reader Token := do
  let single := Token.operator c.toString
  if c == '(' || c == ')' then return single
  else if ← takes c then return .operator (String.ofList [c, c])
  else return single

def signFrom (c : Char) : Reader String := do
  let long := (← peekJoined?).bind fun next => longSigns.find? (· == String.ofList [c, next])
  match long with
  | none => return c.toString
  | some sign =>
    skip 1
    if sign == "<<" then
      if ← takes '-' then return "<<-" else return sign
    else return sign

section Tokens

variable (list : Reader (Option Command))

def linesUpTo (d : Delimiter) : Nat → Reader (List Char)
  | 0 => return []
  | n + 1 => do
    if ← closes d then return []
    let rest := (← get).rest
    let line := rest.takeWhile (· != '\n') ++ (rest.dropWhile (· != '\n')).take 1
    if line.isEmpty then return []
    skip line.length
    return line ++ (← linesUpTo d n)

def document (a : Awaited) : Reader Unit := do
  let n := (← size) + 1
  let expanded : Reader Word := do
    if ← closes a.delimiter then return []
    else within (.document a.delimiter) (pieces list n .document)
  let body ← if a.expands then expanded else do pure [.literal (← linesUpTo a.delimiter n)]
  modify fun input => { input with documents := (a.number, body) :: input.documents }

def documents : Reader Unit := do
  let awaited := (← get).awaited
  modify fun input => { input with awaited := [] }
  awaited.forM (document list)

def skipBlanks : Nat → Reader Unit
  | 0 => return ()
  | n + 1 => do
    match (← get).rest with
    | ' ' :: _ | '\t' :: _ =>
      skip 1
      skipBlanks n
    | '\\' :: '\n' :: _ =>
      skip 2
      skipBlanks n
    | '#' :: cs => skip (cs.takeWhile (· != '\n')).length.succ
    | _ => return ()

def scan : Reader Token := do
  skipBlanks ((← size) + 1)
  match ← peek? with
  | none => return .ending
  | some c =>
    if c == '\n' then
      skip 1
      return .newline
    else if "&|;()".toList.contains c then
      skip 1
      operatorFrom c
    else if c == '<' || c == '>' then
      skip 1
      return .redirection none (← signFrom c)
    else
      let w ← word list
      match w, ← peek? with
      | [.plain d], some c =>
        if d.isDigit && (c == '<' || c == '>') then
          skip 1
          return .redirection (some (d.toNat - 48)) (← signFrom c)
        else return .word w
      | _, _ => return .word w

/-- The text that an alias in the place of a word stands for. -/
def aliasOf? (input : Input) (w : Word) : Option (String × String) :=
  w.plainText?.bind fun cs =>
    let name := String.ofList cs
    let busy := input.replacing.any fun r => r.name == name && r.goesOn input.rest.length
    if busy then none else (input.aliases.lookup name).map fun text => (name, text)

def replace (name text : String) : Reader Unit :=
  modify fun input =>
    let left := input.rest.length
    let isBlank (c : Char) : Bool := c == ' ' || c == '\t'
    { input with
      rest := text.toList ++ input.rest
      replacing := ⟨name, left, text.toList.getLast?.any isBlank⟩ ::
        input.replacing.filter (Replacement.goesOn · left) }

/-- The next token, with what is `allowed` taken into account. The word behind an alias that ends
with a blank may be an alias too. -/
def nextToken (allowed : Allowed) : Nat → Reader Token
  | 0 => fail .endless
  | n + 1 => do
    let before ← get
    let token ←
      match before.ahead with
      | some token =>
        modify fun input => { input with ahead := none }
        pure token
      | none => scan list
    match token with
    | .newline =>
      if allowed.newlines then
        documents list
        nextToken allowed n
      else return token
    | .word w =>
      let name := w.plainText?.map String.ofList
      match name.bind fun name => keywords.find? (· == name) with
      | some keyword =>
        if allowed.keywords then return .keyword keyword
        else return token
      | none =>
        let input ← get
        let follows := before.replacing.any fun r =>
          r.endsBlank && r.goesOn before.rest.length && !r.goesOn input.rest.length
        let aliases := (allowed.aliases || follows) && before.ahead.isNone
        match if aliases then aliasOf? input w else none with
        | none => return token
        | some (name, text) =>
          replace name text
          nextToken { allowed with aliases := true } n
    | _ => return token

def token (allowed : Allowed) : Reader Token := do nextToken list allowed ((← size) + 1000)

def putBack (t : Token) : Reader Unit := modify fun input => { input with ahead := some t }

def keyword (allowed : Allowed) (name : String) : Reader Unit := do
  let t ← token list allowed
  if !t.isKeyword name then fail (.unexpected t.shown (some (Token.keyword name).shown))

def redirection (descriptor : Option Nat) (sign : String) : Reader Redirection := do
  let delimits := sign == "<<" || sign == "<<-"
  modify fun input => { input with delimits := delimits }
  let t ← token list .none
  modify fun input => { input with delimits := false }
  match t with
  | .word w =>
    let source := descriptor.getD 0
    let target := descriptor.getD 1
    if sign == "<" then return .file source .read w
    else if sign == "<>" then return .file source .readWrite w
    else if sign == ">" then return .file target .write w
    else if sign == ">|" then return .file target .overwrite w
    else if sign == ">>" then return .file target .append w
    else if sign == "<&" then return .duplicate source w
    else if sign == ">&" then return .duplicate target w
    else
      let number := (← get).nextDocument
      let awaited : Awaited := ⟨number, ⟨w.unquoted, sign == "<<-"⟩, w.isBare⟩
      modify fun input =>
        { input with awaited := input.awaited ++ [awaited], nextDocument := number + 1 }
      return .document source number
  | _ => fail (.unexpected t.shown none)

def redirections (allowed : Allowed) : Nat → Reader (List Redirection)
  | 0 => fail .endless
  | n + 1 => do
    match ← token list allowed with
    | .redirection descriptor sign =>
      let r ← redirection list descriptor sign
      return r :: (← redirections .none n)
    | t =>
      putBack t
      return []

end Tokens

section Commands

variable (lists : Extent → Reader (Option Command)) (command : Allowed → Reader Command)

def body : Reader Command := return (← lists .body).getD (.pipeline [])

structure Draft where
  assignments : List (String × Word)
  words : List Word
  redirections : List Redirection

def function (w : Word) : Reader Command := do
  let t ← token (lists .optional) .none
  if !t.isOperator ")" then fail (.unexpected t.shown (some "\")\""))
  let name := String.ofList (w.plainText?.getD [])
  if !isName name.toList || specialNames.contains name then fail .badFunctionName
  return .define name (← command .later)

def simpleRest (line : Nat) : Nat → Draft → Reader Command
  | 0, _ => fail .endless
  | n + 1, d => do
    let t ← token (lists .optional) ⟨false, false, d.words.isEmpty⟩
    match t, d with
    | .word w, _ =>
      match if d.words.isEmpty then w.assignment? else none with
      | some a => simpleRest line n { d with assignments := d.assignments ++ [a] }
      | none => simpleRest line n { d with words := d.words ++ [w] }
    | .redirection descriptor sign, _ =>
      let r ← redirection (lists .optional) descriptor sign
      simpleRest line n { d with redirections := d.redirections ++ [r] }
    | .operator "(", ⟨[], [w], []⟩ => function lists command w
    | _, _ =>
      putBack t
      return .simple line d.assignments d.words d.redirections

def simple : Reader Command := do
  simpleRest lists command (← get).line ((← size) + 1000) ⟨[], [], []⟩

def branches : Nat → Reader Command
  | 0 => fail .endless
  | n + 1 => do
    let test ← body lists
    keyword (lists .optional) .none "then"
    let consequent ← body lists
    let t ← token (lists .optional) .none
    if t.isKeyword "elif" then return .conditional test consequent (some (← branches n))
    else if t.isKeyword "else" then return .conditional test consequent (some (← body lists))
    else
      putBack t
      return .conditional test consequent none

def forWords : Nat → Reader (List Word)
  | 0 => fail .endless
  | n + 1 => do
    let t ← token (lists .optional) .none
    match t with
    | .word w => return w :: (← forWords n)
    | .newline | .operator ";" => return []
    | _ => fail (.unexpected t.shown none)

def forLoop (line : Nat) : Reader Command := do
  let t ← token (lists .optional) .none
  let name := match t with
    | .word w => w.plainText?.getD []
    | _ => []
  if !isName name then fail .badLoopVariable
  let t ← token (lists .optional) .later
  let words ←
    if t.isKeyword "in" then forWords lists ((← size) + 1)
    else do
      if !t.isOperator ";" then putBack t
      pure [[.double [.parameter "@" .value]]]
  keyword (lists .optional) .later "do"
  let body ← body lists
  return .each line (String.ofList name) words body

/-- The patterns of a branch of a `case`; `t` is the first of them. In the place of a sign stands
the last word again. -/
def patterns : Nat → Word → Token → Reader (List Word)
  | 0, _, _ => fail .endless
  | n + 1, last, t => do
    let w := match t with
      | .word w => w
      | .keyword name => name.toList.map .plain
      | _ => last
    let next ← token (lists .optional) .none
    if next.isOperator "|" then return w :: (← patterns n w (← token (lists .optional) .none))
    else if next.isOperator ")" then return [w]
    else fail (.unexpected next.shown (some "\")\""))

def cases : Nat → Reader (List (List Word × Option Command))
  | 0 => fail .endless
  | n + 1 => do
    let t ← token (lists .optional) ⟨true, true, false⟩
    if t.isKeyword "esac" then return []
    let first ← if t.isOperator "(" then token (lists .optional) .none else pure t
    let ws ← patterns lists ((← size) + 1000) ("in".toList.map .plain) first
    let body ← lists .optional
    let last ← token (lists .optional) ⟨true, true, false⟩
    if last.isKeyword "esac" then return [(ws, body)]
    else if last.isOperator ";;" then return (ws, body) :: (← cases n)
    else fail (.unexpected last.shown (some "\";;\""))

def choice (line : Nat) : Reader Command := do
  let t ← token (lists .optional) .none
  match t with
  | .word w =>
    keyword (lists .optional) .later "in"
    return .choice line w (← cases lists ((← size) + 1))
  | _ => fail (.unexpected t.shown (some "word"))

def whileLoop (stopsAtSuccess : Bool) : Reader Command := do
  let test ← body lists
  keyword (lists .optional) .none "do"
  return .loop stopsAtSuccess test (← body lists)

def close (wanted : Token) : Reader Unit := do
  let t ← token (lists .optional) .none
  if t.shown != wanted.shown then fail (.unexpected t.shown (some wanted.shown))

def compound? (line : Nat) (name : String) : Option (Reader Command) :=
  let closedBy (name : String) (read : Reader Command) : Reader Command := do
    let c ← read
    close lists (.keyword name)
    return c
  if name == "if" then some (do closedBy "fi" (branches lists ((← size) + 1)))
  else if name == "while" then some (closedBy "done" (whileLoop lists false))
  else if name == "until" then some (closedBy "done" (whileLoop lists true))
  else if name == "for" then some (closedBy "done" (forLoop lists line))
  else if name == "case" then some (choice lists line)
  else if name == "\x7b" then some (closedBy "\x7d" (body lists))
  else none

def redirected (line : Nat) (c : Command) : Reader Command := do
  let rs ← redirections (lists .optional) .command ((← size) + 1)
  return if rs.isEmpty then c else .redirected line c rs

def commandWith (allowed : Allowed) : Reader Command := do
  let t ← token (lists .optional) allowed
  let line := (← get).line
  match t with
  | .word _ | .redirection _ _ =>
    putBack t
    simple lists command
  | .operator "(" =>
    let c ← body lists
    close lists (.operator ")")
    redirected lists line (.subshell c)
  | .keyword name =>
    match compound? lists line name with
    | some read => redirected lists line (← read)
    | none => fail (.unexpected t.shown none)
  | _ => fail (.unexpected t.shown none)

def pipedInto (list : Reader (Option Command)) : Nat → Reader (List Command)
  | 0 => fail .endless
  | n + 1 => do
    let t ← token list .none
    if t.isOperator "|" then return (← command .later) :: (← pipedInto list n)
    else
      putBack t
      return []

def pipeline (list : Reader (Option Command)) (allowed : Allowed) : Reader Command := do
  let t ← token list allowed
  let negated := t.isKeyword "!"
  if !negated then putBack t
  let first ← command .command
  let more ← pipedInto command list ((← size) + 1000)
  let c : Command := if more.isEmpty then first else .pipeline (first :: more)
  return if negated then .negation c else c

def conditions (list : Reader (Option Command)) : Nat → Command → Reader Command
  | 0, _ => fail .endless
  | n + 1, c => do
    let t ← token list .none
    if t.isOperator "&&" then conditions list n (.both c (← pipeline command list .later))
    else if t.isOperator "||" then conditions list n (.either c (← pipeline command list .later))
    else
      putBack t
      return c

def andOr (list : Reader (Option Command)) : Reader Command := do
  let first ← pipeline command list .none
  conditions command list ((← size) + 1000) first

def listRest (list : Reader (Option Command)) (extent : Extent) :
    Nat → Option Command → Reader (Option Command)
  | 0, _ => fail .endless
  | n + 1, before => do
    let t ← token list ⟨extent != .line, true, true⟩
    match t with
    | .newline =>
      documents list
      return before
    | .ending =>
      documents list
      putBack t
      return before
    | _ =>
      putBack t
      let mayEnd := extent == .optional || (extent == .body && before.isSome)
      if mayEnd && t.endsList then return before
      let c ← andOr command list
      let t ← token list .none
      let c := if t.isOperator "&" then .background c else c
      let all := some (sequenced before c)
      match t with
      | .ending =>
        documents list
        putBack t
        return all
      | .newline =>
        putBack t
        listRest list extent n all
      | .operator ";" | .operator "&" => listRest list extent n all
      | _ =>
        if extent == .line then fail (.unexpected t.shown none)
        putBack t
        return all

end Commands

/-- A command, with functions of functions `n` deep. -/
def command (lists : Extent → Reader (Option Command)) : Nat → Allowed → Reader Command
  | 0, _ => fail .endless
  | n + 1, allowed => commandWith lists (command lists n) allowed

def commands : Nat → Extent → Reader (Option Command)
  | 0, _ => fail .endless
  | n + 1, extent => do
    let depth := (← size) + 1000
    listRest (command (commands n) depth) (commands n .optional) extent depth none

end Reader

def readText (text : String) (documents : List (Nat × Word)) :
    Except Misreading (Word × List (Nat × Word)) :=
  let n := text.length + 1
  let read := Reader.pieces (Reader.commands (n + 1) .optional) n .document
  (read.run (Input.ofText .text text.toList [] documents)).map fun (w, input) =>
    (w, input.documents)

def readLine (input : Input) : Except Misreading ((Option Command × Bool) × Input) :=
  (do
    let c ← Reader.commands (input.rest.length + 2) .line
    let ends := match (← get).ahead with
      | some .ending => true
      | _ => false
    return (c, ends) : Reader (Option Command × Bool)).run input

end FlightBlocks.Shell
