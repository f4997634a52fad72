import FlightBlocks.Shell.Arithmetic
import FlightBlocks.Shell.Descriptor
import FlightBlocks.Shell.Field
import FlightBlocks.Shell.Switch
/-!
Expanding words: parameters, the output of commands, arithmetic, and the names of files that a
pattern stands for. `run` runs a command; `n` bounds how deep words stand in words. All texts are
byte texts.
-/

namespace FlightBlocks.Shell

/-- How a word is expanded. -/
structure Manner where
  quoted : Bool
  splits : Bool
  inside : Bool
  deriving DecidableEq, Repr

namespace Act

def parameter? (name : String) : Act (Option String) := do
  let sh ← get
  if name == "?" then return some (toString sh.status)
  else if name == "#" then return some (toString sh.arguments.length)
  else if name == "$" then return some (toString sh.process)
  else if name == "!" then return sh.background.map toString
  else if name == "-" then
    return some (String.ofList (Switch.letters.reverse.filter sh.options.contains))
  else
    match name.toNat? with
    | some 0 => return some sh.name
    | some i => return sh.arguments[i - 1]?
    | none => value? name

def argumentMarks (quoted : Bool) (arguments : List String) : List Mark :=
  let one (argument : String) : List Mark :=
    (if quoted then [Mark.quotes] else []) ++ Mark.ofValue quoted argument
  (arguments.map one).intersperse [.gap] |>.flatten

def allArguments (m : Manner) (name : String) : Act (List Char) := do
  let between ←
    if m.splits && (name == "@" || !m.quoted) then pure Pattern.between.toString else separator
  return (String.intercalate between (← get).arguments).toList

def rowMarks (m : Manner) (row : List Char) : List Mark :=
  argumentMarks m.quoted ((row.splitOn Pattern.between).map String.ofList)

def isArguments (name : String) : Bool := name == "@" || name == "*"

def missing {α : Type} (name : String) (orEmpty : Bool) (message : Option String) : Act α :=
  fault (name ++ ": " ++
    message.getD ("parameter not set" ++ (if orEmpty then " or null" else "")))

def demand (name : String) (found : Bool) : Act Unit := do
  if !found && !isArguments name && (← isSet 'u') then missing name false none

def home? (user : List Char) : Act (Option String) := do
  if user.isEmpty then value? "HOME"
  else return if user == "root".toList then some "/root" else none

/-- A word with a directory for the tilde at its beginning, if there is one. In a value, a colon
ends the name behind the tilde. -/
def withHome (isValue : Bool) (w : Word) : Act Word := do
  match w with
  | .plain '~' :: rest =>
    let ends (c : Char) : Bool := c == '/' || (isValue && c == ':')
    let name := Word.plainStart (fun c => !ends c) rest
    let rest := rest.drop name.length
    let isName := match rest with
      | [] => true
      | .plain c :: _ => ends c
      | _ => false
    match isName, ← home? name with
    | true, some "" => return rest
    | true, some home => return .literal home.toList :: rest
    | _, _ => return w
  | _ => return w

def withHomes (w : Word) : Act Word := do
  let parts := w.splitBy fun piece _ =>
    match piece with
    | .plain ':' => false
    | _ => true
  return (← parts.mapM (withHome true)).flatten

section Pieces

variable (run : Command → Act Unit) (expand : Manner → Word → Act (List Mark))

def output (body : Option Command) : Act String := do
  match body with
  | none =>
    modify fun sh => { sh with outputStatus := 0 }
    return ""
  | some c =>
    let (i, world) := (← get).world.add (.pipe "")
    modify fun sh => { sh with world := world }
    let (result, inner) ← forking do
      setDescriptor 1 i
      run c
    match result with
    | .error .endless => throw .endless
    | _ => pure ()
    let status ← match result with
      | .error (.killed signal) => do
        write 2 (Signal.notice signal)
        pure (128 + signal)
      | _ => pure inner.status
    modify fun sh => { sh with outputStatus := status }
    match (← get).world.handle i with
    | .pipe content =>
      let kept := content.toList.filter (· != '\x00')
      return String.ofList (kept.reverse.dropWhile (· == '\n')).reverse
    | _ => return ""

def arithmetic (m : Manner) (expression : Word) : Act (List Mark) := do
  let text := Mark.text (← expand ⟨true, false, false⟩ expression)
  let bindings := (← get).bindings
  match Arithmetic.evaluate (fun name => (bindings.lookup name).bind Variable.value) text with
  | .error problem => fault (problem.complaint text)
  | .ok (n, assigned) =>
    assigned.reverse.forM fun (name, value) => assign name value
    return Mark.ofValue m.quoted (toString n)

def use (m : Manner) (name : String) (u : Use) : Act (List Mark) := do
  let inner : Manner := ⟨m.quoted, m.splits, true⟩
  let value ←
    if isArguments name then do
      let arguments := (← get).arguments
      pure (if arguments.isEmpty then none else some (String.intercalate " " arguments))
    else parameter? name
  let marks : Act (List Mark) :=
    if isArguments name then do
      if value.isSome then return rowMarks m (← allArguments m name) else return []
    else return Mark.ofValue m.quoted (value.getD "")
  let settled (word : Word) : Act Word := if m.quoted then return word else withHome false word
  let counts (orEmpty : Bool) : Bool := value.any fun s => !(orEmpty && s.isEmpty)
  match u with
  | .value =>
    demand name value.isSome
    marks
  | .extended word =>
    demand name value.isSome
    return (← marks) ++ (← expand m word)
  | .length =>
    demand name value.isSome
    let length ←
      if isArguments name then do
        pure (String.intercalate (← separator) (← get).arguments).length
      else pure (value.getD "").length
    return Mark.ofValue m.quoted (toString length)
  | .default orEmpty word => if counts orEmpty then marks else expand inner (← settled word)
  | .alternative orEmpty word =>
    if counts orEmpty then expand inner (← settled word) else return []
  | .assign orEmpty word =>
    if counts orEmpty then marks
    else
      let text := Mark.text (← expand ⟨m.quoted, false, false⟩ (← settled word))
      if !isName name.toList then fault (name ++ ": bad variable name")
      assign name text
      return Mark.ofValue m.quoted text
  | .require orEmpty word =>
    if counts orEmpty then marks
    else if word.isEmpty then missing name orEmpty none
    else
      missing name orEmpty
        (some (Mark.text (← expand ⟨m.quoted, false, false⟩ (← settled word))))
  | .trim atEnd longest pattern =>
    demand name value.isSome
    let pattern ← expand ⟨false, false, false⟩ (← withHome false pattern)
    let p := Pattern.ofGlyphs (Mark.glyphs pattern)
    let row ← if isArguments name then allArguments m name else pure (value.getD "").toList
    let cut := if atEnd then Pattern.trimEnd p longest row else Pattern.trimStart p longest row
    return if isArguments name then rowMarks m cut else Mark.ofValue m.quoted (String.ofList cut)
  | .bad => fault "Bad substitution"

/-- Whether nothing is left of a quoted word that is all arguments, when there are none. -/
def vanishes (inner : Word) (marks : List Mark) : Bool :=
  marks.isEmpty && match inner with
    | [.parameter "@" .value] => true
    | _ => false

def piece (m : Manner) : Piece → Act (List Mark)
  | .plain c => return [.glyph ⟨c, m.quoted⟩ (m.inside && m.splits && !m.quoted)]
  | .literal cs => return (if m.quoted then [] else [.quotes]) ++ Mark.ofQuoted cs
  | .double inner => do
    let marks ← expand { m with quoted := true } inner
    return if vanishes inner marks then [] else .quotes :: marks
  | .parameter name u => use expand m name u
  | .output body => return Mark.ofValue m.quoted (← output run body)
  | .arithmetic expression => arithmetic expand m expression

end Pieces

def marks (run : Command → Act Unit) : Nat → Manner → Word → Act (List Mark)
  | 0, _, _ => throw .endless
  | n + 1, m, w => return (← w.mapM (piece run (marks run n) m)).flatten

end Act

def namesIn (t : Tree) (place : Place) : List String :=
  let names := t.filterMap fun entry =>
    if entry.1.dropLast == place && !entry.1.isEmpty then
      entry.1.getLast?.map Bytes.encode
    else none
  names.mergeSort fun a b => a ≤ b

/-- The names that a pattern stands for; names that begin with a dot only if the pattern does. -/
def namesFor (t : Tree) (place : Place) (p : Field) : List String :=
  let hidden := p.head?.any fun g => g.char == '.'
  let names := (if hidden then [".", ".."] else []) ++ namesIn t place
  names.filter fun name =>
    (hidden || name.toList.head? != some '.') &&
      Pattern.isMatch (Pattern.ofGlyphs p) name.toList

def parts (field : Field) : List Field :=
  field.foldr (fun g found =>
    if g.char == '/' then [] :: found
    else
      match found with
      | [] => [[g]]
      | first :: rest => (g :: first) :: rest) [[]]

def fieldText (field : Field) : String := String.ofList (field.map Glyph.char)

def unescaped : Field → String
  | [] => ""
  | ⟨'\\', false⟩ :: g :: rest => g.char.toString ++ unescaped rest
  | g :: rest => g.char.toString ++ unescaped rest

def pathsFor (t : Tree) (cwd : Place) : String → List Field → List String
  | _, [] => []
  | start, [last] =>
    let exists? (path : String) : Bool :=
      match Scene.reach t cwd false path with
      | .ok (.entry _) | .ok (.link _ _ _) => true
      | _ => false
    if Pattern.isPattern last then
      match Scene.reach t cwd true (if start.isEmpty then "." else start) with
      | .ok (.entry place) =>
        if t.isDirectory place then (namesFor t place last).map (start ++ ·) else []
      | _ => []
    else
      let path := start ++ unescaped last
      if exists? path then [path] else []
  | start, p :: rest =>
    if Pattern.isPattern p then
      match Scene.reach t cwd true (if start.isEmpty then "." else start) with
      | .ok (.entry place) =>
        (namesFor t place p).flatMap fun name => pathsFor t cwd (start ++ name ++ "/") rest
      | _ => []
    else pathsFor t cwd (start ++ unescaped p ++ "/") rest

namespace Act

def fileNames (field : Field) : Act (List String) := do
  let sh ← get
  if sh.options.contains 'f' || !Pattern.isPattern field then return [fieldText field]
  else
    let paths := pathsFor sh.world.tree sh.cwd "" (parts field)
    return if paths.isEmpty then [fieldText field] else paths

section Words

variable (run : Command → Act Unit) (n : Nat)

def expandWord (w : Word) : Act (List String) := do
  let w ← withHome false w
  let found := fields (← separators) (← marks run n ⟨false, true, false⟩ w)
  return (← found.mapM fileNames).flatten

def expandWords (ws : List Word) : Act (List String) := do
  return (← ws.mapM (expandWord run n)).flatten

def expandText (w : Word) : Act String := do
  return Mark.text (← marks run n ⟨false, false, false⟩ (← withHome false w))

/-- The text of a value that is assigned, in which a tilde may also follow a colon. -/
def expandValue (w : Word) : Act String := do
  return Mark.text (← marks run n ⟨false, false, false⟩ (← withHomes w))

def expandPattern (w : Word) : Act (List Pattern.Atom) := do
  return Pattern.ofGlyphs (Mark.glyphs (← marks run n ⟨false, false, false⟩ (← withHome false w)))

def expandDocument (w : Word) : Act String := do
  return Mark.text (← marks run n ⟨true, false, false⟩ w)

end Words

end Act

end FlightBlocks.Shell
