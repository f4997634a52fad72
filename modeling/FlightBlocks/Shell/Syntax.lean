/-!
Scripts: words with their quotes and expansions, commands with their redirections, and how commands
are put together. All texts are byte texts.
-/

namespace FlightBlocks.Shell

inductive Opening where
  | read
  | write
  | overwrite
  | append
  | readWrite
  deriving DecidableEq, Repr

mutual

inductive Piece where
  | plain (c : Char)
  | literal (text : List Char)
  | double (inner : List Piece)
  | parameter (name : String) (use : Use)
  | output (body : Option Command)
  | arithmetic (expression : List Piece)

/-- What is made of a parameter. With `orEmpty`, an empty value counts as none. -/
inductive Use where
  | value
  | extended (word : List Piece)
  | length
  | default (orEmpty : Bool) (word : List Piece)
  | assign (orEmpty : Bool) (word : List Piece)
  | require (orEmpty : Bool) (word : List Piece)
  | alternative (orEmpty : Bool) (word : List Piece)
  | trim (atEnd longest : Bool) (pattern : List Piece)
  | bad

inductive Redirection where
  | file (descriptor : Nat) (opening : Opening) (target : List Piece)
  | duplicate (descriptor : Nat) (source : List Piece)
  /-- Input from the text of the script, by the number of the text. -/
  | document (descriptor : Nat) (number : Nat)

inductive Command where
  | simple (line : Nat) (assignments : List (String × List Piece)) (words : List (List Piece))
      (redirections : List Redirection)
  | pipeline (commands : List Command)
  | negation (command : Command)
  | sequence (first second : Command)
  | both (first second : Command)
  | either (first second : Command)
  | background (command : Command)
  | subshell (command : Command)
  | conditional (test consequent : Command) (alternative : Option Command)
  | loop (stopsAtSuccess : Bool) (test body : Command)
  | each (line : Nat) (name : String) (words : List (List Piece)) (body : Command)
  | choice (line : Nat) (word : List Piece)
      (branches : List (List (List Piece) × Option Command))
  | define (name : String) (body : Command)
  | redirected (line : Nat) (command : Command) (redirections : List Redirection)

end

abbrev Word := List Piece

def isNameStart (c : Char) : Bool := c.isAlpha || c == '_'

def isNameChar (c : Char) : Bool := c.isAlphanum || c == '_'

def isName (cs : List Char) : Bool := cs.head?.any isNameStart && cs.all isNameChar

def isSpecial (c : Char) : Bool := "@*#?-$!".toList.contains c || c.isDigit

def Word.plainText? : Word → Option (List Char)
  | [] => some []
  | .plain c :: rest => (Word.plainText? rest).map (c :: ·)
  | _ => none

def Word.plainStart (p : Char → Bool) : Word → List Char
  | .plain c :: rest => if p c then c :: Word.plainStart p rest else []
  | _ => []

def Word.unquoted : Word → List Char
  | [] => []
  | .plain c :: rest => c :: Word.unquoted rest
  | .literal cs :: rest => cs ++ Word.unquoted rest
  | .double inner :: rest => Word.unquoted inner ++ Word.unquoted rest
  | _ :: rest => Word.unquoted rest

def Word.isBare (w : Word) : Bool :=
  w.all fun piece =>
    match piece with
    | .literal _ | .double _ => false
    | _ => true

def Word.assignment? (w : Word) : Option (String × Word) :=
  let letters := (w.map fun piece =>
    match piece with
    | .plain c => c
    | _ => '=').takeWhile (· != '=')
  match w.drop letters.length with
  | .plain '=' :: value =>
    if isName letters then some (String.ofList letters, value) else none
  | _ => none

end FlightBlocks.Shell
