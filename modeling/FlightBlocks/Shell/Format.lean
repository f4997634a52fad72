import FlightBlocks.Machine.Escape
import FlightBlocks.Shell.Real
/-!
Formats: texts with conversions, each of which prints the next argument. A format is used again as
long as arguments are left. All texts are byte texts.
-/

namespace FlightBlocks.Shell.Format

structure Directive where
  flags : List Char
  width : Nat
  precision : Option Nat
  deriving DecidableEq, Repr

def Directive.has (d : Directive) (flag : Char) : Bool := d.flags.contains flag

/-- A text at its width; `zeros` says whether zeros fill it, behind the sign. -/
def Directive.fill (d : Directive) (zeros : Bool) (sign body : String) : String :=
  let missing := d.width - (sign.length + body.length)
  if d.has '-' then sign ++ body ++ String.ofList (List.replicate missing ' ')
  else if zeros then sign ++ String.ofList (List.replicate missing '0') ++ body
  else String.ofList (List.replicate missing ' ') ++ sign ++ body

def Directive.text (d : Directive) (s : String) : String :=
  let kept := match d.precision with
    | some n => String.ofList (s.toList.take n)
    | none => s
  d.fill false "" kept

def Directive.sign (d : Directive) (negative : Bool) : String :=
  if negative then "-" else if d.has '+' then "+" else if d.has ' ' then " " else ""

def Directive.digits (d : Directive) (n : Nat) (shown : String) : String :=
  match d.precision with
  | none => shown
  | some 0 => if n = 0 then "" else shown
  | some least => String.ofList (List.replicate (least - shown.length) '0') ++ shown

def Directive.integer (d : Directive) (sign : String) (digits : String) : String :=
  d.fill (d.has '0' && d.precision.isNone) sign digits

def digitsIn (base : Nat) (upper : Bool) (n : Nat) : String :=
  let digits := String.ofList (Nat.toDigits base n)
  if upper then digits.map Char.toUpper else digits

def Directive.natural (d : Directive) (letter : Char) (n : Nat) : String :=
  if letter = 'o' then
    let shown := d.digits n (digitsIn 8 false n)
    d.integer "" (if d.has '#' && shown.toList.head? != some '0' then "0" ++ shown else shown)
  else if letter = 'u' then d.integer "" (d.digits n (toString n))
  else
    let upper := letter = 'X'
    let start := if d.has '#' && n != 0 then (if upper then "0X" else "0x") else ""
    d.integer start (d.digits n (digitsIn 16 upper n))

def Directive.real (d : Directive) (letter : Char) (x : Real) : String :=
  let body := Real.digits letter.toLower d.precision (d.has '#') x
  let start := if letter.toLower = 'a' && x.isFinite then "0x" else ""
  let shown (s : String) : String := if letter.isUpper then s.map Char.toUpper else s
  d.fill (d.has '0' && x.isFinite) (d.sign x.isNegative ++ shown start) (shown body)

inductive Problem where
  | missingLetter
  | invalidDirective (text : String)
  deriving DecidableEq, Repr

def Problem.message : Problem → String
  | missingLetter => "missing format character"
  | invalidDirective text => text ++ ": invalid directive"

structure Work where
  arguments : List String
  printed : String
  complaints : List String

abbrev Eval := ExceptT Problem (StateM Work)

def print (s : String) : Eval Unit := modify fun w => { w with printed := w.printed ++ s }

def complain (s : String) : Eval Unit :=
  modify fun w => { w with complaints := w.complaints ++ [s] }

def argument? : Eval (Option String) := do
  let w ← get
  set { w with arguments := w.arguments.tail }
  return w.arguments.head?

def check (argument : String) (rest : List Char) (outside : Bool) : Eval Unit := do
  if !rest.isEmpty then
    complain (argument ++
      if rest.length = argument.length then ": expected numeric value"
      else ": not completely converted")
  else if outside then complain (argument ++ ": Numerical result out of range")

def quotedCode? (argument : String) : Option Nat :=
  match argument.toList with
  | q :: cs => if q == '"' || q == '\'' then some ((cs.head?.map Char.toNat).getD 0) else none
  | [] => none

def signedArgument : Eval Int := do
  match ← argument? with
  | none => return 0
  | some s =>
    match quotedCode? s with
    | some n => return n
    | none =>
      let r := Number.scan none s.toList
      check s r.rest (Number.isOutside r.value)
      return max Number.least (min Number.greatest r.value)

def unsignedArgument : Eval Nat := do
  match ← argument? with
  | none => return 0
  | some s =>
    match quotedCode? s with
    | some n => return n
    | none =>
      let r := Number.scan none s.toList
      let outside := r.value.natAbs ≥ UInt64.size
      check s r.rest outside
      return if outside then UInt64.size - 1 else (r.value % UInt64.size).toNat

def realArgument : Eval Real := do
  match ← argument? with
  | none => return .finite false 0 1
  | some s =>
    match quotedCode? s with
    | some n => return .finite false n 1
    | none =>
      match Real.scan? s.toList with
      | some r =>
        check s r.rest r.outside
        return r.value
      | none =>
        check s s.toList false
        return .finite false 0 1

/-- A width or precision: digits, or a star for the next argument. -/
def measure (cs : List Char) : Eval (Option Int × List Char) := do
  match cs with
  | '*' :: rest => return (some (← signedArgument), rest)
  | _ =>
    let digits := cs.takeWhile Char.isDigit
    let n := if digits.isEmpty then none else some (Number.valueOf 10 digits : Int)
    return (n, cs.drop digits.length)

def directive (cs : List Char) : Eval (Directive × List Char) := do
  let flags := cs.takeWhile fun c => "#-+ 0".toList.contains c
  let (width, rest) ← measure (cs.drop flags.length)
  let width := width.getD 0
  let flags := if width < 0 then '-' :: flags else flags
  match rest with
  | '.' :: more =>
    let (precision, rest) ← measure more
    let precision := precision.getD 0
    return (⟨flags, width.natAbs, if precision < 0 then none else some precision.toNat⟩, rest)
  | _ => return (⟨flags, width.natAbs, none⟩, rest)

def convert (d : Directive) (letter : Char) (written : List Char) : Eval Bool := do
  if letter = 's' then print (d.text ((← argument?).getD ""))
  else if letter = 'b' then
    let (s, ended) := Escape.expandText ⟨true, false, true⟩ ((← argument?).getD "")
    print (d.text s)
    return ended
  else if letter = 'c' then
    let c := (((← argument?).getD "").toList.head?).getD '\x00'
    print ({ d with precision := none }.text c.toString)
  else if letter = 'd' ∨ letter = 'i' then
    let n ← signedArgument
    print (d.integer (d.sign (n < 0)) (d.digits n.natAbs (toString n.natAbs)))
  else if "ouxX".toList.contains letter then print (d.natural letter (← unsignedArgument))
  else if "aAeEfFgG".toList.contains letter then print (d.real letter (← realArgument))
  else throw (.invalidDirective (String.ofList ('%' :: written)))
  return false

def once : Nat → List Char → Eval Bool
  | 0, _ => return true
  | _, [] => return false
  | n + 1, c :: cs =>
    if c = '\\' then do
      let (text, rest) := Escape.one ⟨false, false, false⟩ cs
      print (String.ofList text)
      once n (rest.getD [])
    else if c = '%' then
      match cs with
      | '%' :: rest => do
        print "%"
        once n rest
      | _ => do
        let (d, rest) ← directive cs
        match rest with
        | [] => throw .missingLetter
        | letter :: rest =>
          let ended ← convert d letter (cs.take (cs.length - rest.length))
          if ended then return true else once n rest
    else do
      print c.toString
      once n cs

def all (format : String) : Nat → Eval Unit
  | 0 => return ()
  | n + 1 => do
    let before := (← get).arguments.length
    let ended ← once (format.length + 1) format.toList
    let left := (← get).arguments
    if ended || left.isEmpty || left.length = before then return () else all format n

/-- What a format prints of its arguments, what it complains of, and what is wrong with it. -/
def apply (format : String) (arguments : List String) : Except Problem Unit × Work :=
  (all format (arguments.length + 1)).run ⟨arguments, "", []⟩

end FlightBlocks.Shell.Format
