/-!
Options of programs: letters behind a dash, and words behind two dashes. They may stand behind
operands, up to a pair of dashes that stands alone. All texts are byte texts.
-/

namespace FlightBlocks.Tools

structure Known where
  letters : List Char
  words : List (String × Char)

inductive Misuse where
  | letter (c : Char)
  | word (text : String)
  | ambiguous (text : String) (candidates : List String)
  | argument (text : String)
  | noOperand
  deriving DecidableEq, Repr

def Misuse.message : Misuse → String
  | .letter c => "invalid option -- '" ++ c.toString ++ "'"
  | .word text => "unrecognized option '--" ++ text ++ "'"
  | .ambiguous text candidates =>
    "option '--" ++ text ++ "' is ambiguous; possibilities:" ++
      String.join (candidates.map fun c => " '--" ++ c ++ "'")
  | .argument text => "option '--" ++ text ++ "' doesn't allow an argument"
  | .noOperand => "missing operand"

namespace Known

/-- The letter that a word stands for, which may be cut short. -/
def letterOf (k : Known) (text : String) : Except Misuse Char :=
  let word := String.ofList (text.toList.takeWhile (· != '='))
  let candidates := k.words.filter fun entry => entry.1.startsWith word
  let letter : Except Misuse (String × Char) :=
    match k.words.find? fun entry => entry.1 == word, candidates with
    | some entry, _ => .ok entry
    | none, [entry] => .ok entry
    | none, [] => .error (.word text)
    | none, _ => .error (.ambiguous text (candidates.map (·.1)))
  match letter with
  | .ok (full, c) => if word == text then .ok c else .error (.argument full)
  | .error misuse => .error misuse

def options (k : Known) : List String → Except Misuse (List Char × List String)
  | [] => .ok ([], [])
  | arg :: args =>
    let behind (letters : List Char) : Except Misuse (List Char × List String) := do
      let (more, operands) ← options k args
      return (letters ++ more, operands)
    match arg.toList with
    | ['-', '-'] => .ok ([], args)
    | '-' :: '-' :: cs => do behind [← k.letterOf (String.ofList cs)]
    | '-' :: c :: cs =>
      match (c :: cs).find? fun c => !k.letters.contains c with
      | some c => .error (.letter c)
      | none => behind (c :: cs)
    | _ => do
      let (letters, operands) ← options k args
      return (letters, arg :: operands)

end Known

end FlightBlocks.Tools
