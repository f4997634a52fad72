/-!
The options of a shell, and the arguments that set and clear them.
-/

namespace FlightBlocks.Shell

inductive Switch where
  | letter (on : Bool) (letter : Char)
  | named (on : Bool) (name : String)
  | listing (on : Bool)
  | quiet
  deriving DecidableEq, Repr

namespace Switch

def all : List (Char × String) :=
  [('e', "errexit"), ('f', "noglob"), ('I', "ignoreeof"), ('i', "interactive"), ('m', "monitor"),
    ('n', "noexec"), ('s', "stdin"), ('x', "xtrace"), ('v', "verbose"), ('V', "vi"),
    ('E', "emacs"), ('C', "noclobber"), ('a', "allexport"), ('b', "notify"), ('u', "nounset"),
    ('p', "privileged"), ('\x00', "nolog"), ('\x01', "debug")]

def letters : List Char := (all.map (·.1)).filter fun c => c.toNat > 31

/-- The changes that the letters of an argument ask for, and the arguments left behind it. Each `o`
takes an argument for the name of an option, if there is one. -/
def ofLetters (on : Bool) : List Char → List String → List Switch × List String
  | [], args => ([], args)
  | 'o' :: cs, args =>
    let change := (args.head?.map (named on)).getD (listing on)
    let (more, rest) := ofLetters on cs (args.drop 1)
    (change :: more, rest)
  | c :: cs, args =>
    let (more, rest) := ofLetters on cs args
    (letter on c :: more, rest)

def ofArguments : Nat → List String → List Switch × Option (List String)
  | _, [] => ([], none)
  | 0, args => ([], some args)
  | _, "--" :: args => ([], some args)
  | _, "-" :: args => ([quiet], if args.isEmpty then none else some args)
  | n + 1, arg :: args =>
    match arg.toList with
    | sign :: cs =>
      if sign == '-' || sign == '+' then
        let (changes, rest) := ofLetters (sign == '-') cs args
        let (more, rest) := ofArguments n rest
        (changes ++ more, rest)
      else ([], some (arg :: args))
    | [] => ([], some (arg :: args))

end Switch

end FlightBlocks.Shell
