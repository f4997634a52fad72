/-!
Names as they stand in complaints: bare if a shell would read them so, else in quotes. All texts
are byte texts.
-/

namespace FlightBlocks.Quoting

def isPlainByte (c : Char) : Bool := ' ' ≤ c && c ≤ '~'

def isMeaningful (c : Char) : Bool := " !\"$&()*:;<=>?[\\^`|'".toList.contains c

def standsBare (name : List Char) : Bool :=
  match name with
  | [] => false
  | first :: _ =>
    name.all (fun c => isPlainByte c && !isMeaningful c) && first != '#' && first != '~' &&
      name != ['\x7b'] && name != ['\x7d']

def isTame (c : Char) : Bool := c.isAlphanum || " #%+,-./:]_~'\x7b\x7d".toList.contains c

def letterEscapes : List (Char × Char) :=
  [('\x07', 'a'), ('\x08', 'b'), ('\x09', 't'), ('\x0a', 'n'), ('\x0b', 'v'), ('\x0c', 'f'),
    ('\x0d', 'r')]

def escape (c : Char) : List Char :=
  match letterEscapes.lookup c with
  | some letter => ['\\', letter]
  | none =>
    let n := c.toNat
    ['\\', Char.ofNat (48 + n / 64 % 8), Char.ofNat (48 + n / 8 % 8), Char.ofNat (48 + n % 8)]

/-- A name behind its first quote. `escaping` says whether the last byte was an escape. -/
def enclosed (escaping : Bool) : List Char → List Char
  | [] => ['\'']
  | c :: cs =>
    if isPlainByte c then
      (if escaping then "''".toList else []) ++
        (if c = '\'' then "'\\''".toList else [c]) ++ enclosed false cs
    else (if escaping then [] else "'$'".toList) ++ escape c ++ enclosed true cs

def quoted (name : String) : String :=
  let cs := name.toList
  if cs.contains '\'' && cs.all isTame then "\"" ++ name ++ "\""
  else String.ofList ('\'' :: enclosed false cs)

def shown (name : String) : String := if standsBare name.toList then name else quoted name

end FlightBlocks.Quoting
