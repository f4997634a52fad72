import FlightBlocks.Shell.Pattern
/-!
Fields. An expanded word is a row of marks; where separators came out of an expansion that was not
quoted, the word falls apart into fields. All texts are byte texts.
-/

namespace FlightBlocks.Shell

inductive Mark where
  | glyph (g : Glyph) (splits : Bool)
  | quotes
  /-- The end of an argument that stays a field of its own. -/
  | gap
  deriving DecidableEq, Repr

namespace Mark

def ofQuoted (cs : List Char) : List Mark := cs.map fun c => .glyph ⟨c, true⟩ false

def ofValue (quoted : Bool) (s : String) : List Mark :=
  s.toList.map fun c => .glyph ⟨c, quoted⟩ (!quoted)

def glyph? : Mark → Option Glyph
  | .glyph g _ => some g
  | _ => none

def glyphs (marks : List Mark) : List Glyph := marks.filterMap glyph?

def text (marks : List Mark) : String :=
  String.ofList ((glyphs marks).map Glyph.char)

end Mark

abbrev Field := List Glyph

structure Splitting where
  done : List Field
  current : Option Field
  /-- Whether the last field ended with blanks alone. -/
  loose : Bool

namespace Splitting

def ended (s : Splitting) (loose : Bool) : Splitting :=
  match s.current with
  | some field => ⟨s.done ++ [field], none, loose⟩
  | none => s

def isBlank (c : Char) : Bool := c == ' ' || c == '\t' || c == '\n'

def step (separators : List Char) (s : Splitting) : Mark → Splitting
  | .quotes => { s with current := some (s.current.getD []), loose := false }
  | .gap => { s.ended false with loose := false }
  | .glyph g splits =>
    if splits && separators.contains g.char then
      if isBlank g.char then s.ended true
      else if s.current.isSome then s.ended false
      else if s.loose then { s with loose := false }
      else { s with done := s.done ++ [[]] }
    else { s with current := some (s.current.getD [] ++ [g]), loose := false }

end Splitting

def fields (separators : List Char) (marks : List Mark) : List Field :=
  ((marks.foldl (Splitting.step separators) ⟨[], none, false⟩).ended false).done

end FlightBlocks.Shell
