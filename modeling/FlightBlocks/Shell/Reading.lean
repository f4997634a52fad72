import FlightBlocks.Shell.Field
/-!
Lines of input that are taken apart into variables. All texts are byte texts.
-/

namespace FlightBlocks.Shell.Reading

/-- A line of input: its characters, how many were taken, and whether it has its end. A backslash
takes the character behind it as it is, and joins lines, unless `raw` says that it is nothing
special. -/
structure Line where
  glyphs : Field
  taken : Nat
  complete : Bool

def line (raw : Bool) : List Char → Line
  | [] => ⟨[], 0, false⟩
  | '\n' :: _ => ⟨[], 1, true⟩
  | '\\' :: rest =>
    if raw then
      let l := line raw rest
      ⟨⟨'\\', false⟩ :: l.glyphs, l.taken + 1, l.complete⟩
    else
      match rest with
      | [] => ⟨[], 1, false⟩
      | c :: rest =>
        let l := line raw rest
        ⟨if c = '\n' then l.glyphs else ⟨c, true⟩ :: l.glyphs, l.taken + 2, l.complete⟩
  | c :: rest =>
    let l := line raw rest
    ⟨if c = '\x00' then l.glyphs else ⟨c, false⟩ :: l.glyphs, l.taken + 1, l.complete⟩

section Splitting

variable (separators : List Char)

def separates (g : Glyph) : Bool := !g.quoted && separators.contains g.char

def isBlank (g : Glyph) : Bool := separates separators g && Splitting.isBlank g.char

def pastSeparator (gs : Field) : Field :=
  match gs.dropWhile (isBlank separators) with
  | g :: rest =>
    if separates separators g then rest.dropWhile (isBlank separators) else g :: rest
  | [] => []

def text (gs : Field) : String := String.ofList (gs.map Glyph.char)

def trimmedEnd (gs : Field) : Field := (gs.reverse.dropWhile (isBlank separators)).reverse

def lastField (gs : Field) : String :=
  let first := gs.takeWhile fun g => !separates separators g
  if (pastSeparator separators (gs.drop first.length)).isEmpty then text first
  else text (trimmedEnd separators gs)

def split : Nat → Field → List String
  | 0, _ => []
  | 1, gs => [lastField separators gs]
  | n + 1, gs =>
    let first := gs.takeWhile fun g => !separates separators g
    text first :: split n (pastSeparator separators (gs.drop first.length))

def fields (n : Nat) (gs : Field) : List String :=
  split separators n (gs.dropWhile (isBlank separators))

end Splitting

end FlightBlocks.Shell.Reading
