import FlightBlocks.Shell.Expansion
/-!
Redirections: their words are expanded first, then descriptors are opened and closed. All texts
are byte texts.
-/

namespace FlightBlocks.Shell

inductive Route where
  | file (descriptor : Nat) (opening : Opening) (path : String)
  | copy (descriptor source : Nat)
  | close (descriptor : Nat)
  | document (descriptor number : Nat)

namespace Act

def route (run : Command → Act Unit) (n : Nat) : Redirection → Act Route
  | .file d opening target => return .file d opening (← expandText run n target)
  | .duplicate d source => do
    match (← expandText run n source).toList with
    | ['-'] => return .close d
    | [c] =>
      if c.isDigit then return .copy d (c.toNat - 48) else fault "Syntax error: Bad fd number"
    | _ => fault "Syntax error: Bad fd number"
  | .document d number => return .document d number

def redirect (run : Command → Act Unit) (n : Nat) : Route → Act Unit
  | .file d opening path => openUnder d opening path
  | .copy d source => if d = source then return () else duplicate d source
  | .close d => closeDescriptor d
  | .document d number => do
    let text ← match (← get).documents.lookup number with
      | some w => expandDocument run n w
      | none => pure ""
    provide d (.pipe text)

/-- Runs an act with redirections that last as long as it does. The result says whether they could
be made. -/
def redirecting (run : Command → Act Unit) (n : Nat) (rs : List Redirection)
    (act : Act Unit) : Act Bool := do
  let before := (← get).descriptors
  let restore : Act Unit := modify fun sh => { sh with descriptors := before }
  let routes ← rs.mapM (route run n)
  let made ← tryCatch (do
      routes.forM (redirect run n)
      return true)
    fun stop =>
      match stop with
      | .failure => return false
      | stop => do
        restore
        throw stop
  if made then afterwards act restore else restore
  return made

end Act

end FlightBlocks.Shell
