import FlightBlocks.Toml.Value
/-!
TOML documents: headers, and members of the table that the last header opened.
-/

namespace FlightBlocks.Toml

inductive Line where
  | header (path : List String)
  | nextHeader (path : List String)
  | member (key : List String) (v : Toml)

def depthLimit : Nat := nestingLimit - 1

def line? (cs : List Char) : Option (Found Line) :=
  match cs with
  | '[' :: '[' :: cs => do
    let (path, cs) ← key? cs
    let cs ← (expect? ']' cs).bind (expect? ']')
    return (.nextHeader path, cs)
  | '[' :: cs => do
    let (path, cs) ← key? cs
    let cs ← expect? ']' cs
    return (.header path, cs)
  | cs => do
    let (key, cs) ← key? cs
    let cs ← expect? '=' cs
    let (v, cs) ← value? (2 * cs.length + 2) depthLimit (skipBlanks cs)
    return (.member key v, cs)

def lines? : Nat → List Char → Option (List Line)
  | 0, _ => none
  | n + 1, cs =>
    match skipBlanks cs with
    | [] => some []
    | cs =>
      match endLine? cs with
      | some cs => lines? n cs
      | none => do
        let (line, cs) ← line? cs
        return line :: (← lines? n (← endLine? cs))

/-- The tables built so far, and the table that members go to. -/
structure Draft where
  root : Members
  path : List String

def openWith (opening : String → Members → Option Members) (draft : Draft) (path : List String) :
    Option Draft := do
  let key ← path.getLast?
  return ⟨← Members.within (opening key) path.dropLast draft.root, path⟩

def build (draft : Draft) : Line → Option Draft
  | .header path => openWith Members.openTable draft path
  | .nextHeader path => openWith Members.openNext draft path
  | .member key v => do
    return { draft with root := ← Members.within (Members.assign v key) draft.path draft.root }

def withoutMark : List Char → List Char
  | '\uFEFF' :: cs => cs
  | cs => cs

def parse? (s : String) : Option Toml := do
  let cs := withoutMark s.toList
  let draft ← (← lines? (cs.length + 1) cs).foldlM build ⟨[], []⟩
  return .table (membersToToml draft.root)

end FlightBlocks.Toml
