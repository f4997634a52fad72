import FlightBlocks.Toml.Basic
/-!
Tables as a document builds them. A table may be opened once by a header. Before that it may have
been passed on the way to a table inside it, but once a dotted key has made it no header opens it.
-/

namespace FlightBlocks.Toml

inductive Maker where
  | header
  | passing
  | dotted
  deriving DecidableEq, Repr

inductive Node where
  | value (v : Toml)
  | table (maker : Maker) (members : List (String × Node))
  | tables (all : List (List (String × Node)))

abbrev Members := List (String × Node)

namespace Members

def put (key : String) (node : Node) (members : Members) : Members :=
  members.map fun member => if member.1 == key then (key, node) else member

/-- Changes the table that `path` leads to, in the way of headers: of several tables the last one
is meant, and one that is missing is made. -/
def within (change : Members → Option Members) : List String → Members → Option Members
  | [], members => change members
  | key :: path, members =>
    match members.lookup key with
    | none => (within change path []).map fun inner => members ++ [(key, .table .passing inner)]
    | some (.table maker inner) =>
      (within change path inner).map fun inner => put key (.table maker inner) members
    | some (.tables all) => do
      let inner ← within change path (← all.getLast?)
      return put key (.tables (all.dropLast ++ [inner])) members
    | some (.value _) => none

/-- Whether a dotted key may put a member into a table, or (`deeper`) go through it. -/
def takesDotted (deeper : Bool) : Maker → Bool
  | .header => false
  | .passing => deeper
  | .dotted => true

def assign (v : Toml) : List String → Members → Option Members
  | [], _ => none
  | [key], members =>
    if (members.lookup key).isSome then none else some (members ++ [(key, .value v)])
  | key :: next :: path, members =>
    match members.lookup key with
    | none =>
      (assign v (next :: path) []).map fun inner => members ++ [(key, .table .dotted inner)]
    | some (.table maker inner) =>
      if takesDotted (!path.isEmpty) maker then
        (assign v (next :: path) inner).map fun inner => put key (.table maker inner) members
      else none
    | some (.tables all) =>
      if path.isEmpty then none
      else do
        let inner ← assign v (next :: path) (← all.getLast?)
        return put key (.tables (all.dropLast ++ [inner])) members
    | some (.value _) => none

def openTable (key : String) (members : Members) : Option Members :=
  match members.lookup key with
  | none => some (members ++ [(key, .table .header [])])
  | some (.table .passing inner) => some (put key (.table .header inner) members)
  | _ => none

def openNext (key : String) (members : Members) : Option Members :=
  match members.lookup key with
  | none => some (members ++ [(key, .tables [[]])])
  | some (.tables all) => some (put key (.tables (all ++ [[]])) members)
  | _ => none

end Members

mutual

def Node.toToml : Node → Toml
  | .value v => v
  | .table _ members => .table (membersToToml members)
  | .tables all => .array (tablesToToml all)

def membersToToml : List (String × Node) → List (String × Toml)
  | [] => []
  | (key, node) :: members => (key, node.toToml) :: membersToToml members

def tablesToToml : List (List (String × Node)) → List Toml
  | [] => []
  | members :: all => .table (membersToToml members) :: tablesToToml all

end

end FlightBlocks.Toml
