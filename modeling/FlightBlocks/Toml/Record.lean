import FlightBlocks.Toml.Basic
/-!
Reading typed data out of TOML values. A record is a table, or the array of its members in order.
-/

namespace FlightBlocks.Toml

/-- The members of a record, one for each of `names`. A moment is a record without members. -/
def members? (names : List String) : Toml → Option (List (Option Toml))
  | .table members => some (names.map fun name => members.lookup name)
  | .array items => some ((List.range names.length).map fun i => items[i]?)
  | .moment _ => some (names.map fun _ => none)
  | _ => none

def string? : Toml → Option String
  | .text s => some s
  | _ => none

def items? : Toml → Option (List Toml)
  | .array items => some items
  | _ => none

def word? (bits : Nat) : Toml → Option Nat
  | .integer i => if 0 ≤ i ∧ i < (1 <<< bits : Nat) then some i.toNat else none
  | _ => none

end FlightBlocks.Toml
