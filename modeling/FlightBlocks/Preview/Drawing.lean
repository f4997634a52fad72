import FlightBlocks.Preview.Grid
import FlightBlocks.Room
/-!
The grid as text: a row of cells for each `y`, with the drone's mark in its cell, and a line that
says where the drone is and how. The room for the rows is asked for before the first of them.
-/

namespace FlightBlocks

namespace Drone

def mark (d : Drone) : Char :=
  if d.flipping then '*'
  else
    match d.altitude with
    | .airborne => '^'
    | .grounded => 'o'

def status (d : Drone) : String :=
  "(" ++ toString d.x.toNat ++ ", " ++ toString d.y.toNat ++ ") " ++ d.altitude.name ++
    (if d.flipping then " flipping" else "")

end Drone

namespace Grid

def cell (d : Drone) (row column : Nat) : Char :=
  if column = d.x.toNat ∧ row = d.y.toNat then d.mark else '.'

def row (g : Grid) (d : Drone) (j : Nat) : List Char :=
  ((List.range g.size.toNat).map (cell d j)).intersperse ' '

def draw (g : Grid) (d : Drone) : String :=
  String.ofList (((List.range g.size.toNat).flatMap fun j => row g d j ++ ['\n']) ++
    d.status.toList ++ ['\n'])

/-- What is asked for: in each row two characters a cell and one more. -/
def room? (g : Grid) : Option Nat := product? (g.size.toNat * 2 + 1) g.size.toNat

/-- The text `draw`, if there may be so long a text. Where the product is not checked it wraps
around, and the rows outgrow the room instead of being refused it. -/
def draw? (g : Grid) (d : Drone) : Option String := do
  let room ← g.room?
  if hasRoom room 1 then some (g.draw d) else none

end Grid

end FlightBlocks
