import FlightBlocks.Preview.Drawing
/-!
The frames of a run. A flip has two frames of the same step: one with the flip shown, and one
after it.
-/

namespace FlightBlocks

/-- Step 0 is the start, which no block leads to. -/
structure Frame where
  step : Nat
  action : Option String
  drone : Drone
  deriving DecidableEq, Repr

def Frame.start (d : Drone) : Frame := ⟨0, none, d⟩

abbrev Trace := List Frame

namespace Trace

def flipsAfter (flipping : Bool) : Trace → Nat
  | [] => 0
  | f :: fs => (if f.drone.flipping && !flipping then 1 else 0) + flipsAfter f.drone.flipping fs

def flips (trace : Trace) : Nat := flipsAfter false trace

def steps (trace : Trace) : Nat :=
  match trace.getLast? with
  | none => 0
  | some f => f.step

def replay (g : Grid) (trace : Trace) : List String := trace.map fun f => g.draw f.drone

/-- The texts `replay`, as they are made one after another. -/
def replay? (g : Grid) (trace : Trace) : Option (List String) :=
  trace.mapM fun f => g.draw? f.drone

end Trace

end FlightBlocks
