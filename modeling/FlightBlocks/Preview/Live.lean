import FlightBlocks.Preview.Run
/-!
A run as one sees it who looks whenever the run waits, and once more when it has ended. What is
shown and replaced at one instant is not seen.
-/

namespace FlightBlocks.Run

def wake? (now : Nat) (r : Run) : Option Nat :=
  match r.phase with
  | .ready => some now
  | .paused time => some time
  | .flipping time => some time
  | .ended _ => none

def watch : Nat → Nat → Run → List Frame
  | 0, _, _ => []
  | n + 1, now, r =>
    match r.wake? now with
    | none => []
    | some time =>
      let after := r.advance now time
      (if after.trace.length > r.trace.length then [after.shown] else []) ++ watch n time after

/-- A run wakes once at its start and twice at most for each block. -/
def watched (r : Run) : List Frame := watch (2 * r.ahead.length + 2) 0 r

end FlightBlocks.Run
