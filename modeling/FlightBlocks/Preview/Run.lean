import FlightBlocks.Preview.Trace
/-!
A run shows one block after another, with pauses between them, in virtual time counted in
milliseconds. A cancelled run stops in the pause it is in; only a flip that is being shown is first
shown to its end. Pauses are whole here: `Pause` has them turn by turn, and what a pause comes to
there is what one test of the request and of the time gives.
-/

namespace FlightBlocks

structure Course where
  grid : Grid
  startDelay : Nat
  stepDelay : Nat
  /-- A flip is shown for no longer than a step takes. -/
  flipDuration : Nat
  deriving DecidableEq, Repr

namespace Course

def default : Course := ⟨.default, 500, 1000, 500⟩

def instant : Course := ⟨.default, 0, 0, 0⟩

def flipShown (c : Course) : Nat := min c.flipDuration c.stepDelay

end Course

inductive Phase where
  | ready
  | paused (until' : Nat)
  | flipping (until' : Nat)
  | ended (cancelled : Bool)
  deriving DecidableEq, Repr

structure Run where
  course : Course
  ahead : List String
  step : Nat
  drone : Drone
  action : Option String
  trace : Trace
  phase : Phase
  cancelAsked : Bool
  deriving DecidableEq, Repr

namespace Run

def start (course : Course) (kinds : List String) : Run :=
  ⟨course, kinds, 0, course.grid.start, none, [], .ready, false⟩

def hasEnded (r : Run) : Bool :=
  match r.phase with
  | .ended _ => true
  | _ => false

/-- The frame that an observer sees; the start is seen before the run has shown it. -/
def shown (r : Run) : Frame := r.trace.getLast?.getD (.start r.course.grid.start)

def publish (r : Run) : Run := { r with trace := r.trace ++ [⟨r.step, r.action, r.drone⟩] }

def cancel (r : Run) : Run := { r with cancelAsked := true }

def finish (r : Run) (cancelled : Bool) : Run := { r with phase := .ended cancelled }

def applyBlock (r : Run) (kind : String) : Run :=
  publish { r with
    step := r.step + 1
    action := some kind
    drone := r.drone.apply r.course.grid (.ofToken kind) }

def endFlip (r : Run) : Run := publish { r with drone := { r.drone with flipping := false } }

/-- Goes on with the blocks `kinds` at `time`, as far as `deadline` allows. The run is not
cancelled. -/
def advanceFrom (deadline : Nat) : List String → Nat → Run → Run
  | [], _, r => finish { r with ahead := [] } false
  | kind :: kinds, time, r =>
    let r := applyBlock { r with ahead := kinds } kind
    let next := time + r.course.stepDelay
    if r.drone.flipping && time + r.course.flipShown > deadline then
      { r with phase := .flipping (time + r.course.flipShown) }
    else
      let r := if r.drone.flipping then endFlip r else r
      if next > deadline then { r with phase := .paused next }
      else advanceFrom deadline kinds next r

def waitUntil (deadline time : Nat) (r : Run) : Run :=
  if time > deadline then { r with phase := .paused time } else advanceFrom deadline r.ahead time r

/-- The run at `deadline`, when it stands at `now` at present. -/
def advance (now deadline : Nat) (r : Run) : Run :=
  match r.phase with
  | .ended _ => r
  | .ready =>
    let r := publish r
    if r.cancelAsked then finish r true else waitUntil deadline (now + r.course.startDelay) r
  | .paused time => if r.cancelAsked then finish r true else waitUntil deadline time r
  | .flipping time =>
    -- nobody listens while a flip is up
    if time > deadline then r
    else
      let r := endFlip r
      if r.cancelAsked then finish r true
      else waitUntil deadline (time + (r.course.stepDelay - r.course.flipShown)) r

def endTime (now : Nat) (r : Run) : Nat :=
  let after (time : Nat) := time + r.ahead.length * r.course.stepDelay
  match r.phase with
  | .ended _ => now
  | .ready => if r.cancelAsked then now else after (now + r.course.startDelay)
  | .paused time => if r.cancelAsked then now else after time
  | .flipping time =>
    if r.cancelAsked then time
    else after (time + (r.course.stepDelay - r.course.flipShown))

end Run

structure RunOutcome where
  trace : Trace
  final : Drone
  cancelled : Bool
  deriving DecidableEq, Repr

def Run.outcome (r : Run) : RunOutcome :=
  ⟨r.trace, r.drone, r.phase = .ended true⟩

end FlightBlocks
