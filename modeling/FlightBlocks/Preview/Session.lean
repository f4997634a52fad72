import FlightBlocks.Preview.Run
/-!
A simulator and what its user holds: at most one run is active at a time, the handle of the last
run started may be held, and one run's frames are observed.
-/

namespace FlightBlocks

/-- `runs` holds every run ever started, the newest last; `held` and `observed` are places in it. -/
structure Session where
  course : Course
  now : Nat
  busy : Bool
  runs : List Run
  held : Option Nat
  observed : Option Nat
  deriving DecidableEq, Repr

namespace Session

def open? (course : Course) : Except PreviewFault Session :=
  course.grid.validate.map fun _ => ⟨course, 0, false, [], none, none⟩

def launch (s : Session) (kinds : List String) : Except PreviewFault (Nat × Session) :=
  if kinds.isEmpty then .error .emptyProgram
  else if s.busy then .error .busy
  else .ok (s.runs.length, { s with busy := true, runs := s.runs ++ [Run.start s.course kinds] })

def start (s : Session) (kinds : List String) : Except PreviewFault Session :=
  (s.launch kinds).map fun (place, s) => { s with held := some place, observed := some place }

/-- Lets time pass until `deadline`; a run that ends on the way leaves the simulator free. -/
def advanceTo (s : Session) (deadline : Nat) : Session :=
  let runs := s.runs.map (Run.advance s.now deadline)
  let justEnded := (s.runs.zip runs).any fun (before, after) => !before.hasEnded && after.hasEnded
  { s with now := deadline, runs := runs, busy := s.busy && !justEnded }

def advance (s : Session) (ms : Nat) : Session := s.advanceTo (s.now + ms)

def await (s : Session) (place : Nat) : Option RunOutcome × Session :=
  match s.runs[place]? with
  | none => (none, s)
  | some r =>
    let s := s.advanceTo (max s.now (r.endTime s.now))
    ((s.runs[place]?).map Run.outcome, s)

def run (s : Session) (kinds : List String) : Except PreviewFault (Option RunOutcome × Session) :=
  (s.launch kinds).map fun (place, s) => s.await place

def cancel (s : Session) : Session :=
  match s.held with
  | none => s
  | some place => { s with runs := s.runs.modify place Run.cancel }

def detach (s : Session) : Session := { s with held := none }

def finish (s : Session) : Option RunOutcome × Session :=
  match s.held with
  | none => (none, s)
  | some place =>
    let (outcome, s) := s.await place
    (outcome, s.detach)

def frame (s : Session) : Option Frame :=
  s.observed.bind fun place => (s.runs[place]?).map Run.shown

end Session

end FlightBlocks
