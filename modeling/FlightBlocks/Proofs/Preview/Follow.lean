import FlightBlocks.Proofs.Preview.Moves
/-!
What a run has shown at any moment: the frames of the blocks it has applied, but for the second
frame of a flip that is still up. This is kept by every move, so the run that ended has shown the
frames of its first blocks, and of all of them unless it was stopped.
-/

namespace FlightBlocks.Run

/-- What the run has shown when it has applied the blocks `done`, by what it waits for. -/
def Shows (r : Run) (g : Grid) (done : List String) : Phase → Prop
  | .ready => done = [] ∧ r.trace = [] ∧ r.action = none ∧ r.drone = g.start
  | .paused _ => r.trace = g.frames done ∧ r.drone = g.leave g.start done
  | .flipping _ =>
    r.trace ++ [⟨r.step, r.action, r.drone.settled⟩] = g.frames done ∧
      r.drone.settled = g.leave g.start done
  | .ended cancelled =>
    r.trace = g.frames done ∧ r.drone = g.leave g.start done ∧ (cancelled = false → r.ahead = [])

/-- The run goes over the blocks `kinds` and has applied the blocks `done`. -/
structure Follows (course : Course) (kinds done : List String) (r : Run) : Prop where
  same : r.course = course
  split : kinds = done ++ r.ahead
  step : r.step = done.length
  shows : r.Shows course.grid done r.phase
  asked : r.phase = .ended true → r.cancelAsked = true

theorem follows_start (course : Course) (kinds : List String) :
    Follows course kinds [] (start course kinds) where
  same := rfl
  split := rfl
  step := rfl
  shows := ⟨rfl, rfl, rfl, rfl⟩
  asked := nofun

section

variable {course : Course} {kinds done : List String} {r r' : Run}

theorem Follows.begins (follows : Follows course kinds done r) (ready : r.phase = .ready)
    (time : Nat) : Follows course kinds done (r.publish.pausing time) := by
  have shows := follows.shows
  rw [ready] at shows
  obtain ⟨rfl, trace, action, drone⟩ := shows
  have step : r.step = 0 := follows.step
  refine ⟨follows.same, follows.split, follows.step, ⟨?_, drone⟩, nofun⟩
  change r.trace ++ [⟨r.step, r.action, r.drone⟩] = _
  rw [trace, step, action, drone]
  rfl

theorem Follows.drone_applied (follows : Follows course kinds done r) {now : Nat}
    (paused : r.phase = .paused now) (kind : String) (rest : List String) :
    (r.applied kind rest).drone =
        course.grid.shown (course.grid.leave course.grid.start done) kind ∧
      (r.applied kind rest).trace = course.grid.frames done ++
        [⟨done.length + 1, some kind, (r.applied kind rest).drone⟩] := by
  have shows := follows.shows
  rw [paused] at shows
  obtain ⟨trace, drone⟩ := shows
  constructor
  · change r.drone.apply r.course.grid _ = _
    rw [drone, follows.same]
    rfl
  · change r.trace ++ [⟨r.step + 1, some kind, _⟩] = _
    rw [trace, follows.step]
    rfl

theorem Follows.kinds_applied (follows : Follows course kinds done r) {kind : String}
    {rest : List String} (next : r.ahead = kind :: rest) :
    kinds = (done ++ [kind]) ++ (r.applied kind rest).ahead := by
  rw [follows.split, next, List.append_assoc]
  rfl

theorem Follows.step_applied (follows : Follows course kinds done r) (kind : String)
    (rest : List String) : (r.applied kind rest).step = (done ++ [kind]).length := by
  rw [List.length_append, ← follows.step]
  rfl

theorem Follows.applies (follows : Follows course kinds done r) {now : Nat} {kind : String}
    {rest : List String} (paused : r.phase = .paused now) (next : r.ahead = kind :: rest)
    (level : (r.applied kind rest).drone.flipping = false) (time : Nat) :
    Follows course kinds (done ++ [kind]) ((r.applied kind rest).pausing time) := by
  obtain ⟨drone, trace⟩ := follows.drone_applied paused kind rest
  rw [drone] at level
  refine ⟨follows.same, follows.kinds_applied next, follows.step_applied kind rest, ⟨?_, ?_⟩,
    nofun⟩
  · rw [Grid.frames_concat, Grid.blockFrames_of_level _ level, ← drone]
    exact trace
  · rw [Grid.leave_concat, Drone.settled_of_not_flipping level]
    exact drone

theorem Follows.flips (follows : Follows course kinds done r) {now : Nat} {kind : String}
    {rest : List String} (paused : r.phase = .paused now) (next : r.ahead = kind :: rest)
    (raised : (r.applied kind rest).drone.flipping = true) (time : Nat) :
    Follows course kinds (done ++ [kind]) ((r.applied kind rest).showing time) := by
  obtain ⟨drone, trace⟩ := follows.drone_applied paused kind rest
  rw [drone] at raised
  refine ⟨follows.same, follows.kinds_applied next, follows.step_applied kind rest, ⟨?_, ?_⟩,
    nofun⟩
  · change (r.applied kind rest).trace ++ [⟨r.step + 1, some kind, _⟩] = _
    rw [Grid.frames_concat, Grid.blockFrames_of_flipping _ raised, ← drone, trace, follows.step,
      List.append_assoc]
    rfl
  · rw [Grid.leave_concat, ← drone]
    rfl

theorem Follows.lowers (follows : Follows course kinds done r) {now : Nat}
    (shows : r.phase = .flipping now) (time : Nat) :
    Follows course kinds done (r.endFlip.pausing time) := by
  have shown := follows.shows
  rw [shows] at shown
  exact ⟨follows.same, follows.split, follows.step, shown, nofun⟩

theorem Follows.finishes (follows : Follows course kinds done r) {now : Nat} {cancelled : Bool}
    (paused : r.phase = .paused now) (all : cancelled = false → r.ahead = [])
    (asked : cancelled = true → r.cancelAsked = true) :
    Follows course kinds done (r.finish cancelled) := by
  have shows := follows.shows
  rw [paused] at shows
  refine ⟨follows.same, follows.split, follows.step, ⟨shows.1, shows.2, all⟩, ?_⟩
  intro ended
  exact asked (Phase.ended.inj ended)

theorem Follows.cancel (follows : Follows course kinds done r) :
    Follows course kinds done r.cancel := by
  refine ⟨follows.same, follows.split, follows.step, ?_, fun _ => rfl⟩
  have shows := follows.shows
  change r.cancel.Shows course.grid done r.phase
  cases phase : r.phase <;> rw [phase] at shows <;> exact shows

theorem Follows.moves (follows : Follows course kinds done r) (move : Moves r r') :
    ∃ done', Follows course kinds done' r' := by
  cases move with
  | begins time ready => exact ⟨done, follows.begins ready time⟩
  | applies time paused _ next level => exact ⟨_, follows.applies paused next level time⟩
  | flips time paused _ next raised => exact ⟨_, follows.flips paused next raised time⟩
  | lowers time shows => exact ⟨done, follows.lowers shows time⟩
  | completes paused _ last => exact ⟨done, follows.finishes paused (fun _ => last) nofun⟩
  | stops paused asked => exact ⟨done, follows.finishes paused nofun fun _ => asked⟩
  | asked => exact ⟨done, follows.cancel⟩

theorem follows_of_reaches (reaches : Reaches (start course kinds) r) :
    ∃ done, Follows course kinds done r := by
  induction reaches with
  | refl => exact ⟨[], follows_start course kinds⟩
  | tail _ move ih =>
    obtain ⟨done, follows⟩ := ih
    exact follows.moves move

end

end FlightBlocks.Run
