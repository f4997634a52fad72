import FlightBlocks.Proofs.Preview.Calls
/-!
What a request to stop does. A run that is asked to stop applies no further block, whenever it is
asked and whatever is called for afterwards; it shows its start if it has not shown it yet, puts a
flip down that is up, and ends as cancelled. A run that is not asked to stop applies all blocks.
-/

namespace FlightBlocks

def Course.whole (c : Course) (kinds : List String) : RunOutcome :=
  ⟨c.grid.frames kinds, c.grid.leave c.grid.start kinds, false⟩

namespace Run

/-- What a run still shows that is asked to stop: its start, if it has not run at all, and the flip
put down, if one is up. -/
def pending (r : Run) : List Frame :=
  match r.phase with
  | .ready => [.start r.course.grid.start]
  | .flipping _ => [⟨r.step, r.action, r.drone.settled⟩]
  | _ => []

def whenStopped (r : Run) : RunOutcome := ⟨r.trace ++ r.pending, r.drone.settled, true⟩

structure Stopping (r r' : Run) : Prop where
  asked : r'.cancelAsked = true
  step : r'.step = r.step
  drone : r'.drone.settled = r.drone.settled
  shown : r'.trace ++ r'.pending = r.trace ++ r.pending
  ended : ∀ cancelled, r'.phase = .ended cancelled → cancelled = true

section

variable {course : Course} {kinds done : List String} {r r' r'' : Run}

theorem stopping_cancel (active : r.hasEnded = false) : Stopping r r.cancel := by
  refine ⟨rfl, rfl, rfl, rfl, fun cancelled phase => ?_⟩
  have same : r.cancel.hasEnded = r.hasEnded := rfl
  rw [← same, hasEnded_iff.2 ⟨cancelled, phase⟩] at active
  cases active

theorem Follows.start_shown (follows : Follows course kinds done r) (ready : r.phase = .ready) :
    (⟨r.step, r.action, r.drone⟩ : Frame) = .start r.course.grid.start := by
  have shows := follows.shows
  rw [ready] at shows
  obtain ⟨rfl, -, action, drone⟩ := shows
  have step : r.step = 0 := follows.step
  rw [step, action, drone, follows.same]
  rfl

theorem Stopping.begins (stopping : Stopping r r') (follows : Follows course kinds done r')
    (ready : r'.phase = .ready) (time : Nat) : Stopping r (r'.publish.pausing time) := by
  refine ⟨stopping.asked, stopping.step, stopping.drone, ?_, nofun⟩
  have shown := stopping.shown
  simp only [pending, ready] at shown
  change r'.trace ++ [⟨r'.step, r'.action, r'.drone⟩] ++ [] = _
  rw [List.append_nil, follows.start_shown ready, shown]
  rfl

theorem Stopping.lowers (stopping : Stopping r r') {now : Nat} (shows : r'.phase = .flipping now)
    (time : Nat) : Stopping r (r'.endFlip.pausing time) := by
  refine ⟨stopping.asked, stopping.step, stopping.drone, ?_, nofun⟩
  have shown := stopping.shown
  simp only [pending, shows] at shown
  change r'.trace ++ [⟨r'.step, r'.action, r'.drone.settled⟩] ++ [] = _
  rw [List.append_nil, shown]
  rfl

theorem Stopping.stops (stopping : Stopping r r') {now : Nat} (paused : r'.phase = .paused now) :
    Stopping r (r'.finish true) := by
  refine ⟨stopping.asked, stopping.step, stopping.drone, ?_, fun _ ended => ?_⟩
  · have shown := stopping.shown
    simp only [pending, paused] at shown
    exact shown
  · exact (Phase.ended.inj ended).symm

theorem Stopping.moves (stopping : Stopping r r') (follows : Follows course kinds done r')
    (move : Moves r' r'') : Stopping r r'' := by
  have refused : r'.cancelAsked ≠ false := by
    rw [stopping.asked]
    decide
  cases move with
  | begins time ready => exact stopping.begins follows ready time
  | applies _ _ free => exact absurd free refused
  | flips _ _ free => exact absurd free refused
  | lowers time shows => exact stopping.lowers shows time
  | completes _ free => exact absurd free refused
  | stops paused => exact stopping.stops paused
  | asked => exact ⟨rfl, stopping.step, stopping.drone, stopping.shown, stopping.ended⟩

theorem stopping_of_reaches (reached : Reaches (start course kinds) r) (active : r.hasEnded = false)
    (onward : Reaches r.cancel r') : Stopping r r' := by
  induction onward with
  | refl => exact stopping_cancel active
  | tail before move ih =>
    have whole := (reached.tail (.asked r)).trans before
    obtain ⟨done, follows⟩ := follows_of_reaches whole
    exact ih.moves follows move

theorem Stopping.more (stopping : Stopping r r') (onward : Reaches r.cancel r') :
    ∃ more, r'.trace = r.trace ++ more ∧ more <+: r.pending := by
  obtain ⟨more, grown⟩ := trace_stays onward
  have grown' : r'.trace = r.trace ++ more := grown.symm
  have shown := stopping.shown
  rw [grown', List.append_assoc] at shown
  exact ⟨more, grown', r'.pending, List.append_cancel_left shown⟩

theorem Stopping.outcome_eq (stopping : Stopping r r') (follows : Follows course kinds done r')
    (ended : r'.hasEnded = true) : r'.outcome = r.whenStopped := by
  obtain ⟨cancelled, phase⟩ := hasEnded_iff.1 ended
  obtain rfl := stopping.ended cancelled phase
  have level : r'.drone.flipping = false := (follows.outcome_cuts ended).level
  have trace : r'.trace = r.trace ++ r.pending := by
    have shown := stopping.shown
    simpa only [pending, phase, List.append_nil] using shown
  have drone : r'.drone = r.drone.settled := by
    rw [← stopping.drone, Drone.settled_of_not_flipping level]
  simp [outcome, whenStopped, trace, drone, phase]

theorem Follows.whenStopped_trace (follows : Follows course kinds done r) :
    r.whenStopped.trace = course.grid.frames (kinds.take r.step) := by
  have first : kinds.take r.step = done := by
    rw [follows.split, follows.step, List.take_left]
  have shows := follows.shows
  rw [first, whenStopped]
  cases phase : r.phase with
  | ready =>
    rw [phase] at shows
    obtain ⟨rfl, trace, -⟩ := shows
    simp only [pending, phase, trace, follows.same]
    rfl
  | paused time =>
    rw [phase] at shows
    simpa only [pending, phase, List.append_nil] using shows.1
  | flipping time =>
    rw [phase] at shows
    simpa only [pending, phase] using shows.1
  | ended cancelled =>
    rw [phase] at shows
    simpa only [pending, phase, List.append_nil] using shows.1

def Unstopped (course : Course) (kinds : List String) (r : Run) : Prop :=
  Reaches (start course kinds) r ∧ (r.cancelAsked = false ∨ r.phase = .ended false)

theorem Unstopped.advance (unstopped : Unstopped course kinds r) (now deadline : Nat) :
    Unstopped course kinds (r.advance now deadline) := by
  obtain ⟨reached, free | ended⟩ := unstopped
  · have unasked : (r.advance now deadline).cancelAsked = false :=
      (cancelAsked_advance now r).trans free
    exact ⟨reached.trans (reaches_advance now r), .inl unasked⟩
  · rw [advance_of_ended ended]
    exact ⟨reached, .inr ended⟩

theorem Unstopped.cancel (unstopped : Unstopped course kinds r) (ended : r.hasEnded = true) :
    Unstopped course kinds r.cancel := by
  obtain ⟨reached, free | ended'⟩ := unstopped
  · obtain ⟨cancelled, phase⟩ := hasEnded_iff.1 ended
    have unstopped := outcome_free_of_reaches reached free
    have through : r.phase = .ended false := by
      cases cancelled with
      | false => exact phase
      | true => simp [outcome, phase] at unstopped
    exact ⟨reached.tail (.asked r), .inr through⟩
  · exact ⟨reached.tail (.asked r), .inr ended'⟩

theorem Unstopped.outcome_eq (unstopped : Unstopped course kinds r) (ended : r.hasEnded = true) :
    r.outcome = course.whole kinds := by
  obtain ⟨reached, free | through⟩ := unstopped
  · exact outcome_of_free reached ended (outcome_free_of_reaches reached free)
  · exact outcome_of_free reached ended (by simp [outcome, through])

end

end Run

namespace Session

variable {s s' : Session} {place : Nat} {r : Run} {course : Course} {kinds : List String}

theorem finish_of_await {o : RunOutcome} (awaited : s.await place = (some o, s')) :
    s.held = some place → s.finish = (some o, s'.detach) := by
  intro held
  rw [finish_eq held, awaited]

theorem stopped_after (held : s.held = some place) (found : s.runs[place]? = some r)
    (reached : (Run.start course kinds).Reaches r) (active : r.hasEnded = false)
    (later : List Call) :
    ∃ r', (s.cancel.after later).runs[place]? = some r' ∧ r'.step = r.step ∧
      (∃ more, r'.trace = r.trace ++ more ∧ more <+: r.pending) ∧
      ∃ s', (s.cancel.after later).await place = (some r.whenStopped, s') := by
  have asked : s.cancel.runs[place]? = some r.cancel := by
    rw [found_cancel found, if_pos held]
  obtain ⟨r', found', onward⟩ := (onward_after s.cancel later).moved place r.cancel asked
  obtain ⟨r'', s', awaited, -, further, ended, -⟩ := await_eq found'
  have stopping := Run.stopping_of_reaches reached active onward
  have last := Run.stopping_of_reaches reached active (onward.trans further)
  obtain ⟨done, follows⟩ :=
    Run.follows_of_reaches ((reached.tail (.asked r)).trans (onward.trans further))
  rw [last.outcome_eq follows ended] at awaited
  exact ⟨r', found', stopping.step, stopping.more onward, s', awaited⟩

theorem whole_after (started : s.start kinds = .ok s') {calls : List Call}
    (spares : Spares s' s.runs.length calls) :
    ∃ s'', (s'.after calls).await s.runs.length = (some (s.course.whole kinds), s'') := by
  obtain ⟨place, launched, ok, rfl⟩ := start_eq_ok_iff.1 started
  obtain ⟨-, rfl, rfl⟩ := launch_eq_ok_iff.1 ok
  obtain ⟨r, found, reached, unstopped⟩ := found_after_spared
    (motive := fun _ => Run.Unstopped s.course kinds) spares
    (fun now deadline r _ unstopped => unstopped.advance now deadline)
    (fun _ r ended unstopped => unstopped.cancel ended)
    List.getElem?_concat_length ⟨.refl, .inl rfl⟩
  obtain ⟨r', s'', awaited, -, onward, ended, unasked⟩ := await_eq found
  have last : Run.Unstopped s.course kinds r' := by
    refine ⟨reached.trans onward, ?_⟩
    rcases unstopped with free | through
    · exact .inl (unasked.trans free)
    · exact .inr (Run.ended_stays onward through)
  rw [last.outcome_eq ended] at awaited
  exact ⟨s'', awaited⟩

end Session

open Session in
/-- A run that is asked to stop applies no further block, whenever it is asked and whatever comes
after that, and one that is not asked before its end applies them all. -/
theorem stops_at_step_boundary {course : Course} {opened : Session}
    (valid : open? course = .ok opened) (calls : List Call) {kinds : List String} {s' : Session}
    (started : (opened.after calls).start kinds = .ok s') (before : List Call) :
    let place := (opened.after calls).runs.length
    let s := s'.after before
    (∀ r, (Run.start course kinds).Reaches r → r.hasEnded = false →
        r.whenStopped.trace = course.grid.frames (kinds.take r.step) ∧
        ∀ r', r.cancel.Reaches r' → r'.step = r.step ∧
          (∃ more, r'.trace = r.trace ++ more ∧ more <+: r.pending) ∧
          (r'.hasEnded = true → r'.outcome = r.whenStopped)) ∧
      (∀ r, s.runs[place]? = some r → s.held = some place → r.hasEnded = false →
        ∀ later : List Call, let stopped := s.cancel.after later
          ∃ r', stopped.runs[place]? = some r' ∧ r'.step = r.step ∧
            (∃ more, r'.trace = r.trace ++ more ∧ more <+: r.pending) ∧
            ∃ s'', stopped.await place = (some r.whenStopped, s'') ∧
              (stopped.held = some place →
                stopped.finish = (some r.whenStopped, s''.detach))) ∧
      (s'.Spares place before → ∃ s'', s.await place = (some (course.whole kinds), s'') ∧
        (s.held = some place → s.finish = (some (course.whole kinds), s''.detach))) := by
  intro place s
  have here := course_of_open valid calls
  refine ⟨fun r reached active => ⟨?_, fun r' onward => ?_⟩, ?_, ?_⟩
  · obtain ⟨done, follows⟩ := Run.follows_of_reaches reached
    exact follows.whenStopped_trace
  · have stopping := Run.stopping_of_reaches reached active onward
    refine ⟨stopping.step, stopping.more onward, fun ended => ?_⟩
    obtain ⟨done, follows⟩ := Run.follows_of_reaches ((reached.tail (.asked r)).trans onward)
    exact stopping.outcome_eq follows ended
  · intro r found held active later
    obtain ⟨r₀, found₀, reached⟩ := later_of_start started before
    cases found.symm.trans found₀
    obtain ⟨r', found', step, more, s'', awaited⟩ :=
      stopped_after held found reached active later
    exact ⟨r', found', step, more, s'', awaited, finish_of_await awaited⟩
  · intro spares
    obtain ⟨s'', awaited⟩ := whole_after started spares
    rw [here] at awaited
    exact ⟨s'', awaited, finish_of_await awaited⟩

theorem stops_briskFlight :
    Session.open? brisk.course = .ok brisk ∧
      (brisk.after []).start ["rotate", "land"] = .ok briskFlight ∧
      (∃ s, (briskFlight.after [.advance 1, .cancel, .detach, .advance 9]).await 0 =
        (some stoppedInFlip, s)) ∧
      briskFlight.Spares 0 [.advance 1, .detach, .cancel] ∧
      ∃ s, (briskFlight.after [.advance 1, .detach, .cancel]).await 0 =
        (some (brisk.course.whole ["rotate", "land"]), s) := by
  have valid : Session.open? brisk.course = .ok brisk := rfl
  have started : (brisk.after []).start ["rotate", "land"] = .ok briskFlight := rfl
  have spares : briskFlight.Spares 0 [.advance 1, .detach, .cancel] := by
    have letGo : Session.Spares (briskFlight.after [.advance 1, .detach]) 0 [.cancel] :=
      Session.spares_of_unheld (by decide) (by decide) _
    have kept : Session.Spares briskFlight 0 [.advance 1, .detach] :=
      Session.spares_of_no_cancel (by decide)
    exact kept.append letGo
  obtain ⟨-, stops, -⟩ := stops_at_step_boundary valid [] started [.advance 1]
  obtain ⟨-, -, -, -, s, awaited, -⟩ := stops _ rfl rfl rfl [.detach, .advance 9]
  obtain ⟨-, -, goesOn⟩ := stops_at_step_boundary valid [] started [.advance 1, .detach, .cancel]
  obtain ⟨s', awaited', -⟩ := goesOn spares
  exact ⟨valid, started, ⟨s, awaited⟩, spares, s', awaited'⟩

end FlightBlocks
