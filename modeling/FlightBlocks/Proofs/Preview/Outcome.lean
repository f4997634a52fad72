import FlightBlocks.Proofs.Preview.Session
/-!
What a run gives in the end: the frames of its first blocks and of no others, whatever the pauses,
however time was let pass and whenever the run was asked to stop or its handle let go.
-/

namespace FlightBlocks

/-- The outcome shows the first blocks of `kinds`, all of them unless it was cancelled, and ends
with what its last frame shows. -/
structure RunOutcome.Cuts (o : RunOutcome) (g : Grid) (kinds : List String) : Prop where
  trace : ∃ k ≤ kinds.length, o.trace = g.frames (kinds.take k) ∧
    (o.cancelled = false → k = kinds.length)
  final : o.trace.getLast?.map Frame.drone = some o.final
  level : o.final.flipping = false

namespace Run

variable {course : Course} {kinds done : List String} {r : Run}

theorem hasEnded_iff : r.hasEnded = true ↔ ∃ cancelled, r.phase = .ended cancelled := by
  unfold hasEnded
  cases r.phase <;> simp

theorem Follows.outcome_eq (follows : Follows course kinds done r) (ended : r.hasEnded = true) :
    r.outcome.trace = course.grid.frames done ∧
      r.outcome.final = course.grid.leave course.grid.start done ∧
      (r.outcome.cancelled = false → r.ahead = []) := by
  obtain ⟨cancelled, phase⟩ := hasEnded_iff.1 ended
  have shows := follows.shows
  rw [phase] at shows
  obtain ⟨trace, drone, all⟩ := shows
  refine ⟨trace, drone, fun free => all ?_⟩
  simpa [outcome, phase] using free

theorem Follows.outcome_cuts (follows : Follows course kinds done r) (ended : r.hasEnded = true) :
    r.outcome.Cuts course.grid kinds := by
  obtain ⟨trace, final, all⟩ := follows.outcome_eq ended
  have first : kinds.take done.length = done := by rw [follows.split, List.take_left]
  have within : kinds.length = done.length + r.ahead.length := by
    rw [follows.split, List.length_append]
  refine ⟨⟨done.length, by omega, by rw [first, trace], fun free => ?_⟩, ?_, ?_⟩
  · rw [within, all free, List.length_nil, Nat.add_zero]
  · rw [trace, final, Grid.frames_getLast?]
    rfl
  · rw [final]
    exact Grid.leave_level _ rfl done

theorem outcome_cuts_of_reaches (reaches : Reaches (start course kinds) r)
    (ended : r.hasEnded = true) : r.outcome.Cuts course.grid kinds := by
  obtain ⟨done, follows⟩ := follows_of_reaches reaches
  exact follows.outcome_cuts ended

theorem outcome_of_free (reaches : Reaches (start course kinds) r) (ended : r.hasEnded = true)
    (free : r.outcome.cancelled = false) :
    r.outcome = ⟨course.grid.frames kinds, course.grid.leave course.grid.start kinds, false⟩ := by
  obtain ⟨done, follows⟩ := follows_of_reaches reaches
  obtain ⟨trace, final, all⟩ := follows.outcome_eq ended
  have whole : kinds = done := by rw [follows.split, all free, List.append_nil]
  rw [whole, ← trace, ← final, ← free]

theorem outcome_free_of_reaches (reaches : Reaches (start course kinds) r)
    (unasked : r.cancelAsked = false) : r.outcome.cancelled = false := by
  obtain ⟨done, follows⟩ := follows_of_reaches reaches
  refine decide_eq_false fun stopped => ?_
  rw [follows.asked stopped] at unasked
  cases unasked

def Completes (course : Course) (kinds : List String) (o : RunOutcome) : Prop :=
  ∃ r, Reaches (start course kinds) r ∧ r.hasEnded = true ∧ r.outcome = o ∧ o.cancelled = false

theorem Completes.eq {o : RunOutcome} (completes : Completes course kinds o) :
    o = ⟨course.grid.frames kinds, course.grid.leave course.grid.start kinds, false⟩ := by
  obtain ⟨r, reaches, ended, rfl, free⟩ := completes
  exact outcome_of_free reaches ended free

end Run

namespace Session

variable {s : Session} {kinds : List String}

theorem await_cuts {course : Course} {place : Nat} {r : Run} (found : s.runs[place]? = some r)
    (reaches : (Run.start course kinds).Reaches r) :
    ∃ o s', s.await place = (some o, s') ∧ o.Cuts course.grid kinds := by
  obtain ⟨r', s', awaited, -, onward, ended, -⟩ := await_eq found
  exact ⟨r'.outcome, s', awaited, Run.outcome_cuts_of_reaches (reaches.trans onward) ended⟩

theorem launch_of_idle (nonempty : kinds ≠ []) (idle : s.busy = false) :
    ∃ s', s.launch kinds = .ok (s.runs.length, s') ∧ s'.course = s.course ∧
      s'.runs[s.runs.length]? = some (Run.start s.course kinds) := by
  refine ⟨_, launch_eq_ok_iff.2 ⟨⟨nonempty, idle⟩, rfl, rfl⟩, rfl, ?_⟩
  simp

theorem run_of_idle (nonempty : kinds ≠ []) (idle : s.busy = false) :
    ∃ o s', s.run kinds = .ok (some o, s') ∧ Run.Completes s.course kinds o := by
  obtain ⟨launched, ok, -, found⟩ := launch_of_idle nonempty idle
  obtain ⟨r, s', awaited, -, reaches, ended, unasked⟩ := await_eq found
  have free := Run.outcome_free_of_reaches reaches unasked
  exact ⟨r.outcome, s', run_eq_ok_iff.2 ⟨_, launched, ok, awaited⟩, r, reaches, ended, rfl, free⟩

theorem later_of_start {s₁ : Session} (started : s.start kinds = .ok s₁) (later : List Call) :
    ∃ r, (s₁.after later).runs[s.runs.length]? = some r ∧
      (Run.start s.course kinds).Reaches r := by
  obtain ⟨place, launched, ok, rfl⟩ := start_eq_ok_iff.1 started
  obtain ⟨-, rfl, rfl⟩ := launch_eq_ok_iff.1 ok
  refine (onward_after _ later).moved s.runs.length (Run.start s.course kinds) ?_
  simp

theorem course_of_open {course : Course} {opened : Session} (valid : open? course = .ok opened)
    (calls : List Call) : (opened.after calls).course = course := by
  obtain ⟨-, rfl⟩ := open?_eq_ok_iff.1 valid
  exact (onward_after _ calls).course

end Session

open Session in
/-- Whatever becomes of a run, what it gives in the end is the frames of its first blocks, all of
them if it was not cancelled, and the drone of its last frame, which is not flipping. This holds
however its moves and the requests to stop it follow on one another, for a simulator that runs the
blocks at once, and for a run that is waited for after any calls, its handle kept or let go. -/
theorem outcome_cuts_frames {course : Course} {opened : Session}
    (valid : open? course = .ok opened) (calls : List Call) {kinds : List String}
    (nonempty : kinds ≠ []) :
    (∀ r, (Run.start course kinds).Reaches r → r.hasEnded = true →
        r.outcome.Cuts course.grid kinds) ∧
      ((opened.after calls).busy = false →
        (∃ o s, (opened.after calls).run kinds = .ok (some o, s) ∧ o.cancelled = false ∧
          o.Cuts course.grid kinds) ∧
        ∃ s, (opened.after calls).start kinds = .ok s) ∧
      (∀ s, (opened.after calls).start kinds = .ok s → ∀ later : List Call,
        let place := (opened.after calls).runs.length
        ∃ r, (s.after later).runs[place]? = some r ∧ (Run.start course kinds).Reaches r ∧
          ∃ o s', (s.after later).await place = (some o, s') ∧ o.Cuts course.grid kinds ∧
            ((s.after later).held = some place →
              (s.after later).finish = (some o, s'.detach))) ∧
      ∀ (course' : Course) (r r' : Run), course'.grid = course.grid →
        (Run.start course kinds).Reaches r → r.hasEnded = true → r.outcome.cancelled = false →
        (Run.start course' kinds).Reaches r' → r'.hasEnded = true →
        r'.outcome.cancelled = false → r.outcome.trace = r'.outcome.trace := by
  have here := course_of_open valid calls
  refine ⟨fun r => Run.outcome_cuts_of_reaches, fun idle => ⟨?_, ?_⟩, ?_, ?_⟩
  · obtain ⟨o, s, ran, r, reaches, ended, rfl, free⟩ := run_of_idle nonempty idle
    rw [here] at reaches
    exact ⟨_, s, ran, free, Run.outcome_cuts_of_reaches reaches ended⟩
  · obtain ⟨launched, ok, -, -⟩ := launch_of_idle nonempty idle
    exact ⟨_, start_eq_ok_iff.2 ⟨_, launched, ok, rfl⟩⟩
  · intro s started later
    obtain ⟨r, found, reaches⟩ := later_of_start started later
    rw [here] at reaches
    obtain ⟨o, s', awaited, cuts⟩ := await_cuts found reaches
    refine ⟨r, found, reaches, o, s', awaited, cuts, fun held => ?_⟩
    rw [finish_eq held, awaited]
  · intro course' r r' same way ended free way' ended' free'
    rw [Run.outcome_of_free way ended free, Run.outcome_of_free way' ended' free', same]

def brisk : Session := ⟨⟨.default, 0, 2, 5⟩, 0, false, [], none, none⟩

def briskFlight : Session :=
  { brisk with
    busy := true
    runs := [Run.start brisk.course ["rotate", "land"]]
    held := some 0
    observed := some 0 }

def stoppedInFlip : RunOutcome := ⟨brisk.course.grid.frames ["rotate"], .groundedAt 5 5, true⟩

theorem outcome_stoppedInFlip :
    Session.open? brisk.course = .ok brisk ∧ ["rotate", "land"] ≠ [] ∧
      (brisk.after []).start ["rotate", "land"] = .ok briskFlight ∧
      (∃ s', (briskFlight.after [.advance 1, .cancel]).finish = (some stoppedInFlip, s')) ∧
      stoppedInFlip.Cuts brisk.course.grid ["rotate", "land"] := by
  have valid : Session.open? brisk.course = .ok brisk := rfl
  have nonempty : ["rotate", "land"] ≠ [] := by decide
  have started : (brisk.after []).start ["rotate", "land"] = .ok briskFlight := rfl
  obtain ⟨-, -, waits, -⟩ := outcome_cuts_frames valid [] nonempty
  obtain ⟨r, -, -, o, s', awaited, cuts, finished⟩ :=
    waits briskFlight started [.advance 1, .cancel]
  have shown : o = stoppedInFlip := Option.some.inj (congrArg Prod.fst awaited).symm
  subst shown
  exact ⟨valid, nonempty, started, ⟨_, finished rfl⟩, cuts⟩

end FlightBlocks
