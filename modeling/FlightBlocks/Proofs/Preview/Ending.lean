import FlightBlocks.Proofs.Preview.Outcome
/-!
When a run ends that nobody stops: after its lead-in and one step's time for each block, whether the
block raises a flip or not and however the time until then is cut.
-/

namespace FlightBlocks.Run

/-- The run ends at the time `due`, or it has ended and that time has come. -/
def EndsAt (due now : Nat) (r : Run) : Prop :=
  (r.hasEnded = false → r.endTime now = due ∧ r.cancelAsked = false) ∧
    (r.hasEnded = true → due ≤ now)

def lastTime (r : Run) (time : Nat) : Nat := time + r.ahead.length * r.course.stepDelay

theorem lastTime_applied {r : Run} {kind : String} {kinds : List String}
    (next : r.ahead = kind :: kinds) (time : Nat) :
    (r.applied kind kinds).lastTime (time + r.course.stepDelay) = r.lastTime time := by
  change time + r.course.stepDelay + kinds.length * r.course.stepDelay = _
  rw [lastTime, next, List.length_cons, Nat.add_mul, Nat.one_mul]
  omega

section

variable {deadline due now time : Nat} {r : Run} (free : r.cancelAsked = false)

include free

theorem endTime_of_ready (ready : r.phase = .ready) (now : Nat) :
    r.endTime now = r.lastTime (now + r.course.startDelay) := by
  simp only [endTime, ready, free]
  rfl

theorem endTime_of_paused (paused : r.phase = .paused time) (now : Nat) :
    r.endTime now = r.lastTime time := by
  simp only [endTime, paused, free]
  rfl

theorem endTime_of_flipping (shows : r.phase = .flipping time) (now : Nat) :
    r.endTime now = r.lastTime (time + (r.course.stepDelay - r.course.flipShown)) := by
  simp only [endTime, shows, free]
  rfl

theorem endsAt_waitUntil (time : Nat) :
    EndsAt (r.lastTime time) deadline (waitUntil deadline time r) ∧
      ((waitUntil deadline time r).hasEnded = false → deadline < r.lastTime time) := by
  refine waitUntil_induction
    (motive := fun time r after => r.cancelAsked = false →
      EndsAt (r.lastTime time) deadline after ∧
        (after.hasEnded = false → deadline < r.lastTime time))
    ?late ?done ?level ?shown ?lowered time r free
  case late =>
    intro time r late free
    have until' : (r.pausing time).endTime deadline = r.lastTime time :=
      endTime_of_paused (r := r.pausing time) free rfl deadline
    refine ⟨⟨fun _ => ⟨until', free⟩, nofun⟩, fun _ => ?_⟩
    exact Nat.lt_of_lt_of_le late (Nat.le_add_right _ _)
  case done =>
    intro time r passed last _
    refine ⟨⟨nofun, fun _ => ?_⟩, nofun⟩
    rw [lastTime, last, List.length_nil]
    omega
  case level =>
    intro time r kind kinds after _ next _ later free
    rw [← lastTime_applied next]
    exact later free
  case shown =>
    intro time r kind kinds _ next _ still free
    have short : r.course.flipShown ≤ r.course.stepDelay := Nat.min_le_right _ _
    have whole : time + r.course.flipShown + (r.course.stepDelay - r.course.flipShown) =
        time + r.course.stepDelay := by omega
    have until' : ((r.applied kind kinds).showing (time + r.course.flipShown)).endTime deadline =
        (r.applied kind kinds).lastTime
          (time + r.course.flipShown + (r.course.stepDelay - r.course.flipShown)) :=
      endTime_of_flipping (r := (r.applied kind kinds).showing (time + r.course.flipShown))
        free rfl deadline
    rw [whole, lastTime_applied next] at until'
    refine ⟨⟨fun _ => ⟨until', free⟩, nofun⟩, fun _ => ?_⟩
    rw [← lastTime_applied next]
    exact Nat.lt_of_lt_of_le (by omega) (Nat.le_add_right _ _)
  case lowered =>
    intro time r kind kinds after _ next _ _ later free
    rw [← lastTime_applied next]
    exact later free

end

theorem endsAt_start (course : Course) (kinds : List String) (now : Nat) :
    EndsAt (now + course.startDelay + kinds.length * course.stepDelay) now (start course kinds) :=
  ⟨fun _ => ⟨rfl, rfl⟩, nofun⟩

section

variable {deadline due now : Nat} {r : Run}

theorem EndsAt.of_ended (late : due ≤ now) (ended : r.hasEnded = true) : EndsAt due now r := by
  refine ⟨fun active => ?_, fun _ => late⟩
  rw [ended] at active
  cases active

theorem EndsAt.cancel (ends : EndsAt due now r) (ended : r.hasEnded = true) :
    EndsAt due now r.cancel := .of_ended (ends.2 ended) ended

theorem EndsAt.advance (ends : EndsAt due now r) (later : now ≤ deadline) :
    EndsAt due deadline (r.advance now deadline) ∧
      ((r.advance now deadline).hasEnded = false → deadline < due) := by
  cases phase : r.phase with
  | ended cancelled =>
    have ended : r.hasEnded = true := hasEnded_iff.2 ⟨cancelled, phase⟩
    rw [advance_of_ended phase]
    refine ⟨.of_ended (Nat.le_trans (ends.2 ended) later) ended, fun active => ?_⟩
    rw [ended] at active
    cases active
  | ready =>
    obtain ⟨rfl, free⟩ := ends.1 (by simp only [hasEnded, phase])
    rw [advance_of_ready phase, if_neg (by simp [free]), endTime_of_ready free phase]
    exact endsAt_waitUntil (r := r.publish) free _
  | paused time =>
    obtain ⟨rfl, free⟩ := ends.1 (by simp only [hasEnded, phase])
    rw [advance_of_paused phase, if_neg (by simp [free]), endTime_of_paused free phase]
    exact endsAt_waitUntil free _
  | flipping time =>
    have active : r.hasEnded = false := by simp only [hasEnded, phase]
    obtain ⟨rfl, free⟩ := ends.1 active
    have until' := endTime_of_flipping free phase
    rcases Nat.lt_or_ge deadline time with shown | late
    · rw [advance_of_showing phase shown]
      refine ⟨⟨fun _ => ⟨(until' deadline).trans (until' now).symm, free⟩, fun ended => ?_⟩,
        fun _ => ?_⟩
      · rw [active] at ended
        cases ended
      · rw [until' now, lastTime]
        omega
    · rw [advance_of_flipping phase late, if_neg (by simp [free]), until' now]
      exact endsAt_waitUntil (r := r.endFlip) free _

end

end FlightBlocks.Run
