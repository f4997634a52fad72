import FlightBlocks.Proofs.Preview.Busy
/-!
Time that is cut in two. A run that is let go on until one moment and then until a later one stands
where it would stand had it gone on until the later one at once, whatever it waits for and whether
it was asked to stop; so all that a simulator shows depends on the time that has passed and not on
how it was let pass.
-/

namespace FlightBlocks

namespace Run

variable {now until' later : Nat} {r : Run}

theorem waitUntil_waiting (phase : Phase) (time : Nat) (r : Run) :
    waitUntil later time { r with phase := phase } = waitUntil later time r := by
  refine waitUntil_induction
    (motive := fun time r after => waitUntil later time { r with phase := phase } = after)
    ?late ?done ?level ?shown ?lowered time r
  case late =>
    intro time r late
    rw [waitUntil_of_late late]
    rfl
  case done =>
    intro time r due done
    rw [waitUntil_of_done due (r := { r with phase := phase }) done]
    rfl
  case level =>
    intro time r kind kinds after due next level rest
    rw [← rest]
    exact waitUntil_of_level due (r := { r with phase := phase }) next level
  case shown =>
    intro time r kind kinds due next raised late
    exact waitUntil_of_shown due (r := { r with phase := phase }) next raised late
  case lowered =>
    intro time r kind kinds after due next raised elapsed rest
    rw [← rest]
    exact waitUntil_of_lowered due (r := { r with phase := phase }) next raised elapsed

theorem advance_waitUntil (onward : until' ≤ later) (free : r.cancelAsked = false) (time : Nat) :
    (waitUntil until' time r).advance until' later = waitUntil later time r := by
  refine waitUntil_induction
    (motive := fun time r after => r.cancelAsked = false →
      after.advance until' later = waitUntil later time r)
    ?late ?done ?level ?shown ?lowered time r free
  case late =>
    intro time r _ free
    rw [advance_of_paused (r := r.pausing time) rfl, if_neg (by simp [pausing, free])]
    exact waitUntil_waiting _ time r
  case done =>
    intro time r due done _
    rw [advance_of_ended rfl, waitUntil_of_done (Nat.le_trans due onward) done]
  case level =>
    intro time r kind kinds after due next level rest free
    rw [rest free, ← waitUntil_of_level (Nat.le_trans due onward) next level]
  case shown =>
    intro time r kind kinds due next raised _ free
    have whole : time + r.course.flipShown + (r.course.stepDelay - r.course.flipShown) =
        time + r.course.stepDelay := by
      have short : r.course.flipShown ≤ r.course.stepDelay := Nat.min_le_right _ _
      omega
    have free' : ((r.applied kind kinds).showing (time + r.course.flipShown)).cancelAsked = false :=
      free
    rcases Nat.lt_or_ge later (time + r.course.flipShown) with still | elapsed
    · rw [advance_of_showing rfl still,
        waitUntil_of_shown (Nat.le_trans due onward) next raised still]
    · rw [advance_of_flipping rfl elapsed, if_neg (by simp [free']),
        waitUntil_of_lowered (Nat.le_trans due onward) next raised elapsed, ← whole]
      exact waitUntil_waiting _ _ (r.applied kind kinds).endFlip
  case lowered =>
    intro time r kind kinds after due next raised elapsed rest free
    rw [rest free, ← waitUntil_of_lowered (Nat.le_trans due onward) next raised
      (Nat.le_trans elapsed onward)]

/-- A run stands where it stands however the time until then is cut. -/
theorem advance_advance (onward : until' ≤ later) (now : Nat) (r : Run) :
    (r.advance now until').advance until' later = r.advance now later := by
  cases phase : r.phase with
  | ended cancelled => rw [advance_of_ended phase, advance_of_ended phase, advance_of_ended phase]
  | ready =>
    rw [advance_of_ready phase, advance_of_ready phase]
    cases asked : r.cancelAsked with
    | true => exact advance_of_ended rfl
    | false => exact advance_waitUntil (r := r.publish) onward asked _
  | paused time =>
    rw [advance_of_paused phase, advance_of_paused phase]
    cases asked : r.cancelAsked with
    | true => exact advance_of_ended rfl
    | false => exact advance_waitUntil onward asked time
  | flipping time =>
    rcases Nat.lt_or_ge until' time with shown | late
    · rw [advance_of_showing phase shown]
      -- while the flip is up, `now` is not looked at
      simp only [advance, phase]
    · have late' : time ≤ later := Nat.le_trans late onward
      rw [advance_of_flipping phase late, advance_of_flipping phase late']
      cases asked : r.cancelAsked with
      | true => exact advance_of_ended rfl
      | false => exact advance_waitUntil (r := r.endFlip) onward asked _

end Run

namespace Session

variable {until' later : Nat} (onward : until' ≤ later) (s : Session)

include onward

theorem runs_advanceTo_advanceTo :
    ((s.advanceTo until').advanceTo later).runs = (s.advanceTo later).runs := by
  simp only [advanceTo, List.map_map]
  exact List.map_congr_left fun r _ => Run.advance_advance onward s.now r

theorem busy_advanceTo_advanceTo :
    ((s.advanceTo until').advanceTo later).busy = (s.advanceTo later).busy := by
  have same (place : Nat) : ((s.advanceTo until').advanceTo later).Active place ↔
      (s.advanceTo later).Active place := by
    simp only [Active, runs_advanceTo_advanceTo onward s]
  rw [Bool.eq_iff_iff, busy_advanceTo_iff, busy_advanceTo_iff, busy_advanceTo_iff]
  constructor
  · rintro ⟨⟨busy, first⟩, second⟩
    exact ⟨busy, fun place active => (same place).1 (second place (first place active))⟩
  · rintro ⟨busy, both⟩
    refine ⟨⟨busy, fun place active => ?_⟩, fun place active => ?_⟩
    · exact active_of_advanceTo ((same place).2 (both place active))
    · exact (same place).2 (both place (active_of_advanceTo active))

theorem advanceTo_advanceTo : (s.advanceTo until').advanceTo later = s.advanceTo later := by
  have runs := runs_advanceTo_advanceTo onward s
  have busy := busy_advanceTo_advanceTo onward s
  rw [advanceTo] at runs busy ⊢
  exact Session.mk.injEq .. |>.mpr ⟨rfl, rfl, busy, runs, rfl, rfl⟩

omit onward in
theorem advance_add (s : Session) (a b : Nat) : (s.advance a).advance b = s.advance (a + b) := by
  rw [advance, advance, advance, ← Nat.add_assoc]
  exact advanceTo_advanceTo (Nat.le_add_right _ b) s

end Session

end FlightBlocks
