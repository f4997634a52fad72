import FlightBlocks.Preview.Run
import FlightBlocks.Proofs.Preview.Frames
import Mathlib.Logic.Relation
/-!
What a run does between two of its waits, without the clock: one move for each thing it does, and a
request to stop may come between any two moves. Letting time pass is a row of such moves, so what
every move keeps holds however time is cut and whenever a run is asked to stop.
-/

namespace FlightBlocks.Run

def pausing (r : Run) (time : Nat) : Run := { r with phase := .paused time }

def showing (r : Run) (time : Nat) : Run := { r with phase := .flipping time }

def applied (r : Run) (kind : String) (kinds : List String) : Run :=
  applyBlock { r with ahead := kinds } kind

/-- One move of a run, or a request to it. Until when it then waits is left open. -/
inductive Moves : Run → Run → Prop
  | begins {r : Run} (time : Nat) (ready : r.phase = .ready) : Moves r (r.publish.pausing time)
  | applies {r : Run} {now : Nat} {kind : String} {kinds : List String} (time : Nat)
      (paused : r.phase = .paused now) (free : r.cancelAsked = false)
      (next : r.ahead = kind :: kinds) (level : (r.applied kind kinds).drone.flipping = false) :
      Moves r ((r.applied kind kinds).pausing time)
  | flips {r : Run} {now : Nat} {kind : String} {kinds : List String} (time : Nat)
      (paused : r.phase = .paused now) (free : r.cancelAsked = false)
      (next : r.ahead = kind :: kinds) (raised : (r.applied kind kinds).drone.flipping = true) :
      Moves r ((r.applied kind kinds).showing time)
  | lowers {r : Run} {now : Nat} (time : Nat) (shows : r.phase = .flipping now) :
      Moves r (r.endFlip.pausing time)
  | completes {r : Run} {now : Nat} (paused : r.phase = .paused now) (free : r.cancelAsked = false)
      (last : r.ahead = []) : Moves r (r.finish false)
  | stops {r : Run} {now : Nat} (paused : r.phase = .paused now) (asked : r.cancelAsked = true) :
      Moves r (r.finish true)
  | asked (r : Run) : Moves r r.cancel

abbrev Reaches : Run → Run → Prop := Relation.ReflTransGen Moves

section Kept

variable {r r' : Run}

theorem trace_stays_of_moves (move : Moves r r') : r.trace <+: r'.trace := by
  cases move with
  | begins => exact List.prefix_append _ _
  | applies => exact List.prefix_append _ _
  | flips => exact List.prefix_append _ _
  | lowers => exact List.prefix_append _ _
  | completes => exact List.prefix_rfl
  | stops => exact List.prefix_rfl
  | asked => exact List.prefix_rfl

theorem trace_stays (reaches : Reaches r r') : r.trace <+: r'.trace := by
  induction reaches with
  | refl => exact List.prefix_rfl
  | tail _ move ih => exact ih.trans (trace_stays_of_moves move)

theorem ended_stays {cancelled : Bool} (reaches : Reaches r r')
    (ended : r.phase = .ended cancelled) : r'.phase = .ended cancelled := by
  induction reaches with
  | refl => exact ended
  | @tail mid last _ move ih =>
    cases move with
    | begins _ ready => cases ready.symm.trans ih
    | applies _ paused => cases paused.symm.trans ih
    | flips _ paused => cases paused.symm.trans ih
    | lowers _ shows => cases shows.symm.trans ih
    | completes paused => cases paused.symm.trans ih
    | stops paused => cases paused.symm.trans ih
    | asked => exact ih

end Kept

section Advance

variable {deadline : Nat}

theorem waitUntil_of_late {time : Nat} (late : deadline < time) (r : Run) :
    waitUntil deadline time r = r.pausing time := if_pos late

theorem waitUntil_of_done {time : Nat} (due : time ≤ deadline) {r : Run} (done : r.ahead = []) :
    waitUntil deadline time r = r.finish false := by
  have same : { r with ahead := [] } = r := by rw [← done]
  rw [waitUntil, if_neg (Nat.not_lt.2 due), done, advanceFrom, same]

section Block

variable {time : Nat} (due : time ≤ deadline) {r : Run} {kind : String} {kinds : List String}
  (next : r.ahead = kind :: kinds)

include due next

theorem waitUntil_of_level (level : (r.applied kind kinds).drone.flipping = false) :
    waitUntil deadline time r =
      waitUntil deadline (time + r.course.stepDelay) (r.applied kind kinds) := by
  rw [waitUntil, if_neg (Nat.not_lt.2 due), next, advanceFrom]
  unfold applied at level ⊢
  simp only [level, Bool.false_and, Bool.false_eq_true, ↓reduceIte]
  rfl

theorem waitUntil_of_shown (raised : (r.applied kind kinds).drone.flipping = true)
    (late : deadline < time + r.course.flipShown) :
    waitUntil deadline time r = (r.applied kind kinds).showing (time + r.course.flipShown) := by
  rw [waitUntil, if_neg (Nat.not_lt.2 due), next, advanceFrom]
  have still : decide (time + r.course.flipShown > deadline) = true := decide_eq_true late
  unfold applied at raised ⊢
  simp only [raised, Bool.true_and]
  exact if_pos still

theorem waitUntil_of_lowered (raised : (r.applied kind kinds).drone.flipping = true)
    (elapsed : time + r.course.flipShown ≤ deadline) :
    waitUntil deadline time r =
      waitUntil deadline (time + r.course.stepDelay) (r.applied kind kinds).endFlip := by
  rw [waitUntil, if_neg (Nat.not_lt.2 due), next, advanceFrom]
  have still : ¬ decide (time + r.course.flipShown > deadline) = true := by
    simpa using elapsed
  unfold applied at raised ⊢
  simp only [raised, Bool.true_and, ↓reduceIte]
  exact if_neg still

end Block

/-- What becomes of a pause, by what comes next in it. The induction is on the blocks ahead. -/
theorem waitUntil_induction {motive : Nat → Run → Run → Prop}
    (late : ∀ time r, deadline < time → motive time r (r.pausing time))
    (done : ∀ time r, time ≤ deadline → r.ahead = [] → motive time r (r.finish false))
    (level : ∀ time r kind kinds after, time ≤ deadline → r.ahead = kind :: kinds →
      (r.applied kind kinds).drone.flipping = false →
      motive (time + r.course.stepDelay) (r.applied kind kinds) after → motive time r after)
    (shown : ∀ time r kind kinds, time ≤ deadline → r.ahead = kind :: kinds →
      (r.applied kind kinds).drone.flipping = true → deadline < time + r.course.flipShown →
      motive time r ((r.applied kind kinds).showing (time + r.course.flipShown)))
    (lowered : ∀ time r kind kinds after, time ≤ deadline → r.ahead = kind :: kinds →
      (r.applied kind kinds).drone.flipping = true → time + r.course.flipShown ≤ deadline →
      motive (time + r.course.stepDelay) (r.applied kind kinds).endFlip after →
      motive time r after)
    (time : Nat) (r : Run) : motive time r (waitUntil deadline time r) := by
  generalize ahead : r.ahead = kinds
  induction kinds generalizing time r with
  | nil =>
    rcases Nat.lt_or_ge deadline time with pending | due
    · rw [waitUntil_of_late pending]
      exact late time r pending
    · rw [waitUntil_of_done due ahead]
      exact done time r due ahead
  | cons kind kinds ih =>
    rcases Nat.lt_or_ge deadline time with pending | due
    · rw [waitUntil_of_late pending]
      exact late time r pending
    · cases raised : (r.applied kind kinds).drone.flipping with
      | false =>
        rw [waitUntil_of_level due ahead raised]
        exact level time r kind kinds _ due ahead raised (ih _ _ rfl)
      | true =>
        rcases Nat.lt_or_ge deadline (time + r.course.flipShown) with still | elapsed
        · rw [waitUntil_of_shown due ahead raised still]
          exact shown time r kind kinds due ahead raised still
        · rw [waitUntil_of_lowered due ahead raised elapsed]
          exact lowered time r kind kinds _ due ahead raised elapsed (ih _ _ rfl)

theorem reaches_waitUntil {time : Nat} {r : Run} (free : r.cancelAsked = false) :
    Reaches (r.pausing time) (waitUntil deadline time r) := by
  refine waitUntil_induction
    (motive := fun time r after => r.cancelAsked = false → Reaches (r.pausing time) after)
    ?late ?done ?level ?shown ?lowered time r free
  case late =>
    intro time r _ _
    exact .refl
  case done =>
    intro time r _ last free
    have move : Moves (r.pausing time) (r.finish false) := .completes rfl free last
    exact .single move
  case level =>
    intro time r kind kinds after _ next level later free
    have move : Moves (r.pausing time)
        ((r.applied kind kinds).pausing (time + r.course.stepDelay)) :=
      .applies _ rfl free next level
    exact .head move (later free)
  case shown =>
    intro time r kind kinds _ next raised _ free
    have move : Moves (r.pausing time)
        ((r.applied kind kinds).showing (time + r.course.flipShown)) :=
      .flips _ rfl free next raised
    exact .single move
  case lowered =>
    intro time r kind kinds after _ next raised _ later free
    have move : Moves (r.pausing time)
        ((r.applied kind kinds).showing (time + r.course.flipShown)) :=
      .flips _ rfl free next raised
    have lower : Moves ((r.applied kind kinds).showing (time + r.course.flipShown))
        ((r.applied kind kinds).endFlip.pausing (time + r.course.stepDelay)) := .lowers _ rfl
    exact .head move (.head lower (later free))

theorem advance_of_ended {now : Nat} {r : Run} {cancelled : Bool}
    (ended : r.phase = .ended cancelled) : r.advance now deadline = r := by
  simp only [advance, ended]

theorem advance_of_ready {now : Nat} {r : Run} (ready : r.phase = .ready) :
    r.advance now deadline =
      if r.cancelAsked then r.publish.finish true
      else waitUntil deadline (now + r.course.startDelay) r.publish := by
  simp only [advance, ready]
  rfl

theorem advance_of_paused {now time : Nat} {r : Run} (paused : r.phase = .paused time) :
    r.advance now deadline =
      if r.cancelAsked then r.finish true else waitUntil deadline time r := by
  simp only [advance, paused]

/-- While a flip is shown, a request to stop is not looked at. -/
theorem advance_of_showing {now time : Nat} {r : Run} (shows : r.phase = .flipping time)
    (late : deadline < time) : r.advance now deadline = r := by
  simp only [advance, shows, if_pos late]

theorem advance_of_flipping {now time : Nat} {r : Run} (shows : r.phase = .flipping time)
    (due : time ≤ deadline) :
    r.advance now deadline =
      if r.cancelAsked then r.endFlip.finish true
      else waitUntil deadline (time + (r.course.stepDelay - r.course.flipShown)) r.endFlip := by
  simp only [advance, shows, if_neg (Nat.not_lt.2 due)]
  rfl

theorem reaches_advance (now : Nat) (r : Run) : Reaches r (r.advance now deadline) := by
  cases phase : r.phase with
  | ended cancelled =>
    rw [advance_of_ended phase]
  | ready =>
    have begins (time : Nat) : Moves r (r.publish.pausing time) := .begins time phase
    rw [advance_of_ready phase]
    cases asked : r.cancelAsked with
    | true => exact .head (begins 0) (.single (.stops rfl asked))
    | false => exact .head (begins _) (reaches_waitUntil asked)
  | paused time =>
    rw [advance_of_paused phase]
    cases asked : r.cancelAsked with
    | true => exact .single (.stops phase asked)
    | false =>
      have same : r.pausing time = r := by rw [pausing, ← phase]
      have onward : Reaches (r.pausing time) (waitUntil deadline time r) :=
        reaches_waitUntil asked
      rwa [same] at onward
  | flipping time =>
    have lowers (until' : Nat) : Moves r (r.endFlip.pausing until') := .lowers until' phase
    rcases Nat.lt_or_ge deadline time with late | due
    · rw [advance_of_showing phase late]
    · rw [advance_of_flipping phase due]
      cases asked : r.cancelAsked with
      | true => exact .head (lowers 0) (.single (.stops rfl asked))
      | false => exact .head (lowers _) (reaches_waitUntil asked)

theorem cancelAsked_waitUntil (time : Nat) (r : Run) :
    (waitUntil deadline time r).cancelAsked = r.cancelAsked := by
  refine waitUntil_induction (motive := fun _ r after => after.cancelAsked = r.cancelAsked)
    ?late ?done ?level ?shown ?lowered time r
  case level => exact fun _ _ _ _ _ _ _ _ later => later
  case lowered => exact fun _ _ _ _ _ _ _ _ _ later => later
  all_goals intros; rfl

theorem cancelAsked_advance (now : Nat) (r : Run) :
    (r.advance now deadline).cancelAsked = r.cancelAsked := by
  cases phase : r.phase with
  | ended cancelled => rw [advance_of_ended phase]
  | ready =>
    rw [advance_of_ready phase]
    split
    · rfl
    · exact cancelAsked_waitUntil _ _
  | paused time =>
    rw [advance_of_paused phase]
    split
    · rfl
    · exact cancelAsked_waitUntil _ _
  | flipping time =>
    rcases Nat.lt_or_ge deadline time with late | due
    · rw [advance_of_showing phase late]
    · rw [advance_of_flipping phase due]
      split
      · rfl
      · exact cancelAsked_waitUntil _ _

theorem hasEnded_waitUntil {time : Nat} {r : Run}
    (enough : time + r.ahead.length * r.course.stepDelay ≤ deadline) :
    (waitUntil deadline time r).hasEnded = true := by
  have rest {time steps step : Nat} (enough : time + (steps + 1) * step ≤ deadline) :
      time + step + steps * step ≤ deadline := by
    rw [Nat.add_mul] at enough
    omega
  refine waitUntil_induction
    (motive := fun time r after =>
      time + r.ahead.length * r.course.stepDelay ≤ deadline → after.hasEnded = true)
    ?late ?done ?level ?shown ?lowered time r enough
  case late =>
    intro time r late enough
    omega
  case done =>
    intro time r _ _ _
    rfl
  case level =>
    intro time r kind kinds after _ next _ later enough
    rw [next] at enough
    exact later (rest enough)
  case shown =>
    intro time r kind kinds _ next _ still enough
    have short : r.course.flipShown ≤ r.course.stepDelay := Nat.min_le_right _ _
    rw [next] at enough
    have := rest enough
    omega
  case lowered =>
    intro time r kind kinds after _ next _ _ later enough
    rw [next] at enough
    exact later (rest enough)

theorem hasEnded_advance {now : Nat} {r : Run} (enough : r.endTime now ≤ deadline) :
    (r.advance now deadline).hasEnded = true := by
  simp only [endTime] at enough
  cases phase : r.phase with
  | ended cancelled =>
    rw [advance_of_ended phase]
    simp only [hasEnded, phase]
  | ready =>
    simp only [phase] at enough
    rw [advance_of_ready phase]
    split
    next => rfl
    next free =>
      rw [if_neg free] at enough
      exact hasEnded_waitUntil enough
  | paused time =>
    simp only [phase] at enough
    rw [advance_of_paused phase]
    split
    next => rfl
    next free =>
      rw [if_neg free] at enough
      exact hasEnded_waitUntil enough
  | flipping time =>
    simp only [phase] at enough
    have due : time ≤ deadline := by split at enough <;> omega
    rw [advance_of_flipping phase due]
    split
    next => rfl
    next free =>
      rw [if_neg free] at enough
      exact hasEnded_waitUntil enough

end Advance

end FlightBlocks.Run
