import FlightBlocks.Proofs.Preview.Passing
import FlightBlocks.Proofs.Preview.Timetable
/-!
A run that nobody stops keeps to its timetable. What it has shown at any moment is what is due by
then, and it ends with its last step, however time was let pass and whether or not its handle was
kept.
-/

namespace FlightBlocks

namespace Run

open Course

variable {begun elapsed : Nat} {r : Run}

theorem trace_waitUntil (begun elapsed : Nat) (r : Run) :
    (waitUntil (begun + elapsed) (begun + r.course.stepTime r.step) r).trace =
      r.trace ++ (r.course.timetableFrom r.step r.drone r.ahead).due elapsed := by
  refine waitUntil_induction
    (motive := fun time r after => time = begun + r.course.stepTime r.step →
      after.trace = r.trace ++ (r.course.timetableFrom r.step r.drone r.ahead).due elapsed)
    ?late ?done ?level ?shown ?lowered _ r rfl
  case late =>
    rintro time r late rfl
    rw [due_timetableFrom_of_early (by omega), List.append_nil]
    rfl
  case done =>
    rintro time r _ done -
    rw [done]
    simp [timetableFrom, Timetable.due, finish]
  case level =>
    rintro time r kind kinds after due next level rest rfl
    have here : r.course.stepTime r.step ≤ elapsed := by omega
    have level : (r.course.grid.shown r.drone kind).flipping = false := level
    rw [next, timetableFrom, Timetable.due_append, due_blockTimes_of_level level here,
      ← List.append_assoc, Drone.settled_of_not_flipping level]
    exact rest (by rw [Nat.add_assoc, ← stepTime_succ]; rfl)
  case shown =>
    rintro time r kind kinds due next raised late rfl
    have here : r.course.stepTime r.step ≤ elapsed := by omega
    have still : ¬ r.course.stepTime r.step + r.course.flipShown ≤ elapsed := by omega
    have early : elapsed < r.course.stepTime (r.step + 1) := by
      have short := r.course.flipShown_le
      rw [stepTime_succ]
      omega
    rw [next, timetableFrom, Timetable.due_append, due_blockTimes_of_flipping raised here,
      if_neg still, due_timetableFrom_of_early early, List.append_nil]
    rfl
  case lowered =>
    rintro time r kind kinds after due next raised shown rest rfl
    have here : r.course.stepTime r.step ≤ elapsed := by omega
    have down : r.course.stepTime r.step + r.course.flipShown ≤ elapsed := by omega
    have both : (r.applied kind kinds).endFlip.trace =
        r.trace ++ [⟨r.step + 1, some kind, r.course.grid.shown r.drone kind⟩,
          ⟨r.step + 1, some kind, (r.course.grid.shown r.drone kind).settled⟩] :=
      List.append_assoc _ _ _
    rw [next, timetableFrom, Timetable.due_append, due_blockTimes_of_flipping raised here,
      if_pos down, ← List.append_assoc, ← both]
    exact rest (by rw [Nat.add_assoc, ← stepTime_succ]; rfl)

theorem phase_waitUntil (deadline time : Nat) (r : Run) :
    (waitUntil deadline time r).phase ≠ .ready := by
  refine waitUntil_induction (motive := fun _ _ after => after.phase ≠ .ready)
    ?late ?done ?level ?shown ?lowered time r
  case late => exact fun _ _ _ => nofun
  case done => exact fun _ _ _ _ => nofun
  case level => exact fun _ _ _ _ _ _ _ _ rest => rest
  case shown => exact fun _ _ _ _ _ _ _ _ => nofun
  case lowered => exact fun _ _ _ _ _ _ _ _ _ rest => rest

theorem phase_advance (now deadline : Nat) (r : Run) : (r.advance now deadline).phase ≠ .ready := by
  cases phase : r.phase with
  | ended cancelled =>
    rw [advance_of_ended phase, phase]
    nofun
  | ready =>
    rw [advance_of_ready phase]
    split
    · exact nofun
    · exact phase_waitUntil _ _ _
  | paused time =>
    rw [advance_of_paused phase]
    split
    · exact nofun
    · exact phase_waitUntil _ _ _
  | flipping time =>
    rcases Nat.lt_or_ge deadline time with shown | late
    · rw [advance_of_showing phase shown, phase]
      nofun
    · rw [advance_of_flipping phase late]
      split
      · exact nofun
      · exact phase_waitUntil _ _ _

structure Punctual (course : Course) (kinds : List String) (elapsed : Nat) (r : Run) : Prop where
  trace : r.trace = (course.timetable kinds).due elapsed
  applied : ∀ i kind, kinds[i]? = some kind →
    (⟨i + 1, some kind, course.grid.shown (course.grid.leave course.grid.start (kinds.take i)) kind⟩
      ∈ r.trace ↔ course.startDelay + i * course.stepDelay ≤ elapsed)
  lowered : ∀ i kind, kinds[i]? = some kind →
    let shown := course.grid.shown (course.grid.leave course.grid.start (kinds.take i)) kind
    shown.flipping = true → (⟨i + 1, some kind, shown.settled⟩ ∈ r.trace ↔
      course.startDelay + i * course.stepDelay + min course.flipDuration course.stepDelay ≤ elapsed)
  ended : r.hasEnded = true ↔ course.startDelay + kinds.length * course.stepDelay ≤ elapsed

section

variable {course : Course} {kinds : List String} {now later : Nat}

theorem advance_start (course : Course) (kinds : List String) (now later : Nat) :
    (start course kinds).advance now later =
      waitUntil later (now + course.startDelay) (start course kinds).publish :=
  advance_of_ready rfl

theorem trace_start (course : Course) (kinds : List String) (begun elapsed : Nat) :
    ((start course kinds).advance begun (begun + elapsed)).trace =
      (course.timetable kinds).due elapsed := by
  have first : course.startDelay = course.stepTime 0 := by simp [stepTime]
  rw [advance_start, first]
  exact trace_waitUntil begun elapsed (start course kinds).publish

theorem ended_start (course : Course) (kinds : List String) (begun elapsed : Nat) :
    ((start course kinds).advance begun (begun + elapsed)).hasEnded = true ↔
      course.startDelay + kinds.length * course.stepDelay ≤ elapsed := by
  have free : (start course kinds).publish.cancelAsked = false := rfl
  have last : (start course kinds).publish.lastTime (begun + course.startDelay) =
      begun + (course.startDelay + kinds.length * course.stepDelay) := Nat.add_assoc _ _ _
  have ends : EndsAt _ (begun + elapsed) _ ∧ _ := endsAt_waitUntil free (begun + course.startDelay)
  rw [last] at ends
  obtain ⟨⟨-, reached⟩, going⟩ := ends
  rw [advance_start]
  constructor
  · intro ended
    exact Nat.le_of_add_le_add_left (reached ended)
  · intro passed
    refine Bool.not_eq_false _ |>.mp fun active => ?_
    exact absurd (Nat.lt_of_add_lt_add_left (going active)) (Nat.not_lt.2 passed)

end

/-- The run over `kinds` at the time `now` when nobody stops it, if it began, or will begin when
time is let pass, at `begun`. A request to stop that comes after the end changes nothing of this. -/
inductive Timed (course : Course) (kinds : List String) (begun : Nat) : Nat → Run → Prop
  | waits : Timed course kinds begun begun (start course kinds)
  | goes {now : Nat} (since : begun ≤ now) :
      Timed course kinds begun now ((start course kinds).advance begun now)
  | rests {now : Nat} {r : Run} (since : begun ≤ now)
      (ended : ((start course kinds).advance begun now).hasEnded = true)
      (phase : r.phase = ((start course kinds).advance begun now).phase)
      (trace : r.trace = ((start course kinds).advance begun now).trace) :
      Timed course kinds begun now r

section

variable {course : Course} {kinds : List String} {begun now later : Nat}

theorem Timed.advance (timed : Timed course kinds begun now r) (onward : now ≤ later) :
    Timed course kinds begun later (r.advance now later) := by
  cases timed with
  | waits => exact .goes onward
  | goes since =>
    rw [advance_advance onward]
    exact .goes (Nat.le_trans since onward)
  | rests since ended phase trace =>
    obtain ⟨cancelled, done⟩ := hasEnded_iff.1 ended
    have still := advance_advance onward begun (start course kinds)
    rw [advance_of_ended done] at still
    rw [advance_of_ended (phase.trans done)]
    exact .rests (Nat.le_trans since onward) (still ▸ ended) (still ▸ phase) (still ▸ trace)

theorem Timed.cancel (timed : Timed course kinds begun now r) (ended : r.hasEnded = true) :
    Timed course kinds begun now r.cancel := by
  cases timed with
  | waits => cases ended
  | goes since => exact .rests since ended rfl rfl
  | rests since ended' phase trace => exact .rests since ended' phase trace

theorem hasEnded_congr {r r' : Run} (same : r.phase = r'.phase) : r.hasEnded = r'.hasEnded := by
  rw [hasEnded, hasEnded, same]

theorem Timed.cases (timed : Timed course kinds begun now r) :
    r.phase = .ready ∧ now = begun ∧ r.trace = [] ∨
      r.phase ≠ .ready ∧ ∃ elapsed, now = begun + elapsed ∧ r.Punctual course kinds elapsed := by
  have punctual {elapsed : Nat} {r : Run}
      (phase : r.phase = ((start course kinds).advance begun (begun + elapsed)).phase)
      (trace : r.trace = ((start course kinds).advance begun (begun + elapsed)).trace) :
      r.Punctual course kinds elapsed := by
    rw [trace_start] at trace
    exact ⟨trace, fun i kind found => trace ▸ applied_mem_due_iff found,
      fun i kind found raised => trace ▸ lowered_mem_due_iff found raised,
      hasEnded_congr phase ▸ ended_start course kinds begun elapsed⟩
  cases timed with
  | waits => exact .inl ⟨rfl, rfl, rfl⟩
  | goes since =>
    obtain ⟨elapsed, rfl⟩ := Nat.exists_eq_add_of_le since
    exact .inr ⟨phase_advance _ _ _, elapsed, rfl, punctual rfl rfl⟩
  | rests since ended phase trace =>
    obtain ⟨elapsed, rfl⟩ := Nat.exists_eq_add_of_le since
    refine .inr ⟨?_, elapsed, rfl, punctual phase trace⟩
    rw [phase]
    exact phase_advance _ _ _

end

end Run

namespace Session

variable {s s' : Session} {place elapsed : Nat} {kinds : List String} {r : Run}

theorem timed_after (started : s.start kinds = .ok s') {calls : List Call}
    (spares : Spares s' s.runs.length calls) :
    ∃ r, (s'.after calls).runs[s.runs.length]? = some r ∧
      r.Timed s.course kinds s.now (s'.after calls).now := by
  obtain ⟨place, launched, ok, rfl⟩ := start_eq_ok_iff.1 started
  obtain ⟨-, rfl, rfl⟩ := launch_eq_ok_iff.1 ok
  exact found_after_spared (motive := Run.Timed s.course kinds s.now) spares
    (fun _ _ _ onward timed => timed.advance onward) (fun _ _ ended timed => timed.cancel ended)
    List.getElem?_concat_length .waits

theorem frame_of_punctual (found : s.runs[place]? = some r)
    (punctual : r.Punctual s.course kinds elapsed) (observed : s.observed = some place) :
    s.frame = ((s.course.timetable kinds).due elapsed).getLast? := by
  have first : (s.course.timetable kinds).due elapsed ≠ [] := by
    simp [Course.timetable, Timetable.due]
  rw [frame, observed, Option.bind_some, found, Option.map_some, Run.shown, punctual.trace,
    List.getLast?_eq_some_getLast first, Option.getD_some]

theorem Truthful.busy_iff_newest (truthful : Truthful s) (found : s.runs[place]? = some r)
    (newest : s.runs.length = place + 1) : s.busy = true ↔ r.hasEnded = false := by
  rw [truthful.busy_iff]
  constructor
  · rintro ⟨place', active⟩
    have here := truthful.newest place' active
    obtain rfl : place' = place := by omega
    obtain ⟨r', found', going⟩ := active
    cases found.symm.trans found'
    exact going
  · exact fun going => ⟨place, r, found, going⟩

theorem run_takes (truthful : Truthful s) (nonempty : kinds ≠ []) (idle : s.busy = false) :
    ∃ o s', s.run kinds = .ok (some o, s') ∧
      s'.now = s.now + (s.course.startDelay + kinds.length * s.course.stepDelay) ∧
      s'.busy = false := by
  obtain ⟨launched, ok, -, found⟩ := launch_of_idle nonempty idle
  obtain ⟨r, s', awaited, -⟩ := await_eq found
  obtain ⟨truthful', newest⟩ := truthful.launch ok
  have free := truthful'.idle_await newest
  have now : s'.now = max launched.now ((Run.start s.course kinds).endTime launched.now) := by
    have waited : (launched.await s.runs.length).2.now = s'.now := by rw [awaited]
    rw [← waited]
    simp only [await, found, advanceTo]
  obtain ⟨-, -, rfl⟩ := launch_eq_ok_iff.1 ok
  rw [awaited] at free
  refine ⟨r.outcome, s', run_eq_ok_iff.2 ⟨_, _, ok, awaited⟩, now.trans ?_, free⟩
  rw [← Nat.add_assoc]
  exact Nat.max_eq_right (Nat.le_trans (Nat.le_add_right _ _) (Nat.le_add_right _ _))

end Session

open Session in
/-- A run that nobody stops shows each block one step's time after the one before it, the first of
them when the lead-in is over, and puts a flip down when it has been shown for its time or for the
step; it ends one step's time after its last block. All of this is counted from when the run begins,
and none of it depends on how time is let pass. -/
theorem steps_on_time {course : Course} {opened : Session} (valid : open? course = .ok opened)
    (calls : List Call) {kinds : List String} (nonempty : kinds ≠ [])
    (idle : (opened.after calls).busy = false) :
    let s := opened.after calls
    let place := s.runs.length
    let total := course.startDelay + kinds.length * course.stepDelay
    (course.timetable kinds).map Prod.snd = course.grid.frames kinds ∧
      (∃ s', s.start kinds = .ok s' ∧ ∀ later, s'.Spares place later →
        let s'' := s'.after later
        ∃ r, s''.runs[place]? = some r ∧
          (r.phase = .ready → s''.now = s.now ∧ r.trace = []) ∧
          (r.phase ≠ .ready → ∃ elapsed, s''.now = s.now + elapsed ∧
            r.Punctual course kinds elapsed ∧
            (s''.observed = some place →
              s''.frame = ((course.timetable kinds).due elapsed).getLast?) ∧
            (s''.runs.length = place + 1 → (s''.busy = true ↔ elapsed < total))) ∧
          ∀ ms, ∃ r', (s''.advance ms).runs[place]? = some r' ∧ r'.phase ≠ .ready) ∧
      (∃ o s', s.run kinds = .ok (some o, s') ∧ s'.now = s.now + total ∧ s'.busy = false) ∧
      ∀ (any : Session) (a b : Nat), (any.advance a).advance b = any.advance (a + b) := by
  intro s place total
  have here : s.course = course := course_of_open valid calls
  obtain ⟨truthful₀, holds₀⟩ := truthful_open valid
  obtain ⟨truthful, holds⟩ := truthful_after truthful₀ holds₀ calls
  refine ⟨course.map_timetable kinds, ?_, ?_, ?_⟩
  · obtain ⟨launched, ok, -, -⟩ := launch_of_idle nonempty idle
    have started : s.start kinds = .ok _ := start_eq_ok_iff.2 ⟨_, launched, ok, rfl⟩
    obtain ⟨truthful', holds'⟩ := truthful_handle truthful holds (.start kinds)
    rw [handle_start_of_ok started] at truthful' holds'
    refine ⟨_, started, fun later spares => ?_⟩
    obtain ⟨r, found, timed⟩ := timed_after started spares
    have still := (onward_after s (.start kinds :: later)).course
    rw [after_cons, handle_start_of_ok started, here] at still
    rw [here] at timed
    refine ⟨r, found, fun ready => ?_, fun begun => ?_, fun ms =>
      ⟨_, found_advanceTo _ found, Run.phase_advance _ _ _⟩⟩
    · rcases timed.cases with ⟨-, now, trace⟩ | ⟨begun, -⟩
      · exact ⟨now, trace⟩
      · exact absurd ready begun
    · rcases timed.cases with ⟨ready, -⟩ | ⟨-, elapsed, now, punctual⟩
      · exact absurd ready begun
      · refine ⟨elapsed, now, punctual, ?_, fun newest => ?_⟩
        · rw [← still] at punctual ⊢
          exact frame_of_punctual found punctual
        · have told := (truthful_after truthful' holds' later).1.busy_iff_newest found newest
          rw [told, Bool.eq_false_iff, ne_eq, punctual.ended, Nat.not_le]
  · have takes := run_takes truthful nonempty idle
    rwa [here] at takes
  · exact advance_add

theorem steps_briskFlight :
    Session.open? brisk.course = .ok brisk ∧ ["rotate", "land"] ≠ [] ∧
      (brisk.after []).busy = false ∧
      (brisk.after []).start ["rotate", "land"] = .ok briskFlight ∧
      briskFlight.Spares 0 [.advance 1, .detach, .advance 1] ∧
      (∃ r, (briskFlight.after [.advance 1, .detach, .advance 1]).runs[0]? = some r ∧
        r.Punctual brisk.course ["rotate", "land"] 2 ∧
        r.trace = brisk.course.grid.frames ["rotate", "land"] ∧ r.hasEnded = false) ∧
      (∃ o s', brisk.run ["rotate", "land"] = .ok (some o, s') ∧ s'.now = 4 ∧ s'.busy = false) ∧
      (briskFlight.advance 1).advance 1 = briskFlight.advance 2 := by
  have valid : Session.open? brisk.course = .ok brisk := rfl
  have nonempty : ["rotate", "land"] ≠ [] := by decide
  have idle : (brisk.after []).busy = false := rfl
  have spares : briskFlight.Spares 0 [.advance 1, .detach, .advance 1] :=
    Session.spares_of_no_cancel (by decide)
  obtain ⟨-, ⟨s', started, moments⟩, takes, cut⟩ := steps_on_time valid [] nonempty idle
  obtain rfl : briskFlight = s' := Except.ok.inj started
  obtain ⟨r, found, -, begun, -⟩ := moments _ spares
  cases found
  obtain ⟨elapsed, now, punctual, -⟩ := begun (by decide)
  obtain rfl : 2 = elapsed := now.trans (Nat.zero_add elapsed)
  exact ⟨valid, nonempty, idle, started, spares, ⟨_, rfl, punctual, rfl, rfl⟩, takes,
    cut briskFlight 1 1⟩

end FlightBlocks
