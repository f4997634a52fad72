import FlightBlocks.CommandLine.Run
import FlightBlocks.Preview.Live
import FlightBlocks.Proofs.Preview.Seen
/-!
What one sees of a run who looks whenever it waits, block by block: the frames that a pause follows.
The live drawing of a run shows these, and the drawing of its trace shows all.
-/

namespace FlightBlocks

namespace Run

def glance (before after : Run) : List Frame :=
  if after.trace.length > before.trace.length then [after.shown] else []

def seenAt (n time : Nat) (r : Run) : List Frame :=
  glance r (waitUntil time time r) ++ watch n time (waitUntil time time r)

theorem glance_of_longer {before after : Run} (longer : before.trace.length < after.trace.length) :
    glance before after = [after.shown] := if_pos longer

theorem glance_of_same {before after : Run} (same : after.trace = before.trace) :
    glance before after = [] := by
  rw [glance, same]
  exact if_neg (Nat.lt_irrefl _)

section Frame

variable (r : Run) (kind : String) (kinds : List String)

theorem shown_publish : r.publish.shown = ⟨r.step, r.action, r.drone⟩ := by
  simp [shown, publish]

theorem length_publish : r.publish.trace.length = r.trace.length + 1 := by
  simp [publish]

theorem shown_applied :
    (r.applied kind kinds).shown = ⟨r.step + 1, some kind, r.course.grid.shown r.drone kind⟩ :=
  shown_publish _

theorem shown_endFlip : r.endFlip.shown = ⟨r.step, r.action, r.drone.settled⟩ := shown_publish _

theorem length_applied : (r.applied kind kinds).trace.length = r.trace.length + 1 :=
  length_publish _

theorem length_endFlip : r.endFlip.trace.length = r.trace.length + 1 := length_publish _

end Frame

section Watch

variable {n now time : Nat} {r : Run}

theorem watch_of_wake (wakes : r.wake? now = some time) :
    watch (n + 1) now r = glance r (r.advance now time) ++ watch n time (r.advance now time) := by
  simp only [watch, wakes, glance]

theorem watch_of_finish (cancelled : Bool) : watch n now (r.finish cancelled) = [] := by
  cases n with
  | zero => rfl
  | succ n => rfl

theorem watch_of_pausing (free : r.cancelAsked = false) :
    watch (n + 1) now (r.pausing time) = seenAt n time (r.pausing time) := by
  have onward : (r.pausing time).advance now time = waitUntil time time (r.pausing time) := by
    rw [advance_of_paused rfl]
    exact if_neg (by simpa [pausing] using free)
  rw [watch_of_wake rfl, onward, seenAt]

/-- The look at the end of a flip falls together with the look at the next block, if nothing is left
of the step. -/
theorem watch_of_showing (free : r.cancelAsked = false) :
    watch (n + 1) now (r.showing time) =
      let next := waitUntil time (time + (r.course.stepDelay - r.course.flipShown))
        (r.showing time).endFlip
      glance (r.showing time) next ++ watch n time next := by
  have onward : (r.showing time).advance now time =
      waitUntil time (time + (r.course.stepDelay - r.course.flipShown))
        (r.showing time).endFlip := by
    rw [advance_of_flipping rfl (Nat.le_refl time)]
    exact if_neg (by simpa [showing] using free)
  rw [watch_of_wake rfl, onward]

theorem trace_grows {kind : String} {kinds : List String} (ahead : r.ahead = kind :: kinds)
    (free : r.cancelAsked = false) :
    r.trace.length < (waitUntil time time r).trace.length := by
  have due : time ≤ time := Nat.le_refl time
  obtain ⟨mid, grown, onward⟩ : ∃ mid, r.trace.length < mid.trace.length ∧
      Reaches mid (waitUntil time time r) := by
    have one := length_applied r kind kinds
    cases raised : (r.applied kind kinds).drone.flipping with
    | false =>
      rw [waitUntil_of_level due ahead raised]
      exact ⟨(r.applied kind kinds).pausing _, by simp only [pausing]; omega,
        reaches_waitUntil free⟩
    | true =>
      rcases Nat.lt_or_ge time (time + r.course.flipShown) with late | elapsed
      · rw [waitUntil_of_shown due ahead raised late]
        exact ⟨_, by simp only [showing]; omega, .refl⟩
      · have two := length_endFlip (r.applied kind kinds)
        rw [waitUntil_of_lowered due ahead raised elapsed]
        exact ⟨(r.applied kind kinds).endFlip.pausing _, by simp only [pausing]; omega,
          reaches_waitUntil free⟩
  exact Nat.lt_of_lt_of_le grown (trace_stays onward).length_le

theorem seenAt_of_done (done : r.ahead = []) : seenAt n time r = [] := by
  rw [seenAt, waitUntil_of_done (Nat.le_refl time) done, watch_of_finish, List.append_nil]
  exact glance_of_same rfl

theorem seenAt_of_pause {mid : Run} {next : Nat} (pauses : waitUntil time time r = mid.pausing next)
    (free : mid.cancelAsked = false) (longer : r.trace.length < mid.trace.length) :
    seenAt (n + 1) time r = mid.shown :: seenAt n next (mid.pausing next) := by
  rw [seenAt, pauses, watch_of_pausing free]
  exact congrArg (· ++ _) (glance_of_longer longer)

section Block

variable {kind : String} {kinds : List String} (ahead : r.ahead = kind :: kinds)

include ahead

theorem seenAt_of_showing (raised : (r.applied kind kinds).drone.flipping = true)
    (long : 0 < r.course.flipShown) :
    seenAt (n + 1) time r =
      (r.applied kind kinds).shown :: watch (n + 1) time
        ((r.applied kind kinds).showing (time + r.course.flipShown)) := by
  have late : time < time + r.course.flipShown := Nat.lt_add_of_pos_right long
  have one := length_applied r kind kinds
  rw [seenAt, waitUntil_of_shown (Nat.le_refl time) ahead raised late]
  exact congrArg (· ++ _) (glance_of_longer (by simp only [showing]; omega))

variable (free : r.cancelAsked = false) (paced : 0 < r.course.stepDelay)

include free paced

theorem seenAt_of_level (level : (r.applied kind kinds).drone.flipping = false) :
    seenAt (n + 1) time r =
      (r.applied kind kinds).shown :: seenAt n (time + r.course.stepDelay)
        ((r.applied kind kinds).pausing (time + r.course.stepDelay)) := by
  have late : time < time + r.course.stepDelay := Nat.lt_add_of_pos_right paced
  have one := length_applied r kind kinds
  refine seenAt_of_pause ?_ free (by omega)
  rw [waitUntil_of_level (Nat.le_refl time) ahead level, waitUntil_of_late late]

theorem seenAt_of_unshown (raised : (r.applied kind kinds).drone.flipping = true)
    (short : r.course.flipShown = 0) :
    seenAt (n + 1) time r =
      (r.applied kind kinds).endFlip.shown :: seenAt n (time + r.course.stepDelay)
        ((r.applied kind kinds).endFlip.pausing (time + r.course.stepDelay)) := by
  have late : time < time + r.course.stepDelay := Nat.lt_add_of_pos_right paced
  have one := length_applied r kind kinds
  have two := length_endFlip (r.applied kind kinds)
  refine seenAt_of_pause ?_ free (by omega)
  rw [waitUntil_of_lowered (Nat.le_refl time) ahead raised (by omega), waitUntil_of_late late]

end Block

section Lowered

variable (free : r.cancelAsked = false)

include free

theorem watch_of_partial (within : r.course.flipShown < r.course.stepDelay) :
    let next := time + (r.course.stepDelay - r.course.flipShown)
    watch (n + 2) now (r.showing time) =
      (r.showing time).endFlip.shown :: seenAt n next ((r.showing time).endFlip.pausing next) := by
  have late : time < time + (r.course.stepDelay - r.course.flipShown) := by omega
  have one := length_endFlip (r.showing time)
  have free' : (r.showing time).endFlip.cancelAsked = false := free
  simp only [watch_of_showing free, waitUntil_of_late late, watch_of_pausing free']
  exact congrArg (· ++ _) (glance_of_longer (by simp only [pausing]; omega))

theorem watch_of_whole (whole : r.course.flipShown = r.course.stepDelay) :
    watch (n + 1) now (r.showing time) =
      if r.ahead = [] then [(r.showing time).endFlip.shown]
      else seenAt n time (r.showing time).endFlip := by
  have one := length_endFlip (r.showing time)
  simp only [watch_of_showing free, whole, Nat.sub_self, Nat.add_zero]
  cases ahead : r.ahead with
  | nil =>
    have last : (r.showing time).endFlip.ahead = [] := ahead
    simp only [waitUntil_of_done (Nat.le_refl time) last, watch_of_finish, ↓reduceIte,
      List.append_nil]
    exact glance_of_longer (by simp only [finish]; omega)
  | cons kind kinds =>
    have grows : (r.showing time).endFlip.trace.length <
        (waitUntil time time (r.showing time).endFlip).trace.length :=
      trace_grows (r := (r.showing time).endFlip) ahead free
    rw [if_neg nofun, seenAt, glance_of_longer grows, glance_of_longer (by omega)]

end Lowered

end Watch

structure Passes (r : Run) (kind : String) (kinds : List String) (mid : Run) : Prop where
  ahead : mid.ahead = kinds
  free : mid.cancelAsked = false
  course : mid.course = r.course
  step : mid.step = r.step + 1
  drone : mid.drone = (r.course.grid.shown r.drone kind).settled

section Block

variable {r : Run} {kind : String} {kinds : List String} (ahead : r.ahead = kind :: kinds)
  (free : r.cancelAsked = false) (paced : 0 < r.course.stepDelay)

include ahead free paced

theorem seenAt_flip (n time : Nat) (flips : (r.course.grid.shown r.drone kind).flipping = true) :
    ∃ mid k next, n ≤ k ∧ Passes r kind kinds mid ∧
      seenAt (n + 2) time r =
        r.course.blockSeen (r.step + 1) r.drone kind kinds.isEmpty ++ seenAt k next mid := by
  have raised : (r.applied kind kinds).drone.flipping = true := flips
  have short : r.course.flipShown ≤ r.course.stepDelay := Nat.min_le_right _ _
  rw [Course.blockSeen_of_flipping flips]
  -- shown for no time, for a part of the step, or for all of it
  rcases Nat.eq_zero_or_pos r.course.flipShown with unshown | long
  · refine ⟨(r.applied kind kinds).endFlip.pausing (time + r.course.stepDelay), n + 1,
      time + r.course.stepDelay, Nat.le_succ n, ⟨rfl, free, rfl, rfl, rfl⟩, ?_⟩
    rw [seenAt_of_unshown ahead free paced raised unshown, shown_endFlip]
    simp only [unshown, Nat.lt_irrefl, ↓reduceIte, paced, true_or]
    rfl
  · rw [seenAt_of_showing ahead raised long, shown_applied]
    simp only [long, ↓reduceIte]
    rcases Nat.lt_or_ge r.course.flipShown r.course.stepDelay with within | whole
    · refine ⟨((r.applied kind kinds).showing (time + r.course.flipShown)).endFlip.pausing
        (time + r.course.flipShown + (r.course.stepDelay - r.course.flipShown)), n,
        time + r.course.flipShown + (r.course.stepDelay - r.course.flipShown), Nat.le_refl n,
        ⟨rfl, free, rfl, rfl, rfl⟩, ?_⟩
      rw [watch_of_partial (r := r.applied kind kinds) free within, shown_endFlip]
      simp only [within, true_or, ↓reduceIte]
      rfl
    · have whole' : r.course.flipShown = r.course.stepDelay := Nat.le_antisymm short whole
      refine ⟨((r.applied kind kinds).showing (time + r.course.flipShown)).endFlip, n + 1,
        time + r.course.flipShown, Nat.le_succ n, ⟨rfl, free, rfl, rfl, rfl⟩, ?_⟩
      rw [watch_of_whole (r := r.applied kind kinds) free whole']
      simp only [whole', Nat.lt_irrefl, false_or]
      cases kinds with
      | nil =>
        rw [seenAt_of_done rfl]
        exact congrArg (_ :: · :: []) (shown_endFlip _)
      | cons next rest => rfl

theorem seenAt_block (n time : Nat) :
    ∃ mid k next, n ≤ k ∧ Passes r kind kinds mid ∧
      seenAt (n + 2) time r =
        r.course.blockSeen (r.step + 1) r.drone kind kinds.isEmpty ++ seenAt k next mid := by
  cases shown : (r.course.grid.shown r.drone kind).flipping with
  | true => exact seenAt_flip ahead free paced n time shown
  | false =>
    have level : (r.applied kind kinds).drone.flipping = false := shown
    refine ⟨(r.applied kind kinds).pausing (time + r.course.stepDelay), n + 1,
      time + r.course.stepDelay, Nat.le_succ n,
      ⟨rfl, free, rfl, rfl, (Drone.settled_of_not_flipping shown).symm⟩, ?_⟩
    rw [seenAt_of_level ahead free paced level, Course.blockSeen_of_level shown,
      Grid.blockFrames_of_level _ shown, shown_applied]
    rfl

end Block

theorem seenAt_eq (kinds : List String) {n time : Nat} {r : Run} (ahead : r.ahead = kinds)
    (free : r.cancelAsked = false) (paced : 0 < r.course.stepDelay)
    (enough : 2 * kinds.length ≤ n) :
    seenAt n time r = r.course.seenFrom r.step r.drone kinds := by
  induction kinds generalizing n time r with
  | nil => exact seenAt_of_done ahead
  | cons kind kinds ih =>
    have double : 2 * (kind :: kinds).length = 2 * kinds.length + 2 := rfl
    -- a block takes two looks at most
    obtain ⟨m, rfl⟩ : ∃ m, n = m + 2 := ⟨n - 2, by omega⟩
    obtain ⟨mid, k, next, more, passes, seen⟩ := seenAt_block ahead free paced m time
    have rest : seenAt k next mid = mid.course.seenFrom mid.step mid.drone kinds :=
      ih passes.ahead passes.free (by rwa [passes.course]) (by omega)
    rw [seen, rest, passes.course, passes.step, passes.drone, Course.seenFrom]

theorem watch_start (course : Course) (kinds : List String) (paced : 0 < course.stepDelay) {n : Nat}
    (enough : 2 * kinds.length + 2 ≤ n) : watch n 0 (start course kinds) = course.seen kinds := by
  obtain ⟨m, rfl⟩ : ∃ m, n = m + 2 := ⟨n - 2, by omega⟩
  have wakes : (start course kinds).wake? 0 = some 0 := rfl
  have onward : (start course kinds).advance 0 0 =
      waitUntil 0 course.startDelay (start course kinds).publish := by
    rw [advance_of_ready rfl, Nat.zero_add]
    rfl
  have one := length_publish (start course kinds)
  rw [watch_of_wake wakes, onward, Course.seen]
  rcases Nat.eq_zero_or_pos course.startDelay with none | long
  · rw [none]
    cases kinds with
    | nil =>
      rw [waitUntil_of_done (Nat.le_refl 0) rfl, watch_of_finish,
        glance_of_longer (by simp only [finish]; omega)]
      rfl
    | cons kind kinds =>
      have grows : (start course (kind :: kinds)).publish.trace.length <
          (waitUntil 0 0 (start course (kind :: kinds)).publish).trace.length :=
        trace_grows rfl rfl
      have seen : seenAt (m + 1) 0 (start course (kind :: kinds)).publish =
          course.seenFrom 0 course.grid.start (kind :: kinds) :=
        seenAt_eq (kind :: kinds) rfl rfl paced (by omega)
      rw [seenAt, glance_of_longer grows] at seen
      rw [glance_of_longer (by omega), if_neg (by simp)]
      exact seen
  · rw [waitUntil_of_late long, watch_of_pausing (r := (start course kinds).publish) rfl,
      glance_of_longer (by simp only [pausing]; omega), if_pos (.inl long)]
    exact congrArg _ (seenAt_eq kinds rfl rfl paced (by omega))

theorem drawnFrames_eq {course : Course} (paced : 0 < course.stepDelay) (kinds : List String)
    (o : RunOutcome) : CommandLine.drawnFrames course kinds o = course.seen kinds := by
  rw [CommandLine.drawnFrames, if_pos paced]
  exact watch_start course kinds paced (Nat.le_refl _)

end Run

theorem Trace.replay_eq_iff {g : Grid} {drawn trace : Trace} (part : drawn.Sublist trace) :
    drawn.replay g = trace.replay g ↔ drawn = trace := by
  constructor
  · intro same
    have lengths := congrArg List.length same
    simp only [replay, List.length_map] at lengths
    exact part.eq_of_length lengths
  · rintro rfl
    rfl

/-- Who looks at a run whenever it waits, and goes on to look when it has ended, sees frames of its
trace in their order and each at most once. All of them are seen just when a pause lies between any
two, and only then the live drawing is the drawing of the trace. -/
theorem live_sees_all_iff_lingers {course : Course} {opened : Session}
    (valid : Session.open? course = .ok opened) (paced : 0 < course.stepDelay)
    (calls : List Session.Call) (idle : (opened.after calls).busy = false) {kinds : List String}
    (nonempty : kinds ≠ []) :
    ∃ o s, (opened.after calls).run kinds = .ok (some o, s) ∧ Run.Completes course kinds o ∧
      (∀ looks, 2 * kinds.length + 2 ≤ looks →
        Run.watch looks 0 (Run.start course kinds) = course.seen kinds) ∧
      CommandLine.drawnFrames course kinds o = course.seen kinds ∧
      (course.seen kinds).Sublist o.trace ∧
      (course.seen kinds = o.trace ↔ course.Lingers kinds) ∧
      (Trace.replay course.grid (course.seen kinds) = o.trace.replay course.grid ↔
        course.Lingers kinds) := by
  obtain ⟨o, s, ran, completes⟩ := Session.run_of_idle nonempty idle
  rw [Session.course_of_open valid] at completes
  have trace : o.trace = course.grid.frames kinds := congrArg RunOutcome.trace completes.eq
  have part := course.seen_sublist kinds
  have all := Course.seen_eq_iff nonempty paced
  rw [← trace] at part all
  exact ⟨o, s, ran, completes, fun looks => Run.watch_start course kinds paced,
    Run.drawnFrames_eq paced kinds o, part, all, (Trace.replay_eq_iff part).trans all⟩

theorem live_sees_all_at_usual_pace :
    ∃ opened, Session.open? .default = .ok opened ∧ 0 < Course.default.stepDelay ∧
      (opened.after []).busy = false ∧ ["rotate", "rotate", "land"] ≠ [] ∧
      ∃ o s, (opened.after []).run ["rotate", "rotate", "land"] = .ok (some o, s) ∧
        CommandLine.drawnFrames .default ["rotate", "rotate", "land"] o = o.trace := by
  have valid : Session.open? .default = .ok ⟨.default, 0, false, [], none, none⟩ := rfl
  have paced : 0 < Course.default.stepDelay := by decide
  have nonempty : ["rotate", "rotate", "land"] ≠ [] := by decide
  have lingers : Course.default.Lingers ["rotate", "rotate", "land"] :=
    ⟨by decide, fun _ => by decide, fun _ => by decide⟩
  obtain ⟨o, s, ran, -, -, drawn, -, all, -⟩ :=
    live_sees_all_iff_lingers valid paced [] rfl nonempty
  exact ⟨_, valid, paced, rfl, nonempty, o, s, ran, drawn.trans (all.2 lingers)⟩

/-- Steps of 300 ms at the usual pace: a flip takes as long as its step, and the frame that shows it
down is replaced before anybody looks. -/
def hurried : Course := ⟨.default, 500, 300, 500⟩

theorem hurried_misses_frame :
    ∃ opened o s, Session.open? hurried = .ok opened ∧ 0 < hurried.stepDelay ∧
      opened.run ["rotate", "land"] = .ok (some o, s) ∧
      (Run.start hurried ["rotate", "land"]).watched ≠ o.trace :=
  ⟨_, _, _, rfl, by decide, rfl, by decide⟩

end FlightBlocks
