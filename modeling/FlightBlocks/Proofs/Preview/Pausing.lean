import FlightBlocks.Preview.Pause
import FlightBlocks.Proofs.Preview.Calls
/-!
What a pause comes to. However often a run is woken in a pause, and whatever it takes up first, the
pause ends with a stop if the run was asked to, and else when its time has come. So the one test of
a run that goes on after a pause is the pause, with or without a handle; and what the user of a
simulator does to the channel of a run is to ask, or to drop the handle.
-/

namespace FlightBlocks

namespace Pause

variable {time now deadline : Nat} {p : Pause} {c : Channel} {first second : Bool}
  {ts : List (Bool × Nat)}

/-- A run waits until `time`. What it was asked in the pause it has not looked at, and without a
handle it was not asked at all. -/
inductive Waits (time : Nat) : Pause → Channel → Prop
  | listens {c : Channel} (unseen : c.unseen = c.asked) : Waits time (listening time) c
  | sleeps {c : Channel} (free : c.asked = false) (gone : c.held = false) :
      Waits time (sleeping time) c

def outcome? (asked : Bool) (time deadline : Nat) : Option Bool :=
  if asked then some true else if time ≤ deadline then some false else none

theorem Waits.ask (waits : Waits time p c) : Waits time p c.ask := by
  unfold Channel.ask
  cases waits with
  | listens unseen =>
    split
    · exact .listens rfl
    · exact .listens unseen
  | sleeps free gone =>
    rw [if_neg (by simp [gone])]
    exact .sleeps free gone

theorem Waits.drop (waits : Waits time p c) : Waits time p c.drop := by
  cases waits with
  | listens unseen => exact .listens unseen
  | sleeps free _ => exact .sleeps free rfl

theorem turn_of_asked (first : Bool) (now : Nat) (waits : Waits time p c)
    (asked : c.asked = true) :
    (turn first now p c).1 = past true := by
  cases waits with
  | listens unseen =>
    rw [turn, unseen, asked]
    split
    · rfl
    · rfl
  | sleeps free => cases free.symm.trans asked

theorem turn_of_free (first : Bool) (now : Nat) (waits : Waits time p c)
    (free : c.asked = false) :
    ∃ p', turn first now p c = (p', c) ∧ (p' = past false ∧ time ≤ now ∨ Waits time p' c) := by
  cases waits with
  | listens unseen =>
    rw [turn, unseen, free]
    split
    next ends => exact ⟨_, rfl, .inl ⟨rfl, ends.1⟩⟩
    next =>
      rw [if_neg Bool.false_ne_true]
      split
      next => exact ⟨_, rfl, .inr (.listens unseen)⟩
      next gone => exact ⟨_, rfl, .inr (.sleeps free (Bool.eq_false_iff.2 gone))⟩
  | sleeps _ gone =>
    rw [turn]
    split
    next due => exact ⟨_, rfl, .inl ⟨rfl, due⟩⟩
    next => exact ⟨_, rfl, .inr (.sleeps free gone)⟩

/-- When the time has come, one turn may go to find that the handle is gone, but no second. -/
theorem turns_of_due (first second : Bool) (waits : Waits time p c) (free : c.asked = false)
    (due : time ≤ now) :
    (turns [(first, now), (second, now)] (p, c)).1 = past false := by
  have sleeps (second : Bool) : (turn second now (sleeping time) c).1 = past false := by
    simp only [turn, if_pos due]
  change (turn second now (turn first now p c).1 (turn first now p c).2).1 = past false
  cases waits with
  | sleeps => simp only [turn, if_pos due]
  | listens unseen =>
    rw [free] at unseen
    by_cases passes : first = true ∨ c.stirs = false
    · simp only [turn, if_pos (And.intro due passes), free]
    · have gone : c.held = false := by
        obtain ⟨-, stirs⟩ := not_or.1 passes
        simpa [Channel.stirs, unseen] using stirs
      have turned : turn first now (listening time) c = (sleeping time, c) := by
        simp [turn, passes, unseen, gone]
      rw [turned]
      exact sleeps second

theorem turns_append (ts us : List (Bool × Nat)) (s : Pause × Channel) :
    turns (ts ++ us) s = turns us (turns ts s) := List.foldl_append

theorem turns_past (ts : List (Bool × Nat)) (stopped : Bool) (c : Channel) :
    turns ts (past stopped, c) = (past stopped, c) := by
  induction ts with
  | nil => rfl
  | cons t ts ih => exact ih

theorem turns_of_free (waits : Waits time p c) (free : c.asked = false)
    (within : ∀ t ∈ ts, t.2 ≤ deadline) :
    turns ts (p, c) = (past false, c) ∧ time ≤ deadline ∨
      ∃ p', turns ts (p, c) = (p', c) ∧ Waits time p' c := by
  induction ts generalizing p with
  | nil => exact .inr ⟨p, rfl, waits⟩
  | cons t ts ih =>
    have here := within t List.mem_cons_self
    have later := fun t' member => within t' (List.mem_cons_of_mem _ member)
    obtain ⟨p', turned, next⟩ := turn_of_free t.1 t.2 waits free
    change turns ts (turn t.1 t.2 p c) = _ ∧ _ ∨ ∃ p', turns ts (turn t.1 t.2 p c) = _ ∧ _
    rw [turned]
    rcases next with ⟨rfl, due⟩ | waits'
    · exact .inl ⟨turns_past ts false c, Nat.le_trans due here⟩
    · exact ih waits' later

def span (deadline : Nat) (ts : List (Bool × Nat)) (first second : Bool) : List (Bool × Nat) :=
  ts ++ [(first, deadline), (second, deadline)]

theorem le_of_mem_span (within : ∀ t ∈ ts, t.2 ≤ deadline) :
    ∀ t ∈ span deadline ts first second, t.2 ≤ deadline := by
  intro t member
  rcases List.mem_append.1 member with before | last
  · exact within t before
  · simp only [List.mem_cons, List.not_mem_nil, or_false] at last
    rcases last with rfl | rfl
    · exact Nat.le_refl _
    · exact Nat.le_refl _

theorem turns_of_asked (waits : Waits time p c) (asked : c.asked = true) (wakes : ts ≠ []) :
    (turns ts (p, c)).1 = past true := by
  obtain ⟨t, ts, rfl⟩ := List.exists_cons_of_ne_nil wakes
  change (turns ts (turn t.1 t.2 p c)).1 = _
  rw [← Prod.eta (turn t.1 t.2 p c), turn_of_asked t.1 t.2 waits asked, turns_past]

/-- What a pause comes to does not depend on the turns. One that has not ended waits as before. -/
theorem turns_comes_to (waits : Waits time p c) (within : ∀ t ∈ ts, t.2 ≤ deadline) :
    (turns (span deadline ts first second) (p, c)).1.stopped? = outcome? c.asked time deadline ∧
      (outcome? c.asked time deadline = none →
        Waits time (turns (span deadline ts first second) (p, c)).1 c) := by
  cases asked : c.asked with
  | true =>
    rw [turns_of_asked waits asked (by simp [span])]
    exact ⟨rfl, nofun⟩
  | false =>
    by_cases due : time ≤ deadline
    · -- The turns before the last two may end the pause, and these two do.
      have ended : (turns (span deadline ts first second) (p, c)).1 = past false := by
        rw [span, turns_append]
        rcases turns_of_free waits asked within with ⟨passed, -⟩ | ⟨p', kept, waits'⟩
        · rw [passed, turns_past]
        · rw [kept, turns_of_due first second waits' asked due]
      simp [ended, stopped?, outcome?, due]
    · rcases turns_of_free waits asked (le_of_mem_span within) with ⟨-, late⟩ | ⟨p', kept, waits'⟩
      · exact absurd late due
      · rw [kept]
        cases waits' with
        | listens unseen => simp [stopped?, outcome?, due, Waits.listens unseen]
        | sleeps free gone => simp [stopped?, outcome?, due, Waits.sleeps free gone]

theorem enter_comes_to (duration : Nat) (onward : now ≤ deadline)
    (within : ∀ t ∈ ts, t.2 ≤ deadline) :
    (turns (span deadline ts first second) (enter now duration c)).1.stopped? =
      outcome? c.asked (now + duration) deadline := by
  unfold enter
  cases asked : c.asked with
  | true =>
    rw [if_pos rfl, turns_past]
    rfl
  | false =>
    rw [if_neg (by simp)]
    by_cases none : duration = 0
    · rw [if_pos none, turns_past]
      simp [stopped?, outcome?, none, onward]
    · rw [if_neg none]
      have waits : Waits (now + duration) (listening (now + duration)) c.look :=
        .listens asked.symm
      rw [(turns_comes_to waits within).1]
      exact congrArg (outcome? · (now + duration) deadline) asked

end Pause

namespace Run

open Pause

variable {now time deadline : Nat} {r : Run} {c : Channel} {ts : List (Bool × Nat)}
  {first second : Bool}

/-- The run when its pause until `time` has come to this. -/
def afterPause (deadline time : Nat) (r : Run) : Option Bool → Run
  | none => r.pausing time
  | some true => r.finish true
  | some false => advanceFrom deadline r.ahead time r

theorem afterPause_outcome? (deadline time : Nat) (r : Run) :
    r.afterPause deadline time (outcome? r.cancelAsked time deadline) =
      if r.cancelAsked then r.finish true else waitUntil deadline time r := by
  cases asked : r.cancelAsked with
  | true => rfl
  | false =>
    rcases Nat.lt_or_ge deadline time with late | due
    · simp [outcome?, Nat.not_le.2 late, afterPause, waitUntil_of_late late]
    · simp [outcome?, due, afterPause, waitUntil, Nat.not_lt.2 due]

section

variable (same : c.asked = r.cancelAsked) (within : ∀ t ∈ ts, t.2 ≤ deadline)

include same within

theorem advance_through_pause {p : Pause} (paused : r.phase = .paused time)
    (waits : Waits time p c) :
    r.advance now deadline =
      r.afterPause deadline time (turns (span deadline ts first second) (p, c)).1.stopped? := by
  rw [(turns_comes_to waits within).1, same, afterPause_outcome?, advance_of_paused paused]

theorem advance_through_lead (ready : r.phase = .ready) (onward : now ≤ deadline) :
    r.advance now deadline =
      r.publish.afterPause deadline (now + r.course.startDelay)
        (turns (span deadline ts first second) (enter now r.course.startDelay c)).1.stopped? := by
  rw [enter_comes_to _ onward within, same, advance_of_ready ready]
  exact (afterPause_outcome? _ _ r.publish).symm

theorem advance_through_rest (shows : r.phase = .flipping time) (due : time ≤ deadline) :
    r.advance now deadline =
      r.endFlip.afterPause deadline (time + (r.course.stepDelay - r.course.flipShown))
        (turns (span deadline ts first second)
          (enter time (r.course.stepDelay - r.course.flipShown) c)).1.stopped? := by
  rw [enter_comes_to _ due within, same, advance_of_flipping shows due]
  exact (afterPause_outcome? _ _ r.endFlip).symm

theorem waitUntil_through_pause (duration : Nat) (free : r.cancelAsked = false)
    (onward : now ≤ deadline) :
    waitUntil deadline (now + duration) r =
      r.afterPause deadline (now + duration)
        (turns (span deadline ts first second) (enter now duration c)).1.stopped? := by
  rw [enter_comes_to _ onward within, same, afterPause_outcome?, free]
  rfl

end

end Run

namespace Session

variable {s s' : Session} {place : Nat} {r : Run}

def channel (s : Session) (place : Nat) (r : Run) : Channel :=
  ⟨r.cancelAsked, r.cancelAsked, s.held = some place⟩

theorem channel_of_asked (held : s.held = some place) (same : s'.held = s.held) :
    s'.channel place r.cancel = (s.channel place r).ask := by
  simp [channel, Channel.ask, same, held, Run.cancel]

theorem channel_handle (call : Call) (found : s.runs[place]? = some r) :
    ∃ r', (s.handle call).runs[place]? = some r' ∧
      ((s.handle call).channel place r' = s.channel place r ∨
        (s.handle call).channel place r' = (s.channel place r).ask ∨
        (s.handle call).channel place r' = (s.channel place r).drop) := by
  obtain ⟨r', found', touches⟩ := touches_handle call found
  refine ⟨r', found', ?_⟩
  have old : place < s.runs.length := (List.getElem?_eq_some_iff.1 found).1
  have passive (same : r'.cancelAsked = r.cancelAsked) :
      (s.handle call).channel place r' = s.channel place r ∨
        (s.handle call).channel place r' = (s.channel place r).drop := by
    by_cases held : (s.handle call).held = some place
    · have before := held_handle call held old
      exact .inl (by simp [channel, same, held, before])
    · exact .inr (by simp [channel, Channel.drop, same, held])
  cases touches with
  | leaves =>
    rcases passive rfl with kept | dropped
    · exact .inl kept
    · exact .inr (.inr dropped)
  | lets =>
    rcases passive (Run.cancelAsked_advance s.now r) with kept | dropped
    · exact .inl kept
    · exact .inr (.inr dropped)
  | asks cancels held =>
    subst cancels
    exact .inr (.inl (channel_of_asked held (held_cancel s)))

theorem waits_handle {time : Nat} {p : Pause} (call : Call) (found : s.runs[place]? = some r)
    (waits : Pause.Waits time p (s.channel place r)) :
    ∃ r', (s.handle call).runs[place]? = some r' ∧
      Pause.Waits time p ((s.handle call).channel place r') := by
  obtain ⟨r', found', kept | asked | dropped⟩ := channel_handle call found
  · exact ⟨r', found', kept ▸ waits⟩
  · exact ⟨r', found', asked ▸ waits.ask⟩
  · exact ⟨r', found', dropped ▸ waits.drop⟩

end Session

end FlightBlocks
