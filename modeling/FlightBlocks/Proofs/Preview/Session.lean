import FlightBlocks.Preview.Call
import FlightBlocks.Proofs.Preview.Follow
/-!
What becomes of the runs of a simulator, whatever its user does: each run only moves on, its place
stays, and a run that is waited for has ended.
-/

namespace FlightBlocks.Session

/-- Every run of `s` stands in its place in `s'`, and is where its moves brought it. -/
structure Onward (s s' : Session) : Prop where
  course : s'.course = s.course
  moved : ∀ (place : Nat) (r : Run), s.runs[place]? = some r →
    ∃ r', s'.runs[place]? = some r' ∧ r.Reaches r'

theorem Onward.refl (s : Session) : Onward s s := ⟨rfl, fun _ r found => ⟨r, found, .refl⟩⟩

section

variable {s s' s'' : Session}

theorem Onward.trans (first : Onward s s') (second : Onward s' s'') : Onward s s'' := by
  refine ⟨second.course.trans first.course, fun place r found => ?_⟩
  obtain ⟨r', found', way⟩ := first.moved place r found
  obtain ⟨r'', found'', way'⟩ := second.moved place r' found'
  exact ⟨r'', found'', way.trans way'⟩

theorem Onward.holding (onward : Onward s s') (held observed : Option Nat) :
    Onward s { s' with held := held, observed := observed } := ⟨onward.course, onward.moved⟩

theorem onward_advanceTo (s : Session) (deadline : Nat) : Onward s (s.advanceTo deadline) := by
  refine ⟨rfl, fun place r found => ⟨r.advance s.now deadline, ?_, Run.reaches_advance s.now r⟩⟩
  simp only [advanceTo, List.getElem?_map, found, Option.map_some]

theorem onward_await (s : Session) (place : Nat) : Onward s (s.await place).2 := by
  unfold await
  split
  · exact .refl s
  · exact onward_advanceTo s _

theorem onward_cancel (s : Session) : Onward s s.cancel := by
  unfold cancel
  split
  next => exact .refl s
  next place _ =>
    refine ⟨rfl, fun place' r found => ?_⟩
    simp only [List.getElem?_modify, found, Option.map_eq_map, Option.map_some]
    split
    · exact ⟨r.cancel, rfl, .single (.asked r)⟩
    · exact ⟨r, rfl, .refl⟩

theorem finish_eq {place : Nat} (held : s.held = some place) :
    s.finish = ((s.await place).1, (s.await place).2.detach) := by
  simp only [finish, held]

theorem onward_finish (s : Session) : Onward s s.finish.2 := by
  cases held : s.held with
  | none =>
    simp only [finish, held]
    exact .refl s
  | some place =>
    rw [finish_eq held]
    exact (onward_await s place).holding none _

theorem open?_eq_ok_iff {course : Course} {opened : Session} :
    open? course = .ok opened ↔
      course.grid.validate = .ok () ∧ opened = ⟨course, 0, false, [], none, none⟩ := by
  unfold open?
  cases course.grid.validate with
  | error fault => simp [Except.map]
  | ok _ =>
    simp only [Except.map, Except.ok.injEq, true_and]
    exact eq_comm

theorem launch_eq_ok_iff {kinds : List String} {place : Nat} :
    s.launch kinds = .ok (place, s') ↔
      (kinds ≠ [] ∧ s.busy = false) ∧ place = s.runs.length ∧
        s' = { s with busy := true, runs := s.runs ++ [Run.start s.course kinds] } := by
  unfold launch
  cases kinds with
  | nil => simp
  | cons kind kinds =>
    cases busy : s.busy with
    | true => simp
    | false =>
      simp only [List.isEmpty_cons, Bool.false_eq_true, ↓reduceIte, Except.ok.injEq, Prod.mk.injEq]
      constructor
      · rintro ⟨rfl, rfl⟩
        exact ⟨⟨List.cons_ne_nil _ _, trivial⟩, rfl, rfl⟩
      · rintro ⟨-, rfl, rfl⟩
        exact ⟨rfl, rfl⟩

theorem onward_launch {kinds : List String} {place : Nat}
    (launched : s.launch kinds = .ok (place, s')) : Onward s s' := by
  obtain ⟨-, -, rfl⟩ := launch_eq_ok_iff.1 launched
  refine ⟨rfl, fun place r found => ⟨r, ?_, .refl⟩⟩
  rw [List.getElem?_append_left (List.getElem?_eq_some_iff.1 found).1]
  exact found

theorem start_eq_ok_iff {kinds : List String} :
    s.start kinds = .ok s' ↔ ∃ place launched, s.launch kinds = .ok (place, launched) ∧
      s' = { launched with held := some place, observed := some place } := by
  unfold start
  cases s.launch kinds with
  | error fault => simp [Except.map]
  | ok pair =>
    obtain ⟨place, launched⟩ := pair
    constructor
    · intro same
      exact ⟨place, launched, rfl, (Except.ok.inj same).symm⟩
    · rintro ⟨_, _, same, rfl⟩
      cases same
      rfl

theorem run_eq_ok_iff {kinds : List String} {outcome : Option RunOutcome} :
    s.run kinds = .ok (outcome, s') ↔ ∃ place launched,
      s.launch kinds = .ok (place, launched) ∧ launched.await place = (outcome, s') := by
  unfold run
  cases s.launch kinds with
  | error fault => simp [Except.map]
  | ok pair =>
    obtain ⟨place, launched⟩ := pair
    constructor
    · intro same
      exact ⟨place, launched, rfl, Except.ok.inj same⟩
    · rintro ⟨_, _, same, awaited⟩
      cases same
      exact congrArg Except.ok awaited

theorem onward_handle (s : Session) (call : Call) : Onward s (s.handle call) := by
  cases call with
  | start kinds =>
    cases started : s.start kinds with
    | error fault => simpa [handle, started, Except.toOption] using Onward.refl s
    | ok s' =>
      obtain ⟨place, launched, ok, rfl⟩ := start_eq_ok_iff.1 started
      have onward := (onward_launch ok).holding (some place) (some place)
      simpa [handle, started, Except.toOption] using onward
  | run kinds =>
    cases ran : s.run kinds with
    | error fault => simpa [handle, ran, Except.map, Except.toOption] using Onward.refl s
    | ok pair =>
      obtain ⟨place, launched, ok, awaited⟩ := run_eq_ok_iff.1 ran
      have onward := (onward_launch ok).trans (onward_await launched place)
      simpa [handle, ran, Except.map, Except.toOption, awaited] using onward
  | advance ms => exact onward_advanceTo s _
  | cancel => exact onward_cancel s
  | detach => exact (Onward.refl s).holding none s.observed
  | finish => exact onward_finish s

theorem onward_after (s : Session) (calls : List Call) : Onward s (s.after calls) := by
  induction calls generalizing s with
  | nil => exact .refl s
  | cons call calls ih => exact (onward_handle s call).trans (ih (s.handle call))

theorem await_eq {place : Nat} {r : Run} (found : s.runs[place]? = some r) :
    ∃ r' s', s.await place = (some r'.outcome, s') ∧ s'.runs[place]? = some r' ∧ r.Reaches r' ∧
      r'.hasEnded = true ∧ r'.cancelAsked = r.cancelAsked := by
  let deadline := max s.now (r.endTime s.now)
  have enough : r.endTime s.now ≤ deadline := Nat.le_max_right _ _
  have later : (s.advanceTo deadline).runs[place]? = some (r.advance s.now deadline) := by
    simp only [advanceTo, List.getElem?_map, found, Option.map_some]
  refine ⟨r.advance s.now deadline, s.advanceTo deadline, ?_, later, Run.reaches_advance s.now r,
    Run.hasEnded_advance enough, Run.cancelAsked_advance s.now r⟩
  simp only [await, found]
  rw [later]
  rfl

end

end FlightBlocks.Session
