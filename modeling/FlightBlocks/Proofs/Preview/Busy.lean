import FlightBlocks.Proofs.Preview.Calls
import FlightBlocks.Proofs.Preview.Ending
import Mathlib.Logic.ExistsUnique
/-!
At most one run is active, and the simulator says it is busy just when one is. Every call keeps
this, so it holds whatever is called for: the active run is the newest, it is the held one if a
handle is held, and a run whose handle was let go is active until its last pause is over.
-/

namespace FlightBlocks

namespace Session

def Active (s : Session) (place : Nat) : Prop := ∃ r, s.runs[place]? = some r ∧ r.hasEnded = false

/-- The flag tells the truth, and only the newest run may be active. -/
structure Truthful (s : Session) : Prop where
  busy_iff : s.busy = true ↔ ∃ place, s.Active place
  newest : ∀ place, s.Active place → place + 1 = s.runs.length

/-- The handle is that of a run, and of the active one if there is one. -/
structure Holds (s : Session) : Prop where
  old : ∀ place, s.held = some place → place < s.runs.length
  newest : s.busy = true → ∀ place, s.held = some place → place + 1 = s.runs.length

section

variable {s s' : Session} {place : Nat} {r : Run}

theorem holds_of_unheld (unheld : s.held = none) : Holds s := by
  constructor
  · intro place held
    cases unheld.symm.trans held
  · intro _ place held
    cases unheld.symm.trans held

theorem Truthful.unique (truthful : Truthful s) {place' : Nat} (active : s.Active place)
    (active' : s.Active place') : place = place' := by
  have here := truthful.newest place active
  have there := truthful.newest place' active'
  omega

theorem Truthful.idle_iff (truthful : Truthful s) : s.busy = false ↔ ∀ place, ¬ s.Active place := by
  rw [← not_exists, ← truthful.busy_iff]
  simp

theorem truthful_open {course : Course} {opened : Session} (valid : open? course = .ok opened) :
    Truthful opened ∧ Holds opened := by
  obtain ⟨-, rfl⟩ := open?_eq_ok_iff.1 valid
  refine ⟨⟨⟨nofun, ?_⟩, ?_⟩, holds_of_unheld rfl⟩
  · rintro ⟨place, r, found, -⟩
    simp at found
  · rintro place ⟨r, found, -⟩
    simp at found

theorem length_advanceTo (s : Session) (deadline : Nat) :
    (s.advanceTo deadline).runs.length = s.runs.length := by
  simp [advanceTo]

theorem active_of_advanceTo {deadline : Nat} (active : (s.advanceTo deadline).Active place) :
    s.Active place := by
  obtain ⟨r', found', going⟩ := active
  have within : place < s.runs.length := by
    rw [← length_advanceTo s deadline]
    exact (List.getElem?_eq_some_iff.1 found').1
  have found : s.runs[place]? = some s.runs[place] := List.getElem?_eq_getElem within
  have same := (found_advanceTo deadline found).symm.trans found'
  refine ⟨_, found, Bool.eq_false_iff.2 fun ended => ?_⟩
  obtain ⟨cancelled, phase⟩ := Run.hasEnded_iff.1 ended
  rw [Run.advance_of_ended phase] at same
  cases same
  rw [ended] at going
  cases going

theorem busy_advanceTo (s : Session) (deadline : Nat) :
    (s.advanceTo deadline).busy =
      (s.busy && !s.runs.any fun r => !r.hasEnded && (r.advance s.now deadline).hasEnded) := by
  have pairs : s.runs.zip (s.runs.map (Run.advance s.now deadline)) =
      s.runs.map fun r => (r, r.advance s.now deadline) := by
    have mapped := List.zip_map' (l := s.runs) (f := id) (g := Run.advance s.now deadline)
    simpa using mapped
  simp only [advanceTo, pairs, List.any_map]
  rfl

theorem busy_advanceTo_iff (deadline : Nat) :
    (s.advanceTo deadline).busy = true ↔
      s.busy = true ∧ ∀ place, s.Active place → (s.advanceTo deadline).Active place := by
  rw [busy_advanceTo, Bool.and_eq_true, Bool.not_eq_true', List.any_eq_false]
  refine and_congr_right fun _ => ⟨?_, ?_⟩
  · intro none place active
    obtain ⟨r, found, going⟩ := active
    refine ⟨_, found_advanceTo deadline found, ?_⟩
    simpa [going] using none r (List.mem_of_getElem? found)
  · intro kept r member
    obtain ⟨place, found⟩ := List.mem_iff_getElem?.1 member
    cases going : r.hasEnded with
    | true => simp
    | false =>
      obtain ⟨r', found', going'⟩ := kept place ⟨r, found, going⟩
      cases (found_advanceTo deadline found).symm.trans found'
      simp [going']

theorem Truthful.advanceTo (truthful : Truthful s) (deadline : Nat) :
    Truthful (s.advanceTo deadline) := by
  constructor
  · rw [busy_advanceTo_iff]
    constructor
    · rintro ⟨busy, kept⟩
      obtain ⟨place, active⟩ := truthful.busy_iff.1 busy
      exact ⟨place, kept place active⟩
    · rintro ⟨place, active⟩
      have before := active_of_advanceTo active
      refine ⟨truthful.busy_iff.2 ⟨place, before⟩, fun place' active' => ?_⟩
      rwa [truthful.unique active' before]
  · intro place active
    rw [length_advanceTo]
    exact truthful.newest place (active_of_advanceTo active)

theorem Holds.advanceTo (holds : Holds s) (deadline : Nat) : Holds (s.advanceTo deadline) := by
  constructor
  · rw [length_advanceTo]
    exact holds.old
  · rw [length_advanceTo]
    intro busy
    exact holds.newest (busy_advanceTo_iff deadline |>.1 busy).1

theorem length_await (s : Session) (place : Nat) :
    (s.await place).2.runs.length = s.runs.length := by
  rcases await_snd s place with same | ⟨deadline, -, same⟩
  · rw [same]
  · rw [same, length_advanceTo]

theorem Truthful.await (truthful : Truthful s) (place : Nat) : Truthful (s.await place).2 := by
  rcases await_snd s place with same | ⟨deadline, -, same⟩
  · rwa [same]
  · rw [same]
    exact truthful.advanceTo deadline

theorem Truthful.idle_await (truthful : Truthful s) (newest : place + 1 = s.runs.length) :
    (s.await place).2.busy = false := by
  have found : s.runs[place]? = some s.runs[place] := List.getElem?_eq_getElem (by omega)
  obtain ⟨r', s', awaited, found', -, ended, -⟩ := await_eq found
  have truthful' := truthful.await place
  refine truthful'.idle_iff.2 fun place' active => ?_
  have there := truthful'.newest place' active
  rw [length_await] at there
  obtain rfl : place' = place := by omega
  obtain ⟨r, found'', going⟩ := active
  rw [awaited] at found''
  cases found'.symm.trans found''
  rw [ended] at going
  cases going

theorem Truthful.launch (truthful : Truthful s) {kinds : List String} {new : Nat}
    (launched : s.launch kinds = .ok (new, s')) : Truthful s' ∧ new + 1 = s'.runs.length := by
  obtain ⟨⟨-, idle⟩, rfl, rfl⟩ := launch_eq_ok_iff.1 launched
  have none := truthful.idle_iff.1 idle
  refine ⟨⟨⟨fun _ => ⟨s.runs.length, _, List.getElem?_concat_length, rfl⟩, fun _ => rfl⟩, ?_⟩, ?_⟩
  · rintro place ⟨r, found, going⟩
    rcases Nat.lt_or_ge place s.runs.length with old | new
    · rw [List.getElem?_append_left old] at found
      exact absurd ⟨r, found, going⟩ (none place)
    · have within := (List.getElem?_eq_some_iff.1 found).1
      simp only [List.length_append, List.length_singleton] at within ⊢
      omega
  · simp

theorem active_cancel_iff : s.cancel.Active place ↔ s.Active place := by
  unfold cancel
  split
  next => rfl
  next place' held =>
    simp only [Active, List.getElem?_modify, Option.map_eq_map]
    cases found : s.runs[place]? with
    | none => simp
    | some r =>
      simp only [Option.map_some, Option.some.injEq, exists_eq_left']
      split <;> rfl

theorem busy_cancel (s : Session) : s.cancel.busy = s.busy := by
  unfold cancel
  split <;> rfl

theorem length_cancel (s : Session) : s.cancel.runs.length = s.runs.length := by
  unfold cancel
  split <;> simp

theorem Truthful.cancel (truthful : Truthful s) : Truthful s.cancel := by
  constructor
  · simp only [active_cancel_iff, busy_cancel]
    exact truthful.busy_iff
  · simp only [active_cancel_iff, length_cancel]
    exact truthful.newest

theorem Holds.cancel (holds : Holds s) : Holds s.cancel := by
  constructor
  · rw [held_cancel, length_cancel]
    exact holds.old
  · rw [held_cancel, length_cancel, busy_cancel]
    exact holds.newest

theorem idle_finish (truthful : Truthful s) (holds : Holds s) (held : s.held = some place) :
    s.finish.2.busy = false := by
  rw [finish_eq held]
  cases busy : s.busy with
  | true => exact truthful.idle_await (holds.newest busy place held)
  | false =>
    rcases await_snd s place with same | ⟨deadline, -, same⟩
    · simp only [same, detach, busy]
    · simp only [same, detach, busy_advanceTo, busy, Bool.false_and]

theorem truthful_start {kinds : List String} (truthful : Truthful s)
    (started : s.start kinds = .ok s') : Truthful s' ∧ Holds s' := by
  obtain ⟨new, launched, ok, rfl⟩ := start_eq_ok_iff.1 started
  obtain ⟨truthful', newest⟩ := truthful.launch ok
  refine ⟨⟨truthful'.busy_iff, truthful'.newest⟩, ?_, ?_⟩
  · rintro place ⟨⟩
    exact Nat.lt_of_succ_le (Nat.le_of_eq newest)
  · rintro - place ⟨⟩
    exact newest

theorem truthful_run {kinds : List String} {outcome : Option RunOutcome} (truthful : Truthful s)
    (holds : Holds s) (ran : s.run kinds = .ok (outcome, s')) : Truthful s' ∧ Holds s' := by
  obtain ⟨new, launched, ok, awaited⟩ := run_eq_ok_iff.1 ran
  obtain ⟨truthful', newest⟩ := truthful.launch ok
  have after := truthful'.await new
  have idle := truthful'.idle_await newest
  rw [awaited] at after idle
  refine ⟨after, fun place held => ?_, fun busy => ?_⟩
  · have grown := length_runs_handle s (.run kinds)
    rw [handle_run_of_ok ran] at grown
    exact Nat.lt_of_lt_of_le (holds.old place ((held_run ran).symm.trans held)) grown
  · rw [idle] at busy
    cases busy

theorem truthful_handle (truthful : Truthful s) (holds : Holds s) (call : Call) :
    Truthful (s.handle call) ∧ Holds (s.handle call) := by
  cases call with
  | start kinds =>
    cases started : s.start kinds with
    | error fault =>
      rw [handle_start_of_error started]
      exact ⟨truthful, holds⟩
    | ok s' =>
      rw [handle_start_of_ok started]
      exact truthful_start truthful started
  | run kinds =>
    cases ran : s.run kinds with
    | error fault =>
      rw [handle_run_of_error ran]
      exact ⟨truthful, holds⟩
    | ok pair =>
      obtain ⟨outcome, s'⟩ := pair
      rw [handle_run_of_ok ran]
      exact truthful_run truthful holds ran
  | advance ms => exact ⟨truthful.advanceTo _, holds.advanceTo _⟩
  | cancel => exact ⟨truthful.cancel, holds.cancel⟩
  | detach => exact ⟨⟨truthful.busy_iff, truthful.newest⟩, holds_of_unheld rfl⟩
  | finish =>
    cases held : s.held with
    | none =>
      simp only [handle, finish, held]
      exact ⟨truthful, holds⟩
    | some place =>
      have truthful' := truthful.await place
      rw [handle, finish_eq held]
      exact ⟨⟨truthful'.busy_iff, truthful'.newest⟩, holds_of_unheld rfl⟩

theorem truthful_after (truthful : Truthful s) (holds : Holds s) (calls : List Call) :
    Truthful (s.after calls) ∧ Holds (s.after calls) := by
  induction calls generalizing s with
  | nil => exact ⟨truthful, holds⟩
  | cons call calls ih =>
    obtain ⟨truthful', holds'⟩ := truthful_handle truthful holds call
    exact ih truthful' holds'

theorem start_eq_busy_iff {kinds : List String} (nonempty : kinds ≠ []) :
    s.start kinds = .error .busy ↔ s.busy = true := by
  cases kinds with
  | nil => exact absurd rfl nonempty
  | cons kind kinds => cases busy : s.busy <;> simp [start, launch, busy, Except.map]

theorem exists_start_iff {kinds : List String} (nonempty : kinds ≠ []) :
    (∃ s', s.start kinds = .ok s') ↔ s.busy = false := by
  constructor
  · rintro ⟨s', started⟩
    obtain ⟨place, launched, ok, -⟩ := start_eq_ok_iff.1 started
    exact (launch_eq_ok_iff.1 ok).1.2
  · intro idle
    obtain ⟨launched, ok, -, -⟩ := launch_of_idle nonempty idle
    exact ⟨_, start_eq_ok_iff.2 ⟨_, launched, ok, rfl⟩⟩

theorem Truthful.active_held (truthful : Truthful s) (holds : Holds s) (busy : s.busy = true)
    (held : s.held = some place) : s.Active place := by
  obtain ⟨place', active⟩ := truthful.busy_iff.1 busy
  have here := truthful.newest place' active
  have there := holds.newest busy place held
  obtain rfl : place' = place := by omega
  exact active

theorem length_runs_of_busy (busy : s.busy = true) (call : Call) :
    (s.handle call).runs.length = s.runs.length := by
  have refused {kinds : List String} {new : Nat} {s' : Session} :
      s.launch kinds ≠ .ok (new, s') := by
    intro launched
    obtain ⟨⟨-, idle⟩, -⟩ := launch_eq_ok_iff.1 launched
    rw [busy] at idle
    cases idle
  cases call with
  | start kinds =>
    cases started : s.start kinds with
    | error fault => rw [handle_start_of_error started]
    | ok s' =>
      obtain ⟨new, launched, ok, -⟩ := start_eq_ok_iff.1 started
      exact absurd ok refused
  | run kinds =>
    cases ran : s.run kinds with
    | error fault => rw [handle_run_of_error ran]
    | ok pair =>
      obtain ⟨new, launched, ok, -⟩ := run_eq_ok_iff.1 ran
      exact absurd ok refused
  | advance ms => exact length_advanceTo s _
  | cancel => exact length_cancel s
  | detach => rfl
  | finish =>
    cases held : s.held with
    | none => simp only [handle, finish, held]
    | some place =>
      rw [handle, finish_eq held]
      exact length_await s place

theorem Truthful.freed (truthful : Truthful s) (holds : Holds s) (active : s.Active place)
    {call : Call} (inactive : ¬ (s.handle call).Active place) : (s.handle call).busy = false := by
  obtain ⟨truthful', -⟩ := truthful_handle truthful holds call
  have busy := truthful.busy_iff.2 ⟨place, active⟩
  refine truthful'.idle_iff.2 fun place' active' => inactive ?_
  have here := truthful.newest place active
  have there := truthful'.newest place' active'
  rw [length_runs_of_busy busy call] at there
  obtain rfl : place' = place := by omega
  exact active'

theorem endsAt_after {kinds : List String} (started : s.start kinds = .ok s') {calls : List Call}
    (spares : Spares s' s.runs.length calls) :
    ∃ r, (s'.after calls).runs[s.runs.length]? = some r ∧
      r.EndsAt (s.now + s.course.startDelay + kinds.length * s.course.stepDelay)
        (s'.after calls).now := by
  obtain ⟨place, launched, ok, rfl⟩ := start_eq_ok_iff.1 started
  obtain ⟨-, rfl, rfl⟩ := launch_eq_ok_iff.1 ok
  refine found_after_spared
    (motive := Run.EndsAt (s.now + s.course.startDelay + kinds.length * s.course.stepDelay))
    spares ?lets ?asks List.getElem?_concat_length ?here
  case lets =>
    intro now deadline r later ends
    exact (ends.advance later).1
  case asks =>
    intro now r ended ends
    exact ends.cancel ended
  case here => exact Run.endsAt_start s.course kinds s.now

theorem spares_detached {kinds : List String} (started : s.start kinds = .ok s')
    {before : List Call} (unasked : .cancel ∉ before) (later : List Call) :
    Spares s' s.runs.length (before ++ .detach :: later) := by
  obtain ⟨r, found, -⟩ := later_of_start started before
  have old := (List.getElem?_eq_some_iff.1 found).1
  have alone : Spares (s'.after before) s.runs.length [.detach] := spares_of_no_cancel (by simp)
  have rest : Spares ((s'.after before).after [.detach]) s.runs.length later :=
    spares_of_unheld (s := (s'.after before).detach) nofun old later
  exact (spares_of_no_cancel unasked).append (alone.append rest)

theorem Truthful.busy_iff_unique (truthful : Truthful s) :
    s.busy = true ↔ ∃! place, s.Active place := by
  rw [truthful.busy_iff]
  constructor
  · rintro ⟨place, active⟩
    exact ⟨place, active, fun place' active' => truthful.unique active' active⟩
  · rintro ⟨place, active, -⟩
    exact ⟨place, active⟩

theorem finish_of_held (truthful : Truthful s) (holds : Holds s) (held : s.held = some place) :
    ∃ o s', s.finish = (some o, s') ∧ s'.held = none ∧ s'.busy = false := by
  have found : s.runs[place]? = some _ := List.getElem?_eq_getElem (holds.old place held)
  obtain ⟨r, s', awaited, -⟩ := await_eq found
  have idle := idle_finish truthful holds held
  rw [finish_eq held, awaited] at idle
  exact ⟨r.outcome, s'.detach, by rw [finish_eq held, awaited], rfl, idle⟩

theorem active_until_due {kinds : List String} (truthful : Truthful s) (holds : Holds s)
    (started : s.start kinds = .ok s') {before : List Call} (unasked : .cancel ∉ before)
    (later : List Call) :
    let due := s.now + s.course.startDelay + kinds.length * s.course.stepDelay
    let free := s'.after (before ++ .detach :: later)
    (free.now < due → free.busy = true ∧ free.Active s.runs.length) ∧
      ∀ ms, due ≤ free.now + ms → ¬ (free.advance ms).Active s.runs.length ∧
        (free.runs.length = s.runs.length + 1 → (free.advance ms).busy = false) := by
  intro due free
  obtain ⟨r, found, ends⟩ := endsAt_after started (spares_detached started unasked later)
  obtain ⟨truthful', holds'⟩ := truthful_handle truthful holds (.start kinds)
  rw [handle_start_of_ok started] at truthful' holds'
  have truthful'' : Truthful free := (truthful_after truthful' holds' _).1
  constructor
  · intro early
    have active : free.Active s.runs.length := by
      refine ⟨r, found, Bool.eq_false_iff.2 fun ended => ?_⟩
      exact absurd (ends.2 ended) (Nat.not_le.2 early)
    exact ⟨truthful''.busy_iff.2 ⟨_, active⟩, active⟩
  · intro ms passed
    have inactive : ¬ (free.advance ms).Active s.runs.length := by
      rintro ⟨r', found', going⟩
      cases (found_advanceTo _ found).symm.trans found'
      have early := (ends.advance (Nat.le_add_right _ ms)).2 going
      exact absurd passed (Nat.not_le.2 early)
    refine ⟨inactive, fun newest => (truthful''.advanceTo _).idle_iff.2 fun place active => ?_⟩
    apply inactive
    have last := (truthful''.advanceTo _).newest place active
    rw [length_advanceTo, newest] at last
    obtain rfl : place = s.runs.length := by omega
    exact active

end

end Session

open Session in
/-- At most one run is active, and the simulator is busy just when one is. A run can be started just
when none is active, and a refusal changes nothing. The active run is the held one if a handle is
held; one that was let go is active until its last pause is over; and whatever ends it, the next
start succeeds. -/
theorem busy_iff_one_active {course : Course} {opened : Session}
    (valid : open? course = .ok opened) (calls : List Call) :
    let s := opened.after calls
    (s.busy = true ↔ ∃! place, s.Active place) ∧
      (∀ place place', s.Active place → s.Active place' → place = place') ∧
      s.start [] = .error .emptyProgram ∧
      (∀ kinds, kinds ≠ [] → (s.start kinds = .error .busy ↔ ∃ place, s.Active place) ∧
        ((∃ s', s.start kinds = .ok s') ↔ ¬ ∃ place, s.Active place)) ∧
      (∀ kinds fault, s.start kinds = .error fault → ∀ later,
        s.after (.start kinds :: later) = s.after later) ∧
      (∀ place, s.held = some place → (s.busy = true → s.Active place) ∧
        ∃ o s', s.finish = (some o, s') ∧ s'.held = none ∧ s'.busy = false) ∧
      (∀ kinds s', s.start kinds = .ok s' → ∀ before later, .cancel ∉ before →
        let place := s.runs.length
        let due := s.now + course.startDelay + kinds.length * course.stepDelay
        let free := s'.after (before ++ .detach :: later)
        (free.now < due → free.busy = true ∧ free.Active place) ∧
          ∀ ms, due ≤ free.now + ms → ¬ (free.advance ms).Active place ∧
            (free.runs.length = place + 1 → (free.advance ms).busy = false)) ∧
      ∀ place call, s.Active place → ¬ (s.handle call).Active place →
        (s.handle call).busy = false ∧
          ∀ kinds, kinds ≠ [] → ∃ s', (s.handle call).start kinds = .ok s' := by
  intro s
  obtain ⟨truthful₀, holds₀⟩ := truthful_open valid
  obtain ⟨truthful, holds⟩ : Truthful s ∧ Holds s := truthful_after truthful₀ holds₀ calls
  refine ⟨truthful.busy_iff_unique, fun _ _ => truthful.unique, rfl, ?_, ?_, ?_, ?_, ?_⟩
  · intro kinds nonempty
    rw [start_eq_busy_iff nonempty, exists_start_iff nonempty, ← truthful.busy_iff]
    simp
  · intro kinds fault refused later
    rw [after_cons, handle_start_of_error refused]
  · intro place held
    exact ⟨fun busy => truthful.active_held holds busy held, finish_of_held truthful holds held⟩
  · intro kinds s' started before later unasked
    have until' := active_until_due truthful holds started unasked later
    rwa [course_of_open valid calls] at until'
  · intro place call active inactive
    have idle := truthful.freed holds active inactive
    exact ⟨idle, fun kinds nonempty => (exists_start_iff nonempty).2 idle⟩

open Session in
theorem busy_briskFlight :
    open? brisk.course = .ok brisk ∧ (brisk.after []).start ["rotate", "land"] = .ok briskFlight ∧
      briskFlight.Active 0 ∧ briskFlight.start ["land"] = .error .busy ∧
      briskFlight.held = some 0 ∧ (∃ o s', briskFlight.finish = (some o, s') ∧ s'.busy = false) ∧
      ¬ (briskFlight.handle (.advance 4)).Active 0 ∧
      (∃ s', (briskFlight.handle (.advance 4)).start ["land"] = .ok s') ∧
      (briskFlight.after [.advance 1, .detach, .advance 2]).busy = true ∧
      (briskFlight.after [.advance 1, .detach, .advance 2, .advance 1]).busy = false := by
  have valid : open? brisk.course = .ok brisk := rfl
  have started : (brisk.after []).start ["rotate", "land"] = .ok briskFlight := rfl
  have active : briskFlight.Active 0 := ⟨_, rfl, rfl⟩
  have inactive : ¬ (briskFlight.handle (.advance 4)).Active 0 := by
    rintro ⟨r, found, going⟩
    cases found
    revert going
    decide
  obtain ⟨-, -, -, -, -, -, letGo, -⟩ := busy_iff_one_active valid []
  obtain ⟨early, late⟩ := letGo _ _ started [.advance 1] [.advance 2] (by decide)
  obtain ⟨-, -, -, starts, -, waits, -, ends⟩ :=
    busy_iff_one_active valid [.start ["rotate", "land"]]
  obtain ⟨o, s', finished, -, idle⟩ := (waits 0 rfl).2
  refine ⟨valid, started, active, (starts ["land"] (by decide)).1.2 ⟨0, active⟩, rfl,
    ⟨o, s', finished, idle⟩, inactive, (ends 0 (.advance 4) active inactive).2 ["land"] (by decide),
    (early (by decide)).1, (late 1 (by decide)).2 rfl⟩

end FlightBlocks
