import FlightBlocks.Proofs.Preview.Outcome
/-!
What one call does to one run, whichever call it is: it leaves the run, lets time pass for it, or
asks it to stop, and only the holder of its handle can do the last. A handle that was let go does
not come back.
-/

namespace FlightBlocks.Session

/-- What becomes of the run `r` at `place` by `call`. -/
inductive Touches (s : Session) (call : Call) (place : Nat) (r : Run) : Run → Prop
  | leaves (still : (s.handle call).now = s.now) : Touches s call place r r
  | lets (onward : s.now ≤ (s.handle call).now) :
      Touches s call place r (r.advance s.now (s.handle call).now)
  | asks (cancels : call = .cancel) (held : s.held = some place)
      (still : (s.handle call).now = s.now) : Touches s call place r r.cancel

section

variable {s s' : Session} {place : Nat} {r : Run}

theorem handle_start_of_ok {kinds : List String} (started : s.start kinds = .ok s') :
    s.handle (.start kinds) = s' := by
  simp [handle, started, Except.toOption]

theorem handle_start_of_error {kinds : List String} {fault : PreviewFault}
    (refused : s.start kinds = .error fault) : s.handle (.start kinds) = s := by
  simp [handle, refused, Except.toOption]

theorem handle_run_of_ok {kinds : List String} {outcome : Option RunOutcome}
    (ran : s.run kinds = .ok (outcome, s')) : s.handle (.run kinds) = s' := by
  simp [handle, ran, Except.map, Except.toOption]

theorem handle_run_of_error {kinds : List String} {fault : PreviewFault}
    (refused : s.run kinds = .error fault) : s.handle (.run kinds) = s := by
  simp [handle, refused, Except.map, Except.toOption]

theorem found_advanceTo (deadline : Nat) (found : s.runs[place]? = some r) :
    (s.advanceTo deadline).runs[place]? = some (r.advance s.now deadline) := by
  simp only [advanceTo, List.getElem?_map, found, Option.map_some]

theorem await_snd (s : Session) (place : Nat) :
    (s.await place).2 = s ∨ ∃ deadline, s.now ≤ deadline ∧
      (s.await place).2 = s.advanceTo deadline := by
  unfold await
  split
  · exact .inl rfl
  · exact .inr ⟨_, Nat.le_max_left _ _, rfl⟩

theorem found_await (place' : Nat) (found : s.runs[place]? = some r) :
    (s.await place').2.runs[place]? = some r ∧ (s.await place').2.now = s.now ∨
      (s.await place').2.runs[place]? = some (r.advance s.now (s.await place').2.now) ∧
        s.now ≤ (s.await place').2.now := by
  rcases await_snd s place' with same | ⟨deadline, later, same⟩
  · rw [same]
    exact .inl ⟨found, rfl⟩
  · rw [same]
    exact .inr ⟨found_advanceTo deadline found, later⟩

theorem held_await (s : Session) (place : Nat) : (s.await place).2.held = s.held := by
  rcases await_snd s place with same | ⟨deadline, -, same⟩
  · rw [same]
  · rw [same]
    rfl

theorem found_launch {kinds : List String} {new : Nat} (launched : s.launch kinds = .ok (new, s'))
    (found : s.runs[place]? = some r) : s'.runs[place]? = some r ∧ s'.now = s.now := by
  obtain ⟨-, -, rfl⟩ := launch_eq_ok_iff.1 launched
  have within : place < s.runs.length := (List.getElem?_eq_some_iff.1 found).1
  exact ⟨(List.getElem?_append_left within).trans found, rfl⟩

theorem found_cancel (found : s.runs[place]? = some r) :
    s.cancel.runs[place]? = some (if s.held = some place then r.cancel else r) := by
  unfold cancel
  split
  next none => simp [none, found]
  next place' held =>
    simp only [held, Option.some.injEq, List.getElem?_modify, found, Option.map_eq_map,
      Option.map_some]

theorem now_cancel (s : Session) : s.cancel.now = s.now := by
  unfold cancel
  split <;> rfl

theorem held_cancel (s : Session) : s.cancel.held = s.held := by
  unfold cancel
  split <;> rfl

theorem touches_of_await {call : Call} {waiting : Session} {place' : Nat}
    (runs : (s.handle call).runs = (waiting.await place').2.runs)
    (now : (s.handle call).now = (waiting.await place').2.now) (here : waiting.now = s.now)
    (found : waiting.runs[place]? = some r) :
    ∃ r', (s.handle call).runs[place]? = some r' ∧ Touches s call place r r' := by
  rcases found_await place' found with ⟨kept, still⟩ | ⟨moved, later⟩
  · have still' : (s.handle call).now = s.now := now.trans (still.trans here)
    exact ⟨r, by rw [runs, kept], .leaves still'⟩
  · rw [here, ← now] at moved later
    exact ⟨_, by rw [runs, moved], .lets later⟩

theorem touches_handle (call : Call) (found : s.runs[place]? = some r) :
    ∃ r', (s.handle call).runs[place]? = some r' ∧ Touches s call place r r' := by
  cases call with
  | start kinds =>
    cases started : s.start kinds with
    | error fault =>
      have same := handle_start_of_error started
      exact ⟨r, by rw [same, found], .leaves (by rw [same])⟩
    | ok s' =>
      have same := handle_start_of_ok started
      obtain ⟨new, launched, ok, rfl⟩ := start_eq_ok_iff.1 started
      obtain ⟨kept, now⟩ := found_launch ok found
      exact ⟨r, by rw [same, ← kept], .leaves (by rw [same, ← now])⟩
  | run kinds =>
    cases ran : s.run kinds with
    | error fault =>
      have same := handle_run_of_error ran
      exact ⟨r, by rw [same, found], .leaves (by rw [same])⟩
    | ok pair =>
      have same := handle_run_of_ok ran
      obtain ⟨new, launched, ok, awaited⟩ := run_eq_ok_iff.1 ran
      obtain ⟨kept, now⟩ := found_launch ok found
      have runs : (s.handle (.run kinds)).runs = (launched.await new).2.runs := by
        rw [same, awaited]
      have time : (s.handle (.run kinds)).now = (launched.await new).2.now := by
        rw [same, awaited]
      exact touches_of_await runs time now kept
  | advance ms =>
    exact ⟨_, found_advanceTo _ found, .lets (Nat.le_add_right _ _)⟩
  | cancel =>
    refine ⟨_, found_cancel found, ?_⟩
    split
    next held => exact .asks rfl held (now_cancel s)
    next => exact .leaves (now_cancel s)
  | detach => exact ⟨r, found, .leaves rfl⟩
  | finish =>
    cases held : s.held with
    | none =>
      have same : s.handle .finish = s := by simp only [handle, finish, held]
      exact ⟨r, by rw [same, found], .leaves (by rw [same])⟩
    | some place' =>
      have same : s.handle .finish = (s.await place').2.detach := by
        rw [handle, finish_eq held]
      have runs : (s.handle .finish).runs = (s.await place').2.runs := by
        rw [same]
        rfl
      have time : (s.handle .finish).now = (s.await place').2.now := by
        rw [same]
        rfl
      exact touches_of_await runs time rfl found

theorem held_run {kinds : List String} {outcome : Option RunOutcome}
    (ran : s.run kinds = .ok (outcome, s')) : s'.held = s.held := by
  obtain ⟨new, launched, ok, awaited⟩ := run_eq_ok_iff.1 ran
  have kept := held_await launched new
  rw [awaited] at kept
  obtain ⟨-, -, rfl⟩ := launch_eq_ok_iff.1 ok
  exact kept

theorem held_handle (call : Call) (held : (s.handle call).held = some place)
    (old : place < s.runs.length) : s.held = some place := by
  cases call with
  | start kinds =>
    cases started : s.start kinds with
    | error fault => rwa [handle_start_of_error started] at held
    | ok s' =>
      rw [handle_start_of_ok started] at held
      obtain ⟨new, launched, ok, rfl⟩ := start_eq_ok_iff.1 started
      obtain ⟨-, rfl, -⟩ := launch_eq_ok_iff.1 ok
      cases held
      exact absurd old (Nat.lt_irrefl _)
  | run kinds =>
    cases ran : s.run kinds with
    | error fault => rwa [handle_run_of_error ran] at held
    | ok pair =>
      rw [handle_run_of_ok ran] at held
      exact (held_run ran).symm.trans held
  | advance ms => exact held
  | cancel => rwa [← held_cancel s]
  | detach => cases held
  | finish =>
    cases is : s.held with
    | none =>
      simp only [handle, finish, is] at held
      cases held
    | some place' =>
      rw [handle, finish_eq is] at held
      cases held

theorem length_runs_handle (s : Session) (call : Call) :
    s.runs.length ≤ (s.handle call).runs.length := by
  rcases Nat.eq_zero_or_pos s.runs.length with none | some
  · omega
  · have last : s.runs.length - 1 < s.runs.length := by omega
    obtain ⟨r', found', -⟩ := touches_handle call (List.getElem?_eq_getElem last)
    have := (List.getElem?_eq_some_iff.1 found').1
    omega

theorem after_cons (s : Session) (call : Call) (calls : List Call) :
    s.after (call :: calls) = (s.handle call).after calls := rfl

theorem held_after (calls : List Call) (held : (s.after calls).held = some place)
    (old : place < s.runs.length) : s.held = some place := by
  induction calls generalizing s with
  | nil => exact held
  | cons call calls ih =>
    have later := ih held (Nat.lt_of_lt_of_le old (length_runs_handle s call))
    exact held_handle call later old

/-- No request to stop reaches the run at `place` before it has ended. -/
def Spares (s : Session) (place : Nat) (calls : List Call) : Prop :=
  ∀ front back, calls = front ++ .cancel :: back → (s.after front).held = some place →
    ∀ r, (s.after front).runs[place]? = some r → r.hasEnded = true

theorem Spares.tail {call : Call} {calls : List Call} (spares : Spares s place (call :: calls)) :
    Spares (s.handle call) place calls := by
  intro front back split
  exact spares (call :: front) back (by rw [split, List.cons_append])

theorem Spares.head {calls : List Call} (spares : Spares s place (.cancel :: calls))
    (held : s.held = some place) (found : s.runs[place]? = some r) : r.hasEnded = true :=
  spares [] calls rfl held r found

theorem spares_of_no_cancel {calls : List Call} (none : .cancel ∉ calls) :
    Spares s place calls := by
  intro front back split
  exact absurd (by simp [split]) none

theorem spares_of_unheld (unheld : s.held ≠ some place) (old : place < s.runs.length)
    (calls : List Call) : Spares s place calls := by
  intro front back _ held
  exact absurd (held_after front held old) unheld

theorem Spares.append {calls more : List Call} (spares : Spares s place calls)
    (later : Spares (s.after calls) place more) : Spares s place (calls ++ more) := by
  induction calls generalizing s with
  | nil => exact later
  | cons call calls ih =>
    have rest := ih spares.tail later
    intro front back split held r found
    cases front with
    | nil =>
      obtain ⟨rfl, -⟩ := List.cons.inj split
      exact spares.head held found
    | cons first front =>
      obtain ⟨rfl, split'⟩ := List.cons.inj split
      exact rest front back split' held r found

theorem found_after_spared {motive : Nat → Run → Prop} {calls : List Call}
    (spares : Spares s place calls)
    (lets : ∀ now deadline r, now ≤ deadline → motive now r →
      motive deadline (r.advance now deadline))
    (asks : ∀ now r, r.hasEnded = true → motive now r → motive now r.cancel)
    (found : s.runs[place]? = some r) (here : motive s.now r) :
    ∃ r', (s.after calls).runs[place]? = some r' ∧ motive (s.after calls).now r' := by
  induction calls generalizing s r with
  | nil => exact ⟨r, found, here⟩
  | cons call calls ih =>
    obtain ⟨r', found', touches⟩ := touches_handle call found
    refine ih spares.tail found' ?_
    cases touches with
    | leaves still => rwa [still]
    | lets onward => exact lets _ _ _ onward here
    | asks cancels held still =>
      subst cancels
      rw [still]
      exact asks _ _ (spares.head held found) here

end

end FlightBlocks.Session
