import FlightBlocks.Preview.Run
import FlightBlocks.Proofs.Preview.Frames
/-!
The frames of a block list with the times at which they are due. A block is applied one step's time
after the block before it. Its flip is put down when it has been shown for its own time, or with the
step if that is over sooner, so the next block does not wait for it.
-/

namespace FlightBlocks

/-- Frames with the times at which they are shown, counted from when the run begins. -/
abbrev Timetable := List (Nat × Frame)

namespace Timetable

def due (table : Timetable) (elapsed : Nat) : Trace :=
  (table.filter fun entry => entry.1 ≤ elapsed).map Prod.snd

variable {table : Timetable} {elapsed : Nat}

theorem due_append (table more : Timetable) (elapsed : Nat) :
    due (table ++ more) elapsed = table.due elapsed ++ more.due elapsed := by
  simp [due]

theorem mem_due_iff {f : Frame} :
    f ∈ table.due elapsed ↔ ∃ time, (time, f) ∈ table ∧ time ≤ elapsed := by
  simp [due]

theorem due_of_early (early : ∀ entry ∈ table, elapsed < entry.1) : table.due elapsed = [] := by
  rw [due, List.filter_eq_nil_iff.2, List.map_nil]
  intro entry member
  simpa using early entry member

end Timetable

namespace Course

def stepTime (c : Course) (done : Nat) : Nat := c.startDelay + done * c.stepDelay

def blockTimes (c : Course) (done : Nat) (d : Drone) (kind : String) : Timetable :=
  let shown := c.grid.shown d kind
  if shown.flipping then
    [(c.stepTime done, ⟨done + 1, some kind, shown⟩),
      (c.stepTime done + c.flipShown, ⟨done + 1, some kind, shown.settled⟩)]
  else [(c.stepTime done, ⟨done + 1, some kind, shown⟩)]

def timetableFrom (c : Course) (done : Nat) (d : Drone) : List String → Timetable
  | [] => []
  | kind :: kinds =>
    c.blockTimes done d kind ++ timetableFrom c (done + 1) (c.grid.shown d kind).settled kinds

def timetable (c : Course) (kinds : List String) : Timetable :=
  (0, .start c.grid.start) :: c.timetableFrom 0 c.grid.start kinds

variable {c : Course} {done time elapsed : Nat} {d : Drone} {kind : String} {kinds : List String}
  {f : Frame}

theorem stepTime_succ (c : Course) (done : Nat) :
    c.stepTime (done + 1) = c.stepTime done + c.stepDelay := by
  rw [stepTime, stepTime, Nat.add_mul, Nat.one_mul, Nat.add_assoc]

theorem flipShown_le (c : Course) : c.flipShown ≤ c.stepDelay := Nat.min_le_right _ _

theorem blockTimes_of_flipping (flips : (c.grid.shown d kind).flipping = true) :
    c.blockTimes done d kind =
      [(c.stepTime done, ⟨done + 1, some kind, c.grid.shown d kind⟩),
        (c.stepTime done + c.flipShown, ⟨done + 1, some kind, (c.grid.shown d kind).settled⟩)] := by
  simp only [blockTimes, flips, ↓reduceIte]

theorem blockTimes_of_level (level : (c.grid.shown d kind).flipping = false) :
    c.blockTimes done d kind =
      [(c.stepTime done, ⟨done + 1, some kind, c.grid.shown d kind⟩)] := by
  simp [blockTimes, level]

theorem map_blockTimes (c : Course) (done : Nat) (d : Drone) (kind : String) :
    (c.blockTimes done d kind).map Prod.snd = c.grid.blockFrames (done + 1) d kind := by
  cases flips : (c.grid.shown d kind).flipping with
  | true => rw [blockTimes_of_flipping flips, Grid.blockFrames_of_flipping _ flips]; rfl
  | false => rw [blockTimes_of_level flips, Grid.blockFrames_of_level _ flips]; rfl

theorem map_timetableFrom (c : Course) (done : Nat) (d : Drone) (kinds : List String) :
    (c.timetableFrom done d kinds).map Prod.snd = c.grid.framesFrom done d kinds := by
  induction kinds generalizing done d with
  | nil => rfl
  | cons kind kinds ih => rw [timetableFrom, List.map_append, map_blockTimes, ih]; rfl

theorem map_timetable (c : Course) (kinds : List String) :
    (c.timetable kinds).map Prod.snd = c.grid.frames kinds := by
  rw [timetable, List.map_cons, map_timetableFrom]
  rfl

theorem mem_blockTimes_iff :
    (time, f) ∈ c.blockTimes done d kind ↔
      time = c.stepTime done ∧ f = ⟨done + 1, some kind, c.grid.shown d kind⟩ ∨
        (c.grid.shown d kind).flipping = true ∧ time = c.stepTime done + c.flipShown ∧
          f = ⟨done + 1, some kind, (c.grid.shown d kind).settled⟩ := by
  cases flips : (c.grid.shown d kind).flipping with
  | true => simp [blockTimes_of_flipping flips]
  | false => simp [blockTimes_of_level flips]

theorem mem_timetableFrom_iff :
    (time, f) ∈ c.timetableFrom done d kinds ↔ ∃ i kind, kinds[i]? = some kind ∧
      (time, f) ∈ c.blockTimes (done + i) (c.grid.leave d (kinds.take i)) kind := by
  induction kinds generalizing done d with
  | nil => simp [timetableFrom]
  | cons kind kinds ih =>
    rw [timetableFrom, List.mem_append, ih]
    constructor
    · rintro (first | ⟨i, kind', found, later⟩)
      · exact ⟨0, kind, rfl, first⟩
      · refine ⟨i + 1, kind', found, ?_⟩
        rwa [Nat.add_assoc, Nat.add_comm 1] at later
    · rintro ⟨i, kind', found, member⟩
      cases i with
      | zero =>
        cases found
        exact .inl member
      | succ i =>
        refine .inr ⟨i, kind', found, ?_⟩
        rwa [Nat.add_assoc, Nat.add_comm 1]

theorem mem_timetable_iff :
    (time, f) ∈ c.timetable kinds ↔ time = 0 ∧ f = .start c.grid.start ∨ ∃ i kind,
      kinds[i]? = some kind ∧
        (time, f) ∈ c.blockTimes i (c.grid.leave c.grid.start (kinds.take i)) kind := by
  simp only [timetable, List.mem_cons, Prod.mk.injEq, mem_timetableFrom_iff, Nat.zero_add]

theorem stepTime_le_of_mem (member : (time, f) ∈ c.timetableFrom done d kinds) :
    c.stepTime done ≤ time := by
  obtain ⟨i, kind, -, member⟩ := mem_timetableFrom_iff.1 member
  have onward : c.stepTime done ≤ c.stepTime (done + i) := by
    unfold stepTime
    rw [Nat.add_mul]
    omega
  rcases mem_blockTimes_iff.1 member with ⟨rfl, -⟩ | ⟨-, rfl, -⟩
  · exact onward
  · omega

theorem due_timetableFrom_of_early (early : elapsed < c.stepTime done) (d : Drone)
    (kinds : List String) : (c.timetableFrom done d kinds).due elapsed = [] :=
  Timetable.due_of_early fun _ member => Nat.lt_of_lt_of_le early (stepTime_le_of_mem member)

section

variable {i : Nat} (found : kinds[i]? = some kind)

include found

theorem applied_mem_due_iff :
    (⟨i + 1, some kind, c.grid.shown (c.grid.leave c.grid.start (kinds.take i)) kind⟩
      ∈ (c.timetable kinds).due elapsed ↔ c.stepTime i ≤ elapsed) := by
  simp only [Timetable.mem_due_iff, mem_timetable_iff, mem_blockTimes_iff]
  constructor
  · rintro ⟨time, ⟨-, other⟩ | ⟨j, kind', found', ⟨rfl, same⟩ | ⟨raised, -, same⟩⟩, due⟩
    · cases other
    · cases same
      exact due
    · -- the frame that puts a flip down is another one
      simp only [Frame.mk.injEq, Nat.add_right_cancel_iff, Option.some.injEq] at same
      obtain ⟨rfl, rfl, level⟩ := same
      rw [level] at raised
      cases raised
  · intro due
    exact ⟨c.stepTime i, .inr ⟨i, kind, found, .inl ⟨rfl, rfl⟩⟩, due⟩

theorem lowered_mem_due_iff
    (raised : (c.grid.shown (c.grid.leave c.grid.start (kinds.take i)) kind).flipping = true) :
    (⟨i + 1, some kind,
        (c.grid.shown (c.grid.leave c.grid.start (kinds.take i)) kind).settled⟩
      ∈ (c.timetable kinds).due elapsed ↔ c.stepTime i + c.flipShown ≤ elapsed) := by
  simp only [Timetable.mem_due_iff, mem_timetable_iff, mem_blockTimes_iff]
  constructor
  · rintro ⟨time, ⟨-, other⟩ | ⟨j, kind', found', ⟨-, same⟩ | ⟨-, rfl, same⟩⟩, due⟩
    · cases other
    · -- the frame that raises it is another one
      simp only [Frame.mk.injEq, Nat.add_right_cancel_iff, Option.some.injEq] at same
      obtain ⟨rfl, rfl, level⟩ := same
      rw [← level] at raised
      cases raised
    · cases same
      exact due
  · intro due
    exact ⟨c.stepTime i + c.flipShown, .inr ⟨i, kind, found, .inr ⟨raised, rfl, rfl⟩⟩, due⟩

end

theorem due_blockTimes_of_flipping (flips : (c.grid.shown d kind).flipping = true)
    (due : c.stepTime done ≤ elapsed) :
    (c.blockTimes done d kind).due elapsed =
      ⟨done + 1, some kind, c.grid.shown d kind⟩ ::
        if c.stepTime done + c.flipShown ≤ elapsed then
          [⟨done + 1, some kind, (c.grid.shown d kind).settled⟩]
        else [] := by
  rw [blockTimes_of_flipping flips, Timetable.due]
  split <;> simp [*]

theorem due_blockTimes_of_level (level : (c.grid.shown d kind).flipping = false)
    (due : c.stepTime done ≤ elapsed) :
    (c.blockTimes done d kind).due elapsed = [⟨done + 1, some kind, c.grid.shown d kind⟩] := by
  simp [blockTimes_of_level level, Timetable.due, due]

end Course

end FlightBlocks
