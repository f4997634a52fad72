import FlightBlocks.Preview.Trace
import Mathlib.Data.List.Induction
import Mathlib.Data.Nat.Find
import Mathlib.Data.Set.Card
/-!
The number of flips in any list of frames, whether a run has shown it or not. They are counted with
one look at each frame and at the frame before it, and come to the stretches of frames that show a
flip, each taken as long as it is. Lists put together have the flips of both, but for one that goes
on from the first list into the second.
-/

namespace FlightBlocks.Trace

def startsFlipping (frames : Trace) : Bool := frames.head?.any (·.drone.flipping)

def endsFlipping (frames : Trace) : Bool := frames.getLast?.any (·.drone.flipping)

def rises (frames : Trace) : Nat :=
  (frames.zip frames.tail).countP fun pair => !pair.1.drone.flipping && pair.2.drone.flipping

def flippingAt (frames : Trace) (k : Nat) : Bool := frames[k]?.any (·.drone.flipping)

/-- The frames from place `i` to before place `j` all show a flip. The frames next to them, where
there are any, show none. -/
structure Stretch (frames : Trace) (i j : Nat) : Prop where
  nonempty : i < j
  up : ∀ k, i ≤ k → k < j → frames.flippingAt k = true
  before : ∀ k, k + 1 = i → frames.flippingAt k = false
  behind : frames.flippingAt j = false

def Begins (frames : Trace) (i : Nat) : Prop :=
  frames.flippingAt i = true ∧ ∀ k, k + 1 = i → frames.flippingAt k = false

theorem flipsAfter_carried (flipping : Bool) (frames : Trace) :
    flipsAfter flipping frames + (if flipping && frames.startsFlipping then 1 else 0) =
      flips frames := by
  cases frames with
  | nil => simp [flips, flipsAfter, startsFlipping]
  | cons f fs =>
    cases flipping <;> cases up : f.drone.flipping <;>
      simp [flips, flipsAfter, startsFlipping, up, Nat.add_comm]

theorem flipsAfter_append (flipping : Bool) (frames more : Trace) :
    flipsAfter flipping (frames ++ more) +
        (if (frames.getLast?.map (·.drone.flipping)).getD flipping && more.startsFlipping
          then 1 else 0) =
      flipsAfter flipping frames + flips more := by
  induction frames generalizing flipping with
  | nil =>
    rw [flipsAfter, Nat.zero_add]
    exact flipsAfter_carried flipping more
  | cons f fs ih =>
    -- `more` follows the last of `fs`, or `f` where `fs` is empty
    have last : ((f :: fs).getLast?.map (·.drone.flipping)).getD flipping =
        (fs.getLast?.map (·.drone.flipping)).getD f.drone.flipping := by
      rw [List.getLast?_cons]
      cases fs.getLast? <;> rfl
    rw [last, List.cons_append, flipsAfter, flipsAfter, Nat.add_assoc, ih, Nat.add_assoc]

theorem flips_append (frames more : Trace) :
    flips (frames ++ more) + (if frames.endsFlipping && more.startsFlipping then 1 else 0) =
      flips frames + flips more := by
  have ends : (frames.getLast?.map (·.drone.flipping)).getD false = frames.endsFlipping := by
    unfold endsFlipping
    cases frames.getLast? <;> rfl
  rw [← ends]
  exact flipsAfter_append false frames more

theorem flips_concat (frames : Trace) (f : Frame) :
    flips (frames ++ [f]) =
      flips frames + if f.drone.flipping && !frames.endsFlipping then 1 else 0 := by
  have joined := flips_append frames [f]
  cases up : f.drone.flipping <;> cases ends : frames.endsFlipping <;>
    simpa [flips, flipsAfter, startsFlipping, up, ends] using joined

theorem endsFlipping_eq_false_iff {frames : Trace} : frames.endsFlipping = false ↔
    frames = [] ∨ ∃ last, frames.getLast? = some last ∧ last.drone.flipping = false := by
  rcases List.eq_nil_or_concat frames with rfl | ⟨before, last, rfl⟩
  · simp [endsFlipping]
  · simp [endsFlipping]

theorem flipsAfter_eq_rises (flipping : Bool) (f : Frame) (fs : Trace) :
    flipsAfter flipping (f :: fs) =
      rises (f :: fs) + if f.drone.flipping && !flipping then 1 else 0 := by
  induction fs generalizing flipping f with
  | nil => simp [flipsAfter, rises]
  | cons g gs ih =>
    have first : rises (f :: g :: gs) =
        rises (g :: gs) + if !f.drone.flipping && g.drone.flipping then 1 else 0 := by
      simp [rises, List.countP_cons]
    rw [flipsAfter, ih, first, Bool.and_comm (!f.drone.flipping), Nat.add_comm]

theorem flips_eq_rises (frames : Trace) :
    flips frames = frames.rises + if frames.startsFlipping then 1 else 0 := by
  cases frames with
  | nil => rfl
  | cons f fs =>
    rw [flips, flipsAfter_eq_rises, Bool.not_false, Bool.and_true]
    rfl

section Places

variable {frames : Trace} {f : Frame} {i j k : Nat}

theorem flippingAt_of_le (beyond : frames.length ≤ k) : frames.flippingAt k = false := by
  rw [flippingAt, List.getElem?_eq_none beyond, Option.any_none]

theorem flippingAt_concat_of_lt (within : k < frames.length) :
    flippingAt (frames ++ [f]) k = frames.flippingAt k := by
  rw [flippingAt, List.getElem?_append_left within, flippingAt]

theorem flippingAt_concat_length : flippingAt (frames ++ [f]) frames.length = f.drone.flipping := by
  rw [flippingAt, List.getElem?_concat_length, Option.any_some]

theorem flippingAt_of_last (last : k + 1 = frames.length) :
    frames.flippingAt k = frames.endsFlipping := by
  rw [flippingAt, endsFlipping, List.getLast?_eq_getElem?, ← last, Nat.add_sub_cancel]

theorem not_flippingAt_last_iff :
    (∀ k, k + 1 = frames.length → frames.flippingAt k = false) ↔ frames.endsFlipping = false := by
  constructor
  · intro level
    rcases Nat.eq_zero_or_pos frames.length with empty | nonempty
    · rw [List.length_eq_zero_iff.1 empty]
      rfl
    · have last : frames.length - 1 + 1 = frames.length := Nat.sub_add_cancel nonempty
      rw [← flippingAt_of_last last]
      exact level _ last
  · intro level k last
    rw [flippingAt_of_last last, level]

theorem begins_concat_iff : Begins (frames ++ [f]) i ↔
    frames.Begins i ∨
      i = frames.length ∧ f.drone.flipping = true ∧ frames.endsFlipping = false := by
  have earlier : i ≤ frames.length →
      ((∀ k, k + 1 = i → flippingAt (frames ++ [f]) k = false) ↔
        ∀ k, k + 1 = i → frames.flippingAt k = false) := by
    intro within
    refine forall_congr' fun k => forall_congr' fun next => ?_
    rw [flippingAt_concat_of_lt (by omega)]
  rcases Nat.lt_trichotomy i frames.length with within | rfl | beyond
  · have other : i ≠ frames.length := Nat.ne_of_lt within
    rw [Begins, Begins, earlier (Nat.le_of_lt within), flippingAt_concat_of_lt within]
    simp only [other, false_and, or_false]
  · have none : ¬ frames.Begins frames.length := by
      intro begins
      rw [Begins, flippingAt_of_le (Nat.le_refl _)] at begins
      cases begins.1
    rw [Begins, earlier (Nat.le_refl _), flippingAt_concat_length, not_flippingAt_last_iff]
    simp only [none, false_or, true_and]
  · have other : i ≠ frames.length := Nat.ne_of_gt beyond
    have past : (frames ++ [f]).length ≤ i := by
      rw [List.length_append, List.length_singleton]
      exact beyond
    rw [Begins, Begins, flippingAt_of_le past, flippingAt_of_le (Nat.le_of_lt beyond)]
    simp only [other, Bool.false_eq_true, false_and, or_false]

theorem encard_begins (frames : Trace) : {i | frames.Begins i}.encard = frames.flips := by
  induction frames using List.reverseRecOn with
  | nil =>
    have none : {i | Begins [] i} = ∅ := by
      ext i
      simp [Begins, flippingAt]
    rw [none, Set.encard_empty]
    rfl
  | append_singleton frames f ih =>
    rw [flips_concat]
    -- one frame more begins a flip in its own place, or none
    by_cases more : f.drone.flipping = true ∧ endsFlipping frames = false
    · have places : {i | Begins (frames ++ [f]) i} =
          insert frames.length {i | Begins frames i} := by
        ext i
        rw [Set.mem_ofPred_eq, begins_concat_iff, Set.mem_insert_iff, Set.mem_ofPred_eq, or_comm]
        simp only [more, and_self, and_true]
      have new : frames.length ∉ {i | Begins frames i} := by
        intro begins
        exact Bool.false_ne_true ((flippingAt_of_le (Nat.le_refl _)).symm.trans begins.1)
      rw [places, Set.encard_insert_of_notMem new, ih, more.1, more.2]
      rfl
    · have places : {i | Begins (frames ++ [f]) i} = {i | Begins frames i} := by
        ext i
        rw [Set.mem_ofPred_eq, begins_concat_iff, Set.mem_ofPred_eq]
        simp only [more, and_false, or_false]
      have kept : ¬ (f.drone.flipping && !endsFlipping frames) = true := by
        simpa using more
      rw [places, ih, if_neg kept, Nat.add_zero]

theorem Stretch.begins (stretch : frames.Stretch i j) : frames.Begins i :=
  ⟨stretch.up i (Nat.le_refl i) stretch.nonempty, stretch.before⟩

theorem Stretch.stop_le {j' : Nat} (stretch : frames.Stretch i j) (other : frames.Stretch i j') :
    j ≤ j' := by
  by_contra longer
  have up := stretch.up j' (Nat.le_of_lt other.nonempty) (Nat.lt_of_not_le longer)
  rw [other.behind] at up
  cases up

theorem Begins.exists_stretch (begins : frames.Begins i) : ∃ j, frames.Stretch i j := by
  have lowered : ∃ n, frames.flippingAt (i + n) = false :=
    ⟨frames.length, flippingAt_of_le (Nat.le_add_left _ _)⟩
  have down := Nat.find_spec lowered
  have earlier {n : Nat} (early : n < Nat.find lowered) : frames.flippingAt (i + n) = true :=
    Bool.eq_true_of_not_eq_false (Nat.find_min lowered early)
  refine ⟨i + Nat.find lowered, ?nonempty, ?up, begins.2, down⟩
  case nonempty =>
    refine Nat.lt_add_of_pos_right (Nat.pos_of_ne_zero fun none => ?_)
    rw [none, Nat.add_zero, begins.1] at down
    cases down
  case up =>
    intro k after within
    have up := earlier (n := k - i) (by omega)
    rwa [Nat.add_sub_cancel' after] at up

theorem encard_stretches (frames : Trace) :
    {s : Nat × Nat | frames.Stretch s.1 s.2}.encard = frames.flips := by
  have starts : Prod.fst '' {s : Nat × Nat | frames.Stretch s.1 s.2} = {i | frames.Begins i} := by
    ext i
    constructor
    · rintro ⟨s, stretch, rfl⟩
      exact stretch.begins
    · intro begins
      obtain ⟨j, stretch⟩ := begins.exists_stretch
      exact ⟨(i, j), stretch, rfl⟩
  have apart : Set.InjOn Prod.fst {s : Nat × Nat | frames.Stretch s.1 s.2} := by
    rintro ⟨i, j⟩ stretch ⟨i', j'⟩ other same
    obtain rfl : i = i' := same
    have stop : j = j' := Nat.le_antisymm (stretch.stop_le other) (other.stop_le stretch)
    rw [stop]
  calc {s : Nat × Nat | frames.Stretch s.1 s.2}.encard
    _ = (Prod.fst '' {s : Nat × Nat | frames.Stretch s.1 s.2}).encard := apart.encard_image.symm
    _ = {i | frames.Begins i}.encard := by rw [starts]
    _ = frames.flips := encard_begins frames

end Places

/-- Each flip is counted once: the flips are the maximal stretches of frames that show one. They are
counted where a frame that shows a flip follows one that shows none, or follows none at all. So a
frame put behind the others adds one just if it shows a flip and the frame before it, if any, does
not; and a flip that goes on from one list into the next is one flip of both together. -/
theorem flips_are_stretches (frames : Trace) :
    {s : Nat × Nat | frames.Stretch s.1 s.2}.encard = frames.flips ∧
      frames.flips = frames.rises + (if frames.startsFlipping then 1 else 0) ∧
      (∀ f : Frame,
        (flips (frames ++ [f]) = frames.flips + 1 ↔ f.drone.flipping = true ∧
          (frames = [] ∨ ∃ last, frames.getLast? = some last ∧ last.drone.flipping = false)) ∧
        (flips (frames ++ [f]) = frames.flips ∨ flips (frames ++ [f]) = frames.flips + 1)) ∧
      ∀ more : Trace,
        flips (frames ++ more) + (if frames.endsFlipping && more.startsFlipping then 1 else 0) =
          frames.flips + more.flips := by
  refine ⟨encard_stretches frames, flips_eq_rises frames, fun f => ?_, flips_append frames⟩
  rw [← endsFlipping_eq_false_iff, flips_concat]
  cases f.drone.flipping <;> cases frames.endsFlipping <;> simp

example : flips ([true, false, true, true].map fun flipping =>
    ⟨1, none, ⟨0, 0, .airborne, 0, flipping⟩⟩) = 2 := by
  decide

end FlightBlocks.Trace
