import FlightBlocks.Preview.Run
import FlightBlocks.Proofs.Preview.Flight
/-!
Which frames of a block list are followed by a pause of some length, and so are seen by one who
looks in every pause: not the start of a run without a lead-in, no flip that is shown for no time,
and no flip put down only when the next block is due.
-/

namespace FlightBlocks

theorem append_eq_append_iff_of_sublist {α : Type} {front back wholeFront wholeBack : List α}
    (fronts : front.Sublist wholeFront) (backs : back.Sublist wholeBack) :
    front ++ back = wholeFront ++ wholeBack ↔ front = wholeFront ∧ back = wholeBack := by
  constructor
  · intro same
    have lengths := congrArg List.length same
    have shorter := fronts.length_le
    have shorter' := backs.length_le
    simp only [List.length_append] at lengths
    exact ⟨fronts.eq_of_length (by omega), backs.eq_of_length (by omega)⟩
  · rintro ⟨rfl, rfl⟩
    rfl

namespace Course

/-- The frames of one block that are seen. A flip is seen to be put down if some of the step is left
then, or nothing comes after it. -/
def blockSeen (c : Course) (step : Nat) (d : Drone) (kind : String) (last : Bool) : List Frame :=
  let shown := c.grid.shown d kind
  if shown.flipping then
    (if 0 < c.flipShown then [⟨step, some kind, shown⟩] else []) ++
      (if c.flipShown < c.stepDelay ∨ last then [⟨step, some kind, shown.settled⟩] else [])
  else [⟨step, some kind, shown⟩]

def seenFrom (c : Course) (done : Nat) (d : Drone) : List String → List Frame
  | [] => []
  | kind :: kinds =>
    c.blockSeen (done + 1) d kind kinds.isEmpty ++
      c.seenFrom (done + 1) (c.grid.shown d kind).settled kinds

def seen (c : Course) (kinds : List String) : List Frame :=
  (if 0 < c.startDelay ∨ kinds = [] then [.start c.grid.start] else []) ++
    c.seenFrom 0 c.grid.start kinds

variable {c : Course} {step : Nat} {d : Drone} {kind : String} {last : Bool}

theorem blockSeen_of_flipping (flips : (c.grid.shown d kind).flipping = true) :
    c.blockSeen step d kind last =
      (if 0 < c.flipShown then [⟨step, some kind, c.grid.shown d kind⟩] else []) ++
        (if c.flipShown < c.stepDelay ∨ last then
          [⟨step, some kind, (c.grid.shown d kind).settled⟩] else []) := by
  simp only [blockSeen, flips, ↓reduceIte]

theorem blockSeen_of_level (level : (c.grid.shown d kind).flipping = false) :
    c.blockSeen step d kind last = c.grid.blockFrames step d kind := by
  rw [Grid.blockFrames_of_level _ level]
  simp [blockSeen, level]

theorem blockSeen_sublist (c : Course) (step : Nat) (d : Drone) (kind : String) (last : Bool) :
    (c.blockSeen step d kind last).Sublist (c.grid.blockFrames step d kind) := by
  cases flips : (c.grid.shown d kind).flipping with
  | false => exact (blockSeen_of_level flips).symm ▸ List.Sublist.refl _
  | true =>
    have one (shown : Prop) [Decidable shown] (f : Frame) :
        (if shown then [f] else []).Sublist [f] := by
      split <;> simp
    rw [blockSeen_of_flipping flips, Grid.blockFrames_of_flipping _ flips]
    exact (one _ _).append (one _ _)

theorem blockSeen_eq_iff :
    c.blockSeen step d kind last = c.grid.blockFrames step d kind ↔
      ((c.grid.shown d kind).flipping = true →
        0 < c.flipShown ∧ (c.flipShown < c.stepDelay ∨ last = true)) := by
  cases flips : (c.grid.shown d kind).flipping with
  | false => simp [blockSeen_of_level flips]
  | true =>
    rw [blockSeen_of_flipping flips, Grid.blockFrames_of_flipping _ flips]
    by_cases long : 0 < c.flipShown <;>
      by_cases left : c.flipShown < c.stepDelay ∨ last = true <;>
        simp [long, left, Drone.settled]

theorem seenFrom_sublist (c : Course) (done : Nat) (d : Drone) (kinds : List String) :
    (c.seenFrom done d kinds).Sublist (c.grid.framesFrom done d kinds) := by
  induction kinds generalizing done d with
  | nil => exact List.Sublist.refl _
  | cons kind kinds ih => exact (blockSeen_sublist c _ _ _ _).append (ih _ _)

theorem seen_sublist (c : Course) (kinds : List String) :
    (c.seen kinds).Sublist (c.grid.frames kinds) := by
  have one : (if 0 < c.startDelay ∨ kinds = [] then [Frame.start c.grid.start] else []).Sublist
      [.start c.grid.start] := by
    split <;> simp
  exact one.append (seenFrom_sublist c 0 _ kinds)

theorem seenFrom_eq_iff (done : Nat) (level : d.flipping = false) (kinds : List String) :
    c.seenFrom done d kinds = c.grid.framesFrom done d kinds ↔
      (Kind.rotate.token ∈ kinds → 0 < c.flipShown) ∧
        (Kind.rotate.token ∈ kinds.dropLast → c.flipShown < c.stepDelay) := by
  induction kinds generalizing done d with
  | nil => simp [seenFrom, Grid.framesFrom]
  | cons kind kinds ih =>
    have later := ih (d := (c.grid.shown d kind).settled) (done + 1) rfl
    rw [seenFrom, Grid.framesFrom,
      append_eq_append_iff_of_sublist (blockSeen_sublist _ _ _ _ _) (seenFrom_sublist _ _ _ _),
      later, blockSeen_eq_iff, Grid.flipping_shown_iff level]
    cases kinds with
    | nil => simp [eq_comm]
    | cons next rest =>
      simp only [List.isEmpty_cons, Bool.false_eq_true, or_false, List.dropLast_cons_cons,
        List.mem_cons]
      grind

/-- A pause lies between any two frames of `kinds`: before the first block, between a flip put up
and put down, and between a flip put down and the next block. -/
structure Lingers (c : Course) (kinds : List String) : Prop where
  start : 0 < c.startDelay
  raised : Kind.rotate.token ∈ kinds → 0 < c.flipDuration
  lowered : Kind.rotate.token ∈ kinds.dropLast → c.flipDuration < c.stepDelay

theorem seen_eq_iff {kinds : List String} (nonempty : kinds ≠ []) (paced : 0 < c.stepDelay) :
    c.seen kinds = c.grid.frames kinds ↔ c.Lingers kinds := by
  have start : (if 0 < c.startDelay ∨ kinds = [] then [Frame.start c.grid.start] else []) =
      [Frame.start c.grid.start] ↔ 0 < c.startDelay := by
    simp [nonempty, Nat.pos_iff_ne_zero]
  have shown : 0 < c.flipShown ↔ 0 < c.flipDuration := by
    rw [flipShown]
    omega
  have left : c.flipShown < c.stepDelay ↔ c.flipDuration < c.stepDelay := by
    rw [flipShown]
    omega
  have whole : c.grid.frames kinds =
      [.start c.grid.start] ++ c.grid.framesFrom 0 c.grid.start kinds := rfl
  rw [seen, whole, append_eq_append_iff_of_sublist _ (seenFrom_sublist _ _ _ _), start,
    seenFrom_eq_iff 0 rfl, shown, left]
  · exact ⟨fun ⟨start, raised, lowered⟩ => ⟨start, raised, lowered⟩,
      fun ⟨start, raised, lowered⟩ => ⟨start, raised, lowered⟩⟩
  · split <;> simp

end Course

end FlightBlocks
