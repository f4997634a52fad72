import FlightBlocks.Proofs.Preview.Grid
import FlightBlocks.Proofs.Preview.Outcome
import FlightBlocks.Proofs.Sequence.Literal
import Mathlib.Data.List.Induction
/-!
The preview of a block list and the program that it compiles to are read from the same tokens by
two tables. They agree: the flips shown are the flips flown, and the drone ends in the cell to which
the directives lead from the start.
-/

namespace FlightBlocks

/-- Where a directive leads from a cell, when the coordinates go from 0 to `greatest`. -/
def Directive.fly (greatest : Nat) : Directive → Nat × Nat → Nat × Nat
  | .forward, (x, y) => (x, y - 1)
  | .back, (x, y) => (x, min (y + 1) greatest)
  | .left, (x, y) => (x - 1, y)
  | .right, (x, y) => (min (x + 1) greatest, y)
  | .normal, cell => cell
  | .flip, cell => cell

def Drone.cell (d : Drone) : Nat × Nat := (d.x.toNat, d.y.toNat)

def setsAltitude (kind : String) : Bool := kind == Kind.takeOff.token || kind == Kind.land.token

namespace Grid

def flown (g : Grid) (cell : Nat × Nat) (directives : List Directive) : Nat × Nat :=
  directives.foldl (fun cell d => d.fly g.greatest.toNat cell) cell

variable {g : Grid} {d : Drone}

theorem shown_of_unknown {kind : String} (unknown : Kind.ofToken? kind = none) :
    g.shown d kind = d := by
  simp only [shown, Action.ofToken, unknown, Drone.apply]

theorem shown_token (k : Kind) : g.shown d k.token = d.apply g (.ofKind k) := by
  simp only [shown, Action.ofToken, Kind.ofToken?_token]

theorem holds_shown (on : g.Holds d) (kind : String) : g.Holds (g.shown d kind) :=
  holds_apply on _

theorem cell_shown_token (on : g.Holds d) (k : Kind) :
    (g.shown d k.token).cell = k.directive?.elim d.cell (·.fly g.greatest.toNat d.cell) := by
  obtain ⟨onX, onY⟩ := on
  rw [shown_token]
  cases k with
  | takeOff => rfl
  | land => rfl
  | forward =>
    exact Prod.ext (Action.toNat_stepAxis_still onX) (Action.toNat_stepAxis_back onY)
  | back => exact Prod.ext (Action.toNat_stepAxis_still onX) (Action.toNat_stepAxis_onward onY)
  | left => exact Prod.ext (Action.toNat_stepAxis_back onX) (Action.toNat_stepAxis_still onY)
  | right => exact Prod.ext (Action.toNat_stepAxis_onward onX) (Action.toNat_stepAxis_still onY)
  | rotate => rfl

theorem cell_shown (on : g.Holds d) (kind : String) :
    (g.shown d kind).cell =
      (Directive.ofKindToken? kind).elim d.cell (·.fly g.greatest.toNat d.cell) := by
  cases known : Kind.ofToken? kind with
  | none =>
    rw [shown_of_unknown known, Directive.ofKindToken?, known]
    rfl
  | some k =>
    rw [Directive.ofKindToken?, known, ← Kind.token_of_ofToken? known]
    exact cell_shown_token on k

theorem cell_shown_of_none {kind : String} (none : Directive.ofKindToken? kind = none) :
    (g.shown d kind).cell = d.cell := by
  cases known : Kind.ofToken? kind with
  | none => rw [shown_of_unknown known]
  | some k =>
    rw [Directive.ofKindToken?, known] at none
    rw [← Kind.token_of_ofToken? known, shown_token]
    cases k with
    | takeOff => rfl
    | land => rfl
    | _ => cases none

theorem flipping_shown (level : d.flipping = false) (kind : String) :
    (g.shown d kind).flipping = (Directive.ofKindToken? kind == some .flip) := by
  cases known : Kind.ofToken? kind with
  | none =>
    rw [shown_of_unknown known, level, Directive.ofKindToken?, known]
    rfl
  | some k =>
    rw [Directive.ofKindToken?, known, ← Kind.token_of_ofToken? known, shown_token]
    cases k with
    | rotate => rfl
    | _ => exact level

theorem flipping_shown_iff {kind : String} (level : d.flipping = false) :
    (g.shown d kind).flipping = true ↔ kind = Kind.rotate.token := by
  rw [flipping_shown level, beq_iff_eq]
  constructor
  · intro flown
    obtain ⟨k, known, directive⟩ := Option.bind_eq_some_iff.1 flown
    rw [← Kind.token_of_ofToken? known]
    cases k with
    | rotate => rfl
    | _ => cases directive
  · rintro rfl
    rfl

theorem altitude_shown (kind : String) :
    (g.shown d kind).altitude =
      if setsAltitude kind then
        if kind = Kind.takeOff.token then .airborne else .grounded
      else d.altitude := by
  cases known : Kind.ofToken? kind with
  | none =>
    have neither : setsAltitude kind = false := by
      refine Bool.eq_false_iff.2 fun sets => ?_
      rcases Bool.or_eq_true_iff.1 sets with same | same <;>
        rw [beq_iff_eq.1 same, Kind.ofToken?_token] at known <;> cases known
    rw [shown_of_unknown known, neither]
    rfl
  | some k =>
    rw [← Kind.token_of_ofToken? known, shown_token]
    cases k <;> rfl

section Leave

variable (kinds : List String)

theorem cell_leave (on : g.Holds d) :
    (g.leave d kinds).cell = g.flown d.cell (kinds.filterMap Directive.ofKindToken?) := by
  induction kinds generalizing d with
  | nil => rfl
  | cons kind kinds ih =>
    have on' : g.Holds (g.shown d kind).settled := holds_shown on kind
    have moved : (g.shown d kind).settled.cell =
        (Directive.ofKindToken? kind).elim d.cell (·.fly g.greatest.toNat d.cell) :=
      cell_shown on kind
    have rest := ih on'
    rw [moved] at rest
    refine rest.trans ?_
    cases flown : Directive.ofKindToken? kind with
    | none => rw [List.filterMap_cons_none flown]; rfl
    | some directive => rw [List.filterMap_cons_some flown]; rfl

theorem altitude_leave :
    (g.leave g.start kinds).altitude = .airborne ↔
      (kinds.filter setsAltitude).getLast? = some Kind.takeOff.token := by
  induction kinds using List.reverseRecOn with
  | nil => simp [leave, start, Drone.groundedAt]
  | append_singleton kinds kind ih =>
    have altitude : (g.leave g.start (kinds ++ [kind])).altitude =
        (g.shown (g.leave g.start kinds) kind).altitude := by
      rw [leave_concat]
      rfl
    rw [altitude, altitude_shown, List.filter_append]
    cases sets : setsAltitude kind with
    | false => simpa [sets] using ih
    | true =>
      have last : [kind].filter setsAltitude = [kind] := by simp [sets]
      rw [last, List.getLast?_concat]
      by_cases up : kind = Kind.takeOff.token <;> simp [up]

end Leave

def flipsFlown (kinds : List String) : Nat :=
  (kinds.filterMap Directive.ofKindToken?).count .flip

theorem flipsFlown_cons (level : d.flipping = false) (kind : String) (kinds : List String) :
    flipsFlown (kind :: kinds) = (g.shown d kind).flipping.toNat + flipsFlown kinds := by
  rw [flipping_shown level, flipsFlown, flipsFlown]
  cases flown : Directive.ofKindToken? kind with
  | none =>
    rw [List.filterMap_cons_none flown]
    simp
  | some directive =>
    rw [List.filterMap_cons_some flown, List.count_cons, Nat.add_comm]
    cases directive <;> rfl

theorem flipsAfter_blockFrames (step : Nat) (kind : String) (rest : Trace) :
    Trace.flipsAfter false (g.blockFrames step d kind ++ rest) =
      (g.shown d kind).flipping.toNat + Trace.flipsAfter false rest := by
  cases flips : (g.shown d kind).flipping with
  | true =>
    rw [blockFrames_of_flipping g flips]
    simp [Trace.flipsAfter, flips, Drone.settled]
  | false =>
    rw [blockFrames_of_level g flips]
    simp [Trace.flipsAfter, flips]

theorem length_blockFrames (step : Nat) (kind : String) :
    (g.blockFrames step d kind).length = 1 + (g.shown d kind).flipping.toNat := by
  cases flips : (g.shown d kind).flipping with
  | true => rw [blockFrames_of_flipping g flips]; rfl
  | false => rw [blockFrames_of_level g flips]; rfl

theorem flipsAfter_framesFrom (done : Nat) (level : d.flipping = false) (kinds : List String) :
    Trace.flipsAfter false (g.framesFrom done d kinds) = flipsFlown kinds := by
  induction kinds generalizing done d with
  | nil => rfl
  | cons kind kinds ih =>
    have rest := ih (d := (g.shown d kind).settled) (done + 1) rfl
    rw [framesFrom, flipsAfter_blockFrames, rest, ← flipsFlown_cons level]

theorem length_framesFrom (done : Nat) (level : d.flipping = false) (kinds : List String) :
    (g.framesFrom done d kinds).length = kinds.length + flipsFlown kinds := by
  induction kinds generalizing done d with
  | nil => rfl
  | cons kind kinds ih =>
    have rest := ih (d := (g.shown d kind).settled) (done + 1) rfl
    rw [framesFrom, List.length_append, length_blockFrames, rest, List.length_cons,
      flipsFlown_cons (g := g) level]
    omega

variable (g)

theorem flips_frames (kinds : List String) : Trace.flips (g.frames kinds) = flipsFlown kinds := by
  have rest := flipsAfter_framesFrom (g := g) (d := g.start) 0 rfl kinds
  rw [Trace.flips, frames, Trace.flipsAfter]
  simp only [Frame.start, start, Drone.groundedAt] at rest ⊢
  simpa using rest

theorem length_frames (kinds : List String) :
    (g.frames kinds).length = 1 + kinds.length + flipsFlown kinds := by
  have rest := length_framesFrom (g := g) (d := g.start) 0 rfl kinds
  rw [frames, List.length_cons, rest]
  omega

theorem steps_frames (kinds : List String) : Trace.steps (g.frames kinds) = kinds.length := by
  rw [Trace.steps, frames_getLast?]

end Grid

theorem validate_of_open {course : Course} {opened : Session}
    (valid : Session.open? course = .ok opened) : course.grid.validate = .ok () :=
  (Session.open?_eq_ok_iff.1 valid).1

/-- The preview of `kinds` and the program compiled from them agree, at whatever pace the preview
runs: on the number of flips, and on the cell in which the drone ends. Every block is one step, and
every flip one frame more. Programs with the same literal end in the same cell after as many
flips. -/
theorem preview_agrees_with_program {course : Course} {opened : Session}
    (valid : Session.open? course = .ok opened) (kinds : List String) :
    let program := Program.ofKinds kinds
    (∀ o, Run.Completes course kinds o →
        o.trace.flips = program.directives.count .flip ∧
          o.trace.length = 1 + kinds.length + program.directives.count .flip ∧
          o.trace.steps = kinds.length ∧
          o.final.cell = course.grid.flown course.grid.start.cell program.directives ∧
          (o.final.altitude = .airborne ↔
            (kinds.filter setsAltitude).getLast? = some Kind.takeOff.token)) ∧
      (∀ d kind, kind = Kind.takeOff.token ∨ kind = Kind.land.token ∨ Kind.ofToken? kind = none →
        (course.grid.shown d kind).cell = d.cell) ∧
      (∀ (course' : Course) (kinds' : List String) (o o' : RunOutcome),
        course'.grid = course.grid → (Program.ofKinds kinds').literal = program.literal →
        Run.Completes course kinds o → Run.Completes course' kinds' o' →
          o.final.cell = o'.final.cell ∧ o.trace.flips = o'.trace.flips) ∧
      (kinds ≠ [] → ∀ calls : List Session.Call, (opened.after calls).busy = false →
        ∃ o s, (opened.after calls).run kinds = .ok (some o, s) ∧
          Run.Completes course kinds o) := by
  have on : course.grid.Holds course.grid.start := Grid.holds_start (validate_of_open valid)
  refine ⟨?_, ?_, ?_, ?_⟩
  · rintro o completes
    rw [completes.eq]
    exact ⟨Grid.flips_frames _ kinds, Grid.length_frames _ kinds, Grid.steps_frames _ kinds,
      Grid.cell_leave kinds on, Grid.altitude_leave kinds⟩
  · rintro d kind none
    refine Grid.cell_shown_of_none ?_
    rcases none with rfl | rfl | unknown
    · rfl
    · rfl
    · rw [Directive.ofKindToken?, unknown]
      rfl
  · intro course' kinds' o o' same literal completes completes'
    have directives : kinds'.filterMap Directive.ofKindToken? =
        kinds.filterMap Directive.ofKindToken? := literal_injective literal
    rw [completes.eq, completes'.eq, same]
    constructor
    · rw [Grid.cell_leave kinds on, Grid.cell_leave kinds' on, directives]
    · rw [Grid.flips_frames, Grid.flips_frames, Grid.flipsFlown, Grid.flipsFlown, directives]
  · intro nonempty calls idle
    have ran := Session.run_of_idle nonempty idle
    rwa [Session.course_of_open valid] at ran

def borderKinds : List String := ["take_off", "left_1s", "rotate", "hover_5s", "rotate", "back_1s"]

theorem preview_borderKinds :
    Session.open? ⟨⟨2, 0, 1⟩, 0, 0, 0⟩ = .ok ⟨⟨⟨2, 0, 1⟩, 0, 0, 0⟩, 0, false, [], none, none⟩ ∧
      ∃ o, Run.Completes ⟨⟨2, 0, 1⟩, 0, 0, 0⟩ borderKinds o ∧ o.trace.flips = 2 ∧
        o.trace.length = 9 ∧ o.final.cell = (0, 1) ∧ o.final.altitude = .airborne := by
  have valid : Session.open? ⟨⟨2, 0, 1⟩, 0, 0, 0⟩ =
      .ok ⟨⟨⟨2, 0, 1⟩, 0, 0, 0⟩, 0, false, [], none, none⟩ := rfl
  obtain ⟨agrees, -, -, exists'⟩ := preview_agrees_with_program valid borderKinds
  obtain ⟨o, -, -, completes⟩ := exists' (by decide) [] rfl
  obtain ⟨flips, length, -, cell, altitude⟩ := agrees o completes
  exact ⟨valid, o, completes, flips, length, cell, altitude.2 (by decide)⟩

end FlightBlocks
