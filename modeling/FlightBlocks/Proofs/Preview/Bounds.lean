import FlightBlocks.Proofs.Preview.Busy
import FlightBlocks.Proofs.Preview.Flight
import FlightBlocks.Proofs.Preview.Picture
import Mathlib.Data.List.Forall2
/-!
The drone stays on the grid, and it is drawn where it is. A step is clamped to the grid, so all
frames of a block list show the drone on it; a run has shown nothing but frames of its blocks; and
every run of a simulator is one over some blocks. A simulator opens on grids that are too large to
be drawn, too; drawing the frames of its runs breaks off at the first.
-/

namespace FlightBlocks

open List (Forall₂)

/-- Every frame shows the drone on the grid with the heading it started with. If the grid can be
drawn, the drawing of the frame has the one mark of the drone in its cell. -/
structure Trace.OnGrid (g : Grid) (trace : Trace) : Prop where
  holds : ∀ f ∈ trace, g.Holds f.drone
  heading : ∀ f ∈ trace, f.drone.heading = 0
  drawn : g.size.toNat ≤ Grid.mostSize → ∃ texts, trace.replay? g = some texts ∧
    Forall₂ (fun f text => ∃ lines, g.Pictures f.drone text lines) trace texts
  refused : Grid.mostSize < g.size.toNat → (trace.replay? g = none ↔ trace ≠ [])

theorem Trace.replay?_of_le {g : Grid} (small : g.size.toNat ≤ Grid.mostSize) (trace : Trace) :
    trace.replay? g = some (trace.replay g) := by
  induction trace with
  | nil => rfl
  | cons f frames ih =>
    rw [replay?] at ih ⊢
    rw [List.mapM_cons, Grid.draw?_of_le small, ih]
    rfl

theorem Trace.replay?_eq_none_iff {g : Grid} (vast : Grid.mostSize < g.size.toNat) (trace : Trace) :
    trace.replay? g = none ↔ trace ≠ [] := by
  cases trace with
  | nil => simp [replay?]
  | cons f frames => simp [replay?, Grid.draw?_of_lt vast]

theorem Trace.onGrid_iff {g : Grid} {trace : Trace} : trace.OnGrid g ↔ ∀ f ∈ trace,
    g.Holds f.drone ∧ f.drone.heading = 0 ∧
      (g.size.toNat ≤ Grid.mostSize → ∃ lines, g.Pictures f.drone (g.draw f.drone) lines) := by
  have drawn : Forall₂ (fun f text => ∃ lines, g.Pictures f.drone text lines) trace
      (trace.replay g) ↔ ∀ f ∈ trace, ∃ lines, g.Pictures f.drone (g.draw f.drone) lines :=
    List.forall₂_map_right_iff.trans List.forall₂_same
  constructor
  · intro on f member
    refine ⟨on.holds f member, on.heading f member, fun small => ?_⟩
    obtain ⟨texts, made, pictures⟩ := on.drawn small
    cases made.symm.trans (replay?_of_le small trace)
    exact drawn.1 pictures f member
  · intro all
    exact {
      holds := fun f member => (all f member).1
      heading := fun f member => (all f member).2.1
      drawn := fun small => ⟨trace.replay g, replay?_of_le small trace,
        drawn.2 fun f member => (all f member).2.2 small⟩
      refused := fun vast => replay?_eq_none_iff vast trace }

theorem Trace.OnGrid.subset {g : Grid} {trace part : Trace} (on : trace.OnGrid g)
    (within : part ⊆ trace) : part.OnGrid g :=
  Trace.onGrid_iff.2 fun f member => Trace.onGrid_iff.1 on f (within member)

namespace Drone

theorem apply_move (g : Grid) (d : Drone) (dx dy : Int8) :
    ((d.apply g (.move dx dy)).x.toNat : Int) =
        min (g.greatest.toNat : Int) (max 0 (d.x.toNat + dx.toInt)) ∧
      ((d.apply g (.move dx dy)).y.toNat : Int) =
        min (g.greatest.toNat : Int) (max 0 (d.y.toNat + dy.toInt)) ∧
      d.apply g (.move dx dy) =
        { d with x := (d.apply g (.move dx dy)).x, y := (d.apply g (.move dx dy)).y } :=
  ⟨Action.toNat_stepAxis d.x dx g.greatest, Action.toNat_stepAxis d.y dy g.greatest, rfl⟩

theorem heading_apply (g : Grid) (d : Drone) (action : Action) :
    (d.apply g action).heading = d.heading := by
  cases action <;> rfl

end Drone

namespace Grid

variable {g : Grid} {d : Drone}

theorem mem_blockFrames {step : Nat} {kind : String} {f : Frame}
    (member : f ∈ g.blockFrames step d kind) :
    f.drone = g.shown d kind ∨ f.drone = (g.shown d kind).settled := by
  cases flips : (g.shown d kind).flipping with
  | true =>
    rw [blockFrames_of_flipping g flips] at member
    rcases List.mem_cons.1 member with rfl | last
    · exact .inl rfl
    · rw [List.mem_singleton.1 last]
      exact .inr rfl
  | false =>
    rw [blockFrames_of_level g flips] at member
    rw [List.mem_singleton.1 member]
    exact .inl rfl

theorem framesFrom_stay (on : g.Holds d) (ahead : d.heading = 0) (done : Nat)
    (kinds : List String) :
    ∀ f ∈ g.framesFrom done d kinds, g.Holds f.drone ∧ f.drone.heading = 0 := by
  induction kinds generalizing done d with
  | nil => simp [framesFrom]
  | cons kind kinds ih =>
    have on' : g.Holds (g.shown d kind) := holds_shown on kind
    have ahead' : (g.shown d kind).heading = 0 := (Drone.heading_apply g d _).trans ahead
    intro f member
    rcases List.mem_append.1 member with here | later
    · rcases mem_blockFrames here with same | same
      · rw [same]; exact ⟨on', ahead'⟩
      · rw [same]; exact ⟨on', ahead'⟩
    · exact ih (d := (g.shown d kind).settled) on' ahead' (done + 1) f later

theorem frames_stay (valid : g.validate = .ok ()) (kinds : List String) :
    ∀ f ∈ g.frames kinds, g.Holds f.drone ∧ f.drone.heading = 0 := by
  have on := holds_start valid
  intro f member
  rcases List.mem_cons.1 member with rfl | later
  · exact ⟨on, rfl⟩
  · exact framesFrom_stay on rfl 0 kinds f later

theorem onGrid_frames (valid : g.validate = .ok ()) (kinds : List String) :
    Trace.OnGrid g (g.frames kinds) := by
  refine Trace.onGrid_iff.2 fun f member => ?_
  obtain ⟨on, ahead⟩ := frames_stay valid kinds f member
  exact ⟨on, ahead, fun _ => ⟨_, pictures_draw valid on⟩⟩

end Grid

namespace Run

variable {course : Course} {kinds done : List String} {r : Run}

theorem Follows.trace_prefix (follows : Follows course kinds done r) :
    r.trace <+: course.grid.frames done := by
  have shows := follows.shows
  cases phase : r.phase with
  | ready =>
    rw [phase] at shows
    rw [shows.2.1]
    exact List.nil_prefix
  | paused until' =>
    rw [phase] at shows
    exact shows.1 ▸ List.prefix_rfl
  | flipping until' =>
    rw [phase] at shows
    rw [← shows.1]
    exact List.prefix_append _ _
  | ended cancelled =>
    rw [phase] at shows
    exact shows.1 ▸ List.prefix_rfl

theorem Follows.shown_mem (follows : Follows course kinds done r) :
    r.shown ∈ course.grid.frames done := by
  rw [shown]
  cases last : r.trace.getLast? with
  | none =>
    rw [Option.getD_none, follows.same]
    exact List.mem_cons_self
  | some f => exact follows.trace_prefix.subset (List.mem_of_getLast? last)

theorem onGrid_of_reaches (valid : course.grid.validate = .ok ())
    (reaches : Reaches (start course kinds) r) :
    Trace.OnGrid course.grid (r.shown :: r.trace) := by
  obtain ⟨done, follows⟩ := follows_of_reaches reaches
  exact (Grid.onGrid_frames valid done).subset
    (List.cons_subset.2 ⟨follows.shown_mem, follows.trace_prefix.subset⟩)

end Run

namespace Session

variable {s s' : Session}

def Begun (s : Session) : Prop :=
  ∀ (place : Nat) (r : Run), s.runs[place]? = some r →
    ∃ kinds, (Run.start s.course kinds).Reaches r

theorem Begun.onward (begun : Begun s) (onward : Onward s s')
    (new : ∀ (place : Nat) (r : Run), s.runs.length ≤ place → s'.runs[place]? = some r →
      ∃ kinds, (Run.start s'.course kinds).Reaches r) : Begun s' := by
  intro place r' found'
  by_cases old : place < s.runs.length
  · obtain ⟨r'', found'', way⟩ := onward.moved place _ (List.getElem?_eq_getElem old)
    cases found'.symm.trans found''
    obtain ⟨kinds, reaches⟩ := begun place _ (List.getElem?_eq_getElem old)
    rw [onward.course]
    exact ⟨kinds, reaches.trans way⟩
  · exact new place r' (Nat.not_lt.1 old) found'

theorem Begun.of_length (begun : Begun s) (onward : Onward s s')
    (same : s'.runs.length = s.runs.length) : Begun s' := by
  refine begun.onward onward fun place r beyond found => ?_
  have := (List.getElem?_eq_some_iff.1 found).1
  omega

theorem Begun.launch (begun : Begun s) {kinds : List String} {new : Nat}
    (launched : s.launch kinds = .ok (new, s')) : Begun s' := by
  refine begun.onward (onward_launch launched) fun place r beyond found => ?_
  obtain ⟨-, -, rfl⟩ := launch_eq_ok_iff.1 launched
  rw [List.getElem?_append_right beyond] at found
  obtain rfl := List.mem_singleton.1 (List.mem_of_getElem? found)
  exact ⟨kinds, .refl⟩

theorem begun_handle (begun : Begun s) (call : Call) : Begun (s.handle call) := by
  have onward := onward_handle s call
  cases call with
  | start kinds =>
    cases started : s.start kinds with
    | error fault => rwa [handle_start_of_error started]
    | ok s' =>
      obtain ⟨place, launched, ok, rfl⟩ := start_eq_ok_iff.1 started
      rw [handle_start_of_ok started]
      have launched' : Begun launched := begun.launch ok
      exact launched'
  | run kinds =>
    cases ran : s.run kinds with
    | error fault => rwa [handle_run_of_error ran]
    | ok pair =>
      obtain ⟨place, launched, ok, awaited⟩ := run_eq_ok_iff.1 ran
      have waited := (begun.launch ok).of_length (onward_await launched place)
        (length_await launched place)
      rwa [handle_run_of_ok ran, ← show (launched.await place).2 = pair.2 by rw [awaited]]
  | advance ms => exact begun.of_length onward (length_advanceTo s _)
  | cancel => exact begun.of_length onward (length_cancel s)
  | detach => exact begun.of_length onward rfl
  | finish =>
    refine begun.of_length onward ?_
    cases held : s.held with
    | none => simp only [handle, finish, held]
    | some place =>
      rw [handle, finish_eq held]
      exact length_await s place

theorem begun_after (begun : Begun s) (calls : List Call) : Begun (s.after calls) := by
  induction calls generalizing s with
  | nil => exact begun
  | cons call calls ih => exact ih (begun_handle begun call)

theorem begun_open {course : Course} {opened : Session} (valid : open? course = .ok opened) :
    Begun opened := by
  obtain ⟨-, rfl⟩ := open?_eq_ok_iff.1 valid
  intro place r found
  simp at found

theorem Begun.await_onGrid (begun : Begun s) (valid : s.course.grid.validate = .ok ())
    {place : Nat} {o : RunOutcome} (awaited : (s.await place).1 = some o) :
    Trace.OnGrid s.course.grid o.trace := by
  cases found : s.runs[place]? with
  | none => simp [await, found] at awaited
  | some r =>
    obtain ⟨kinds, reaches⟩ := begun place r found
    obtain ⟨r', s', eq, -, onward, -⟩ := await_eq found
    rw [eq] at awaited
    cases awaited
    exact (Run.onGrid_of_reaches valid (reaches.trans onward)).subset (List.subset_cons_self _ _)

end Session

open Session in
/-- A move takes the drone as far as it says and no further than the grid, in exact integers, and
changes nothing else of it. So no frame shows the drone off the grid or turned, be it on show,
recorded in a run, or given when a run has ended, whatever was called for, and however the moves of
a run and the requests to stop it follow on one another; and each drawing of such a frame has one
mark, in the cell of the drone, if a grid of that size can be drawn. -/
theorem drone_stays_on_grid {course : Course} {opened : Session}
    (valid : open? course = .ok opened) (calls : List Call) :
    (∀ (g : Grid) (d : Drone) (dx dy : Int8),
      let moved := d.apply g (.move dx dy)
      (moved.x.toNat : Int) = min (g.greatest.toNat : Int) (max 0 (d.x.toNat + dx.toInt)) ∧
        (moved.y.toNat : Int) = min (g.greatest.toNat : Int) (max 0 (d.y.toNat + dy.toInt)) ∧
        moved = { d with x := moved.x, y := moved.y }) ∧
      (∀ kinds r, (Run.start course kinds).Reaches r →
        Trace.OnGrid course.grid (r.shown :: r.trace)) ∧
      let s := opened.after calls
      (∀ r ∈ s.runs, Trace.OnGrid course.grid (r.shown :: r.trace)) ∧
        (∀ f, s.frame = some f → Trace.OnGrid course.grid [f]) ∧
        (∀ o, s.finish.1 = some o → Trace.OnGrid course.grid o.trace) ∧
        ∀ kinds o s', s.run kinds = .ok (some o, s') → Trace.OnGrid course.grid o.trace := by
  have plain := validate_of_open valid
  have same := course_of_open valid calls
  have begun := begun_after (begun_open valid) calls
  have shown (place : Nat) (r : Run) (found : (opened.after calls).runs[place]? = some r) :
      Trace.OnGrid course.grid (r.shown :: r.trace) := by
    obtain ⟨kinds, reaches⟩ := begun place r found
    rw [same] at reaches
    exact Run.onGrid_of_reaches plain reaches
  refine ⟨Drone.apply_move, fun kinds r => Run.onGrid_of_reaches plain, ?_⟩
  intro s
  refine ⟨?_, ?_, ?_, ?_⟩
  · intro r member
    obtain ⟨place, found⟩ := List.mem_iff_getElem?.1 member
    exact shown place r found
  · intro f published
    obtain ⟨place, -, seen⟩ := Option.bind_eq_some_iff.1 published
    obtain ⟨r, found, rfl⟩ := Option.map_eq_some_iff.1 seen
    exact (shown place r found).subset (by simp)
  · intro o given
    cases held : s.held with
    | none => simp [finish, held] at given
    | some place =>
      rw [finish_eq held] at given
      rw [← same] at plain ⊢
      exact begun.await_onGrid plain given
  · intro kinds o s' ran
    obtain ⟨place, launched, ok, awaited⟩ := run_eq_ok_iff.1 ran
    have course' : launched.course = course := (onward_launch ok).course.trans same
    rw [← course'] at plain ⊢
    exact (begun.launch ok).await_onGrid plain (by rw [awaited])

def cornerCourse : Course := ⟨⟨2, 0, 1⟩, 0, 2, 5⟩

def cornerCalls : List Session.Call :=
  [.start ["left_1s", "back_1s", "rotate", "right_1s"], .advance 5, .cancel]

open Session in
theorem drone_stays_in_corner :
    open? cornerCourse = .ok ⟨cornerCourse, 0, false, [], none, none⟩ ∧
      (∃ r o, (after ⟨cornerCourse, 0, false, [], none, none⟩ cornerCalls).runs = [r] ∧
        r.trace.length = 4 ∧ Trace.OnGrid cornerCourse.grid (r.shown :: r.trace) ∧
        (after ⟨cornerCourse, 0, false, [], none, none⟩ cornerCalls).finish.1 = some o ∧
        o.trace.length = 5 ∧ Trace.OnGrid cornerCourse.grid o.trace) ∧
      let far := (Drone.groundedAt 4294967295 3).apply cornerCourse.grid (.move 127 (-128))
      (far.x.toNat : Int) = min 1 (max 0 (4294967295 + 127)) ∧
        (far.y.toNat : Int) = min 1 (max 0 (3 + -128)) := by
  have valid : open? cornerCourse = .ok ⟨cornerCourse, 0, false, [], none, none⟩ := rfl
  obtain ⟨moved, -, runs, -, given, -⟩ := drone_stays_on_grid valid cornerCalls
  obtain ⟨farX, farY, -⟩ := moved cornerCourse.grid (.groundedAt 4294967295 3) 127 (-128)
  refine ⟨valid, ⟨_, _, rfl, rfl, runs _ (List.mem_singleton_self _), rfl, rfl, given _ rfl⟩,
    farX, farY⟩

def vastCourse : Course := ⟨⟨2147483648, 0, 0⟩, 0, 0, 0⟩

open Session in
/-- A simulator flies on the grid that is too large by one, and nobody can draw what it shows. -/
theorem drone_flies_undrawn :
    open? vastCourse = .ok ⟨vastCourse, 0, false, [], none, none⟩ ∧
      ∃ o s, (Session.mk vastCourse 0 false [] none none).run ["take_off"] = .ok (some o, s) ∧
        o.trace.length = 2 ∧ o.trace.replay? vastCourse.grid = none := by
  have vast : Grid.mostSize < vastCourse.grid.size.toNat := by decide
  refine ⟨rfl, _, _, rfl, rfl, ?_⟩
  rw [Trace.replay?_eq_none_iff vast]
  decide

end FlightBlocks
