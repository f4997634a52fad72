import FlightBlocks.Preview.Trace
/-!
The frames of a block list, with no time in them: the start, then every block in its turn. A flip
gives two frames of one step, and the next block goes on from the second.
-/

namespace FlightBlocks

def Drone.settled (d : Drone) : Drone := { d with flipping := false }

theorem Drone.settled_of_not_flipping {d : Drone} (level : d.flipping = false) : d.settled = d := by
  simp only [settled, ← level]

namespace Grid

def shown (g : Grid) (d : Drone) (kind : String) : Drone := d.apply g (.ofToken kind)

def leave (g : Grid) (d : Drone) (kinds : List String) : Drone :=
  kinds.foldl (fun d kind => (g.shown d kind).settled) d

def blockFrames (g : Grid) (step : Nat) (d : Drone) (kind : String) : List Frame :=
  let shown := g.shown d kind
  if shown.flipping then [⟨step, some kind, shown⟩, ⟨step, some kind, shown.settled⟩]
  else [⟨step, some kind, shown⟩]

def framesFrom (g : Grid) (done : Nat) (d : Drone) : List String → List Frame
  | [] => []
  | kind :: kinds =>
    g.blockFrames (done + 1) d kind ++ framesFrom g (done + 1) (g.shown d kind).settled kinds

/-- All frames of a block list. -/
def frames (g : Grid) (kinds : List String) : List Frame :=
  .start g.start :: g.framesFrom 0 g.start kinds

variable (g : Grid)

theorem leave_append (d : Drone) (kinds more : List String) :
    g.leave d (kinds ++ more) = g.leave (g.leave d kinds) more := List.foldl_append

theorem leave_level {d : Drone} (level : d.flipping = false) (kinds : List String) :
    (g.leave d kinds).flipping = false := by
  induction kinds generalizing d with
  | nil => exact level
  | cons kind kinds ih => exact ih rfl

theorem framesFrom_append (done : Nat) (d : Drone) (kinds more : List String) :
    g.framesFrom done d (kinds ++ more) =
      g.framesFrom done d kinds ++ g.framesFrom (done + kinds.length) (g.leave d kinds) more := by
  induction kinds generalizing done d with
  | nil => rfl
  | cons kind kinds ih =>
    have later := ih (done + 1) (g.shown d kind).settled
    simp only [List.cons_append, framesFrom, later, List.append_assoc, List.length_cons]
    rw [Nat.add_assoc done 1, Nat.add_comm 1]
    rfl

theorem leave_concat (kinds : List String) (kind : String) :
    g.leave g.start (kinds ++ [kind]) = (g.shown (g.leave g.start kinds) kind).settled := by
  rw [leave_append]
  rfl

theorem frames_concat (kinds : List String) (kind : String) :
    g.frames (kinds ++ [kind]) =
      g.frames kinds ++ g.blockFrames (kinds.length + 1) (g.leave g.start kinds) kind := by
  rw [frames, frames, framesFrom_append]
  simp [framesFrom]

theorem blockFrames_of_flipping {step : Nat} {d : Drone} {kind : String}
    (flips : (g.shown d kind).flipping = true) :
    g.blockFrames step d kind =
      [⟨step, some kind, g.shown d kind⟩, ⟨step, some kind, (g.shown d kind).settled⟩] := by
  simp only [blockFrames, flips, ↓reduceIte]

theorem blockFrames_of_level {step : Nat} {d : Drone} {kind : String}
    (level : (g.shown d kind).flipping = false) :
    g.blockFrames step d kind = [⟨step, some kind, g.shown d kind⟩] := by
  simp [blockFrames, level]

theorem blockFrames_getLast? (step : Nat) (d : Drone) (kind : String) :
    (g.blockFrames step d kind).getLast? = some ⟨step, some kind, (g.shown d kind).settled⟩ := by
  cases flips : (g.shown d kind).flipping with
  | true => rw [blockFrames_of_flipping g flips]; rfl
  | false =>
    rw [blockFrames_of_level g flips, Drone.settled_of_not_flipping flips]
    rfl

theorem frames_getLast? (kinds : List String) :
    (g.frames kinds).getLast? = some ⟨kinds.length, kinds.getLast?, g.leave g.start kinds⟩ := by
  rcases List.eq_nil_or_concat kinds with rfl | ⟨before, kind, rfl⟩
  · rfl
  · rw [List.concat_eq_append, frames_concat, List.getLast?_append, blockFrames_getLast?,
      leave_concat]
    simp

end Grid

end FlightBlocks
