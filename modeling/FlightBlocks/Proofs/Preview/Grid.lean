import FlightBlocks.Preview.Grid
/-!
Steps in exact integers: a coordinate goes as far as the step says and stops at the border of the
grid, without running over at either end of the words. A drone on the grid stays on it.
-/

namespace FlightBlocks

namespace Action

theorem toNat_length (delta : Int8) : (length delta).toNat = delta.toInt.natAbs := by
  have low : -128 ≤ delta.toInt := Int8.le_toInt delta
  have high : delta.toInt ≤ 127 := Int8.toInt_le delta
  refine UInt32.toNat_ofNat_of_lt' ?_
  simp only [UInt32.size]
  omega

theorem toNat_lowered (value by' : UInt32) :
    (lowered value by').toNat = value.toNat - by'.toNat := by
  unfold lowered
  split
  next under =>
    have : value.toNat < by'.toNat := UInt32.lt_iff_toNat_lt.1 under
    rw [UInt32.toNat_zero]
    omega
  next beyond =>
    have : by'.toNat ≤ value.toNat := UInt32.le_iff_toNat_le.1 (UInt32.not_lt.1 beyond)
    rw [UInt32.toNat_sub_of_le _ _ (UInt32.not_lt.1 beyond)]

theorem toNat_raised (value by' : UInt32) :
    (raised value by').toNat = min (value.toNat + by'.toNat) (UInt32.size - 1) := by
  have small := value.toNat_lt
  have small' := by'.toNat_lt
  unfold raised
  split
  next beyond =>
    have wrapped : (value.toNat + by'.toNat) % 2 ^ 32 < value.toNat := by
      simpa [UInt32.lt_iff_toNat_lt, UInt32.toNat_add] using beyond
    have largest : (UInt32.ofNat (UInt32.size - 1)).toNat = UInt32.size - 1 := rfl
    rw [largest]
    simp only [UInt32.size]
    omega
  next under =>
    have kept : value.toNat ≤ (value.toNat + by'.toNat) % 2 ^ 32 := by
      simpa [UInt32.lt_iff_toNat_lt, UInt32.toNat_add] using under
    rw [UInt32.toNat_add]
    simp only [UInt32.size]
    omega

/-- A coordinate after a step, in exact integers. -/
theorem toNat_stepAxis (value : UInt32) (delta : Int8) (greatest : UInt32) :
    ((stepAxis value delta greatest).toNat : Int) =
      min (greatest.toNat : Int) (max 0 (value.toNat + delta.toInt)) := by
  have sign : delta < 0 ↔ delta.toInt < 0 := by simp [Int8.lt_iff_toInt_lt]
  have small := greatest.toNat_lt
  have capped (moved : UInt32) : ((if moved < greatest then moved else greatest).toNat : Int) =
      min (greatest.toNat : Int) moved.toNat := by
    split
    next under =>
      have := UInt32.lt_iff_toNat_lt.1 under
      omega
    next beyond =>
      have := UInt32.le_iff_toNat_le.1 (UInt32.not_lt.1 beyond)
      omega
  unfold stepAxis
  rw [capped]
  split
  next back =>
    have := sign.1 back
    rw [toNat_lowered, toNat_length]
    omega
  next onward =>
    have := mt sign.2 onward
    rw [toNat_raised, toNat_length]
    simp only [UInt32.size]
    omega

section Unit

variable {value greatest : UInt32} (within : value.toNat ≤ greatest.toNat)

include within

theorem toNat_stepAxis_still : (stepAxis value 0 greatest).toNat = value.toNat := by
  have step := toNat_stepAxis value 0 greatest
  have still : (0 : Int8).toInt = 0 := rfl
  omega

theorem toNat_stepAxis_back : (stepAxis value (-1) greatest).toNat = value.toNat - 1 := by
  have step := toNat_stepAxis value (-1) greatest
  have back : (-1 : Int8).toInt = -1 := rfl
  omega

theorem toNat_stepAxis_onward :
    (stepAxis value 1 greatest).toNat = min (value.toNat + 1) greatest.toNat := by
  have step := toNat_stepAxis value 1 greatest
  have onward : (1 : Int8).toInt = 1 := rfl
  omega

end Unit

end Action

namespace Grid

def Holds (g : Grid) (d : Drone) : Prop :=
  d.x.toNat ≤ g.greatest.toNat ∧ d.y.toNat ≤ g.greatest.toNat

theorem holds_start {g : Grid} (valid : g.validate = .ok ()) : g.Holds g.start := by
  unfold validate at valid
  split at valid
  · cases valid
  · split at valid
    · cases valid
    next inside =>
      obtain ⟨inX, inY⟩ := not_or.1 inside
      exact ⟨UInt32.le_iff_toNat_le.1 (UInt32.not_lt.1 inX),
        UInt32.le_iff_toNat_le.1 (UInt32.not_lt.1 inY)⟩

theorem holds_apply {g : Grid} {d : Drone} (on : g.Holds d) (action : Action) :
    g.Holds (d.apply g action) := by
  have kept (value : UInt32) (delta : Int8) :
      (Action.stepAxis value delta g.greatest).toNat ≤ g.greatest.toNat := by
    have := Action.toNat_stepAxis value delta g.greatest
    omega
  cases action with
  | move dx dy => exact ⟨kept d.x dx, kept d.y dy⟩
  | takeOff => exact on
  | land => exact on
  | flip => exact on
  | unknown => exact on

end Grid

end FlightBlocks
