import FlightBlocks.Preview.Trace
import FlightBlocks.Proofs.Preview.Grid
/-!
What a drawing of the grid shows. Each row of the grid is a line of cells with a space between any
two; the mark of the drone is in the row and the column it stands in, and no line has another. A
grid is drawn only if there is room for the text.
-/

namespace FlightBlocks

def Drone.marks : List Char := ['o', '^', '*']

namespace Grid

/-- The text is lines of cells, one for each row of the grid, and a line that says where the drone
is. Among the cells there is one mark, at the cell of the drone; column `i` is character `2 * i` of
its line. -/
structure Pictures (g : Grid) (d : Drone) (text : String) (lines : List (List Char)) : Prop where
  text : text.toList = lines.flatMap (· ++ ['\n']) ++ (d.status.toList ++ ['\n'])
  height : lines.length = g.size.toNat
  width : ∀ line ∈ lines, line.length = 2 * g.size.toNat - 1 ∧ '\n' ∉ line
  marked : ∃ cells, lines[d.y.toNat]? = some cells ∧ cells[2 * d.x.toNat]? = some d.mark
  only : ∀ (j k : Nat) (cells : List Char) (c : Char), lines[j]? = some cells →
    cells[k]? = some c →
    (c ∈ Drone.marks ↔ j = d.y.toNat ∧ k = 2 * d.x.toNat)

section

variable (g : Grid) (d : Drone)

theorem mark_mem_marks : d.mark ∈ Drone.marks := by
  unfold Drone.mark
  split
  · decide
  · split <;> decide

theorem cell_mem_marks_iff (j i : Nat) :
    cell d j i ∈ Drone.marks ↔ j = d.y.toNat ∧ i = d.x.toNat := by
  unfold cell
  split
  next here => simp [mark_mem_marks, here]
  next elsewhere =>
    have dot : '.' ∉ Drone.marks := by decide
    simp only [dot, false_iff]
    exact fun here => elsewhere here.symm

theorem length_row (j : Nat) : (g.row d j).length = 2 * g.size.toNat - 1 := by
  simp [row, List.length_intersperse]

theorem getElem?_row (j k : Nat) : (g.row d j)[k]? =
    if k < 2 * g.size.toNat - 1 then some (if k % 2 = 0 then cell d j (k / 2) else ' ')
    else none := by
  rw [row, List.getElem?_intersperse]
  simp only [List.getElem?_map, List.length_map, List.length_range]
  by_cases even : k % 2 = 0
  · by_cases inside : k / 2 < g.size.toNat
    · rw [if_pos even, if_pos even, if_pos (by omega), List.getElem?_range inside]
      rfl
    · rw [if_pos even, if_neg (by omega), List.getElem?_eq_none (by simpa using inside)]
      rfl
  · rw [if_neg even, if_neg even]

theorem mem_marks_of_getElem?_row {j k : Nat} {c : Char} (found : (g.row d j)[k]? = some c) :
    c ∈ Drone.marks ↔ j = d.y.toNat ∧ k = 2 * d.x.toNat := by
  rw [getElem?_row] at found
  split at found
  · obtain rfl := Option.some.inj found
    split
    next even =>
      rw [cell_mem_marks_iff]
      omega
    next odd =>
      have space : ' ' ∉ Drone.marks := by decide
      simp only [space, false_iff]
      omega
  · cases found

theorem mem_row {j : Nat} {c : Char} (member : c ∈ g.row d j) :
    c ∈ Drone.marks ∨ c = '.' ∨ c = ' ' := by
  obtain ⟨k, found⟩ := List.mem_iff_getElem?.1 member
  rw [getElem?_row] at found
  split at found
  · obtain rfl := Option.some.inj found
    split
    · unfold cell
      split
      · exact .inl (mark_mem_marks d)
      · exact .inr (.inl rfl)
    · exact .inr (.inr rfl)
  · cases found

theorem newline_not_mem_row (j : Nat) : '\n' ∉ g.row d j := by
  intro member
  rcases mem_row g d member with mark | dot | space
  · revert mark
    decide
  · cases dot
  · cases space

theorem toList_draw : (g.draw d).toList =
    ((List.range g.size.toNat).map (g.row d)).flatMap (· ++ ['\n']) ++
      (d.status.toList ++ ['\n']) := by
  simp [draw, List.flatMap_map]

end

/-- The greatest size with which a grid is drawn. -/
def mostSize : Nat := 2147483647

theorem area_le_iff {size : Nat} : (size * 2 + 1) * size ≤ mostBytes ↔ size ≤ mostSize := by
  constructor
  · intro room
    apply Nat.not_lt.1
    intro vast
    have area : ((mostSize + 1) * 2 + 1) * (mostSize + 1) ≤ (size * 2 + 1) * size :=
      Nat.mul_le_mul (by omega) vast
    exact absurd (Nat.le_trans area room) (by decide)
  · intro small
    calc (size * 2 + 1) * size ≤ (mostSize * 2 + 1) * mostSize :=
          Nat.mul_le_mul (by omega) small
      _ ≤ mostBytes := by decide

theorem draw?_of_le {g : Grid} (small : g.size.toNat ≤ mostSize) (d : Drone) :
    g.draw? d = some (g.draw d) := by
  have room := area_le_iff.2 small
  have word : (g.size.toNat * 2 + 1) * g.size.toNat ≤ mostWord :=
    Nat.le_trans room (by decide)
  have given : hasRoom ((g.size.toNat * 2 + 1) * g.size.toNat) 1 = true :=
    hasRoom_iff.2 (by rwa [Nat.mul_one])
  simp [draw?, room?, product?, if_pos word, given]

theorem draw?_of_lt {g : Grid} (vast : mostSize < g.size.toNat) (d : Drone) :
    g.draw? d = none := by
  have refused : hasRoom ((g.size.toNat * 2 + 1) * g.size.toNat) 1 = false := by
    rw [hasRoom_eq_false_iff, Nat.mul_one]
    exact Nat.not_le.1 fun room => Nat.not_le.2 vast (area_le_iff.1 room)
  unfold draw? room? product?
  split
  · simp [refused]
  · rfl

theorem draw?_eq_none_iff {g : Grid} {d : Drone} :
    g.draw? d = none ↔ mostSize < g.size.toNat := by
  rcases Nat.lt_or_ge mostSize g.size.toNat with vast | small
  · simp only [draw?_of_lt vast, vast]
  · simp only [draw?_of_le small, Nat.not_lt.2 small, reduceCtorEq]

theorem draw?_eq_some_iff {g : Grid} {d : Drone} {text : String} :
    g.draw? d = some text ↔ g.size.toNat ≤ mostSize ∧ g.draw d = text := by
  rcases Nat.lt_or_ge mostSize g.size.toNat with vast | small
  · simp only [draw?_of_lt vast, Nat.not_le.2 vast, reduceCtorEq, false_and]
  · simp only [draw?_of_le small, Option.some_inj, small, true_and]

theorem greatest_lt_size {g : Grid} (valid : g.validate = .ok ()) :
    g.greatest.toNat < g.size.toNat := by
  unfold validate at valid
  split at valid
  · cases valid
  next nonempty =>
    have some : 1 ≤ g.size.toNat :=
      Nat.one_le_iff_ne_zero.2 fun none => nonempty (UInt32.toNat_inj.1 none)
    have one : (1 : UInt32).toNat = 1 := rfl
    have less : (g.size - 1).toNat = g.size.toNat - 1 :=
      UInt32.toNat_sub_of_le _ _ (UInt32.le_iff_toNat_le.2 (one ▸ some))
    rw [greatest, if_neg nonempty, less]
    omega

theorem pictures_draw {g : Grid} {d : Drone} (valid : g.validate = .ok ()) (on : g.Holds d) :
    g.Pictures d (g.draw d) ((List.range g.size.toNat).map (g.row d)) := by
  have inside := greatest_lt_size valid
  obtain ⟨inX, inY⟩ := on
  have cells (j : Nat) (within : j < g.size.toNat) :
      ((List.range g.size.toNat).map (g.row d))[j]? = some (g.row d j) := by
    rw [List.getElem?_map, List.getElem?_range within]
    rfl
  exact {
    text := toList_draw g d
    height := by simp
    width := by
      intro _ member
      obtain ⟨j, -, rfl⟩ := List.mem_map.1 member
      exact ⟨length_row g d j, newline_not_mem_row g d j⟩
    marked := by
      refine ⟨_, cells d.y.toNat (by omega), ?_⟩
      rw [getElem?_row, if_pos (by omega), if_pos (by omega), Nat.mul_div_cancel_left _ (by decide)]
      simp [cell]
    only := by
      intro j k _ c found there
      have within : j < g.size.toNat := by simpa using (List.getElem?_eq_some_iff.1 found).1
      cases (cells j within).symm.trans found
      exact mem_marks_of_getElem?_row g d there }

end Grid

end FlightBlocks
