import FlightBlocks.Proofs.Preview.Picture
import FlightBlocks.Proofs.Text.Framing
import Mathlib.Data.Nat.Digits.Defs
/-!
Drawings taken apart. The lines of a drawing are the rows of the grid and one line behind them; a
drone that is off the grid is in no row, but the line behind them tells of it all the same. So two
drones that are drawn alike differ in their heading at most. The grids without a drawing are those
whose drawing would be longer than any text.
-/

namespace FlightBlocks

namespace Drone

variable {d d' : Drone}

def manner (altitude : Altitude) (flipping : Bool) : List Char :=
  altitude.name.toList ++ if flipping then " flipping".toList else []

theorem manner_inj {altitude altitude' : Altitude} {flipping flipping' : Bool}
    (same : manner altitude flipping = manner altitude' flipping') :
    altitude = altitude' ∧ flipping = flipping' := by
  revert same
  cases altitude <;> cases altitude' <;> cases flipping <;> cases flipping' <;> decide

theorem toList_status (d : Drone) : d.status.toList =
    '(' :: ((toString d.x.toNat).toList ++ ',' :: ' ' :: ((toString d.y.toNat).toList ++
      ')' :: ' ' :: manner d.altitude d.flipping)) := by
  have suffix : (if d.flipping then " flipping" else "").toList =
      if d.flipping then " flipping".toList else [] := by
    cases d.flipping <;> rfl
  have opened : "(".toList = ['('] := rfl
  have between : ", ".toList = [',', ' '] := rfl
  have closed : ") ".toList = [')', ' '] := rfl
  simp only [status, manner, String.toList_append, suffix, opened, between, closed,
    List.append_assoc, List.cons_append, List.nil_append]

theorem status_inj (same : d.status = d'.status) : d.x = d'.x ∧ d.y = d'.y ∧
    d.altitude = d'.altitude ∧ d.flipping = d'.flipping := by
  have chars := congrArg String.toList same
  rw [toList_status, toList_status] at chars
  obtain ⟨x, -, chars⟩ := Text.toString_append_inj rfl rfl (List.cons.inj chars).2
  obtain ⟨y, -, chars⟩ := Text.toString_append_inj rfl rfl (List.cons.inj chars).2
  exact ⟨UInt32.toNat_inj.1 x, UInt32.toNat_inj.1 y, manner_inj (List.cons.inj chars).2⟩

theorem newline_not_mem_status (d : Drone) : '\n' ∉ d.status.toList := by
  have digits (n : Nat) : '\n' ∉ (toString n).toList := by
    intro member
    exact absurd (Text.isDigit_of_mem_toString member) (by decide)
  have manner : '\n' ∉ manner d.altitude d.flipping := by
    cases d.altitude <;> cases d.flipping <;> decide
  rw [toList_status]
  simp only [List.mem_cons, List.mem_append, digits, manner, or_false, false_or]
  decide

theorem length_status_le (d : Drone) : d.status.length ≤ 42 := by
  have digits (n : UInt32) : (toString n.toNat).toList.length ≤ 10 := by
    have small : n.toNat < 10 ^ 10 := Nat.lt_trans n.toNat_lt (by decide)
    rw [Nat.toString_eq_repr, String.length_toList]
    exact Nat.repr_length _ _ (by decide) small
  have manner : (manner d.altitude d.flipping).length ≤ 17 := by
    cases d.altitude <;> cases d.flipping <;> decide
  have x := digits d.x
  have y := digits d.y
  rw [← String.length_toList, toList_status]
  simp only [List.length_cons, List.length_append]
  omega

end Drone

namespace Grid

/-- The text is rows of cells with a space between any two, as many rows as columns, and one line
more. The mark of the drone is in its cell and nowhere else. -/
structure LaidOut (g : Grid) (d : Drone) (text : String) (cells : List (List Char)) : Prop where
  lines : text.toList.splitOn '\n' = cells.map (·.intersperse ' ') ++ [d.status.toList, []]
  height : cells.length = g.size.toNat
  width : ∀ row ∈ cells, row.length = g.size.toNat
  cell : ∀ (j i : Nat) (row : List Char) (c : Char), cells[j]? = some row → row[i]? = some c →
    (c = d.mark ↔ i = d.x.toNat ∧ j = d.y.toNat) ∧ (c = d.mark ∨ c = '.')
  marks : cells.flatten.countP (· ∈ Drone.marks) =
    if d.x.toNat < g.size.toNat ∧ d.y.toNat < g.size.toNat then 1 else 0

theorem cell_eq_mark_iff (d : Drone) (j i : Nat) :
    cell d j i = d.mark ↔ i = d.x.toNat ∧ j = d.y.toNat := by
  have dot : '.' ≠ d.mark := by
    intro same
    exact absurd (same ▸ mark_mem_marks d) (by decide)
  unfold cell
  split
  next here => simp [here]
  next elsewhere => simp [dot, elsewhere]

def cellRows (d : Drone) (rows columns : Nat) : List (List Char) :=
  (List.range rows).map fun j => (List.range columns).map (cell d j)

theorem countP_row (d : Drone) (j columns : Nat) :
    ((List.range columns).map (cell d j)).countP (· ∈ Drone.marks) =
      if j = d.y.toNat ∧ d.x.toNat < columns then 1 else 0 := by
  rw [List.countP_map]
  by_cases here : j = d.y.toNat
  · have only : ∀ i ∈ List.range columns,
        ((fun c => decide (c ∈ Drone.marks)) ∘ cell d j) i = true ↔ (i == d.x.toNat) = true := by
      intro i _
      simp [cell_mem_marks_iff, here]
    rw [List.countP_congr only, ← List.count, List.count_range]
    simp [here]
  · have none : ∀ i ∈ List.range columns,
        ¬ ((fun c => decide (c ∈ Drone.marks)) ∘ cell d j) i = true := by
      intro i _
      simp [cell_mem_marks_iff, here]
    rw [List.countP_eq_zero.2 none, if_neg (by simp [here])]

theorem countP_cellRows (d : Drone) (rows columns : Nat) :
    (cellRows d rows columns).flatten.countP (· ∈ Drone.marks) =
      if d.x.toNat < columns ∧ d.y.toNat < rows then 1 else 0 := by
  induction rows with
  | zero => simp [cellRows]
  | succ rows ih =>
    have more : cellRows d (rows + 1) columns =
        cellRows d rows columns ++ [(List.range columns).map (cell d rows)] := by
      simp [cellRows, List.range_succ]
    rw [more, List.flatten_append, List.countP_append, ih, List.flatten_singleton, countP_row]
    grind

theorem intercalate_concat {α : Type} (a : α) (lines : List (List α)) (final : List α) :
    [a].intercalate (lines ++ [final, []]) = lines.flatMap (· ++ [a]) ++ (final ++ [a]) := by
  induction lines with
  | nil => simp [List.intercalate]
  | cons first lines ih =>
    rw [List.cons_append, List.intercalate_cons_of_ne_nil (by simp), ih, List.flatMap_cons]
    simp

theorem splitOn_draw (g : Grid) (d : Drone) : (g.draw d).toList.splitOn '\n' =
    (cellRows d g.size.toNat g.size.toNat).map (·.intersperse ' ') ++ [d.status.toList, []] := by
  have rows : (List.range g.size.toNat).map (g.row d) =
      (cellRows d g.size.toNat g.size.toNat).map (·.intersperse ' ') := by
    rw [cellRows, List.map_map]
    rfl
  rw [toList_draw, ← intercalate_concat, List.splitOn_intercalate _ _ (by simp), rows]
  intro chars member
  rcases List.mem_append.1 member with row | behind
  · obtain ⟨j, -, rfl⟩ := List.mem_map.1 row
    exact newline_not_mem_row g d j
  · simp only [List.mem_cons, List.not_mem_nil, or_false] at behind
    rcases behind with rfl | rfl
    · exact d.newline_not_mem_status
    · exact List.not_mem_nil

theorem laidOut_draw (g : Grid) (d : Drone) :
    g.LaidOut d (g.draw d) (cellRows d g.size.toNat g.size.toNat) where
  lines := splitOn_draw g d
  height := by simp [cellRows]
  width := by
    intro row member
    obtain ⟨j, -, rfl⟩ := List.mem_map.1 member
    simp
  cell := by
    intro j i row c found there
    simp only [cellRows, List.getElem?_map, Option.map_eq_some_iff] at found
    obtain ⟨j', found, rfl⟩ := found
    rw [List.getElem?_map, Option.map_eq_some_iff] at there
    obtain ⟨i', there, rfl⟩ := there
    obtain ⟨_, rfl⟩ := List.getElem?_eq_some_iff.1 found
    obtain ⟨_, rfl⟩ := List.getElem?_eq_some_iff.1 there
    rw [List.getElem_range, List.getElem_range]
    refine ⟨cell_eq_mark_iff d j i, ?_⟩
    unfold cell
    split
    · exact .inl rfl
    · exact .inr rfl
  marks := countP_cellRows d g.size.toNat g.size.toNat

theorem length_flatMap_concat {lines : List (List Char)} {width : Nat}
    (all : ∀ line ∈ lines, line.length + 1 = width) :
    (lines.flatMap (· ++ ['\n'])).length = lines.length * width := by
  induction lines with
  | nil => simp
  | cons line lines ih =>
    have rest := ih fun line member => all line (List.mem_cons_of_mem _ member)
    rw [List.flatMap_cons, List.length_append, rest, List.length_append, List.length_singleton,
      all line List.mem_cons_self, List.length_cons, Nat.succ_mul, Nat.add_comm]

theorem length_draw (g : Grid) (d : Drone) :
    (g.draw d).length = g.size.toNat * (2 * g.size.toNat) + (d.status.length + 1) := by
  have rows : ∀ line ∈ (List.range g.size.toNat).map (g.row d),
      line.length + 1 = 2 * g.size.toNat := by
    intro line member
    obtain ⟨j, inside, rfl⟩ := List.mem_map.1 member
    rw [length_row]
    have := List.mem_range.1 inside
    omega
  rw [← String.length_toList, toList_draw, List.length_append, length_flatMap_concat rows,
    List.length_map, List.length_range, List.length_append, String.length_toList,
    List.length_singleton]

/-- No text has room for the drawing of a grid that is not drawn, and for every other there is one
that has. -/
theorem mostBytes_lt_length_draw_iff {g : Grid} {d : Drone} :
    mostBytes < (g.draw d).length ↔ mostSize < g.size.toNat := by
  have status := d.length_status_le
  rw [length_draw]
  constructor
  · intro long
    apply Nat.not_le.1
    intro small
    have rows : g.size.toNat * (2 * g.size.toNat) ≤ mostSize * (2 * mostSize) :=
      Nat.mul_le_mul small (by omega)
    have within : mostSize * (2 * mostSize) + 43 ≤ mostBytes := by decide
    omega
  · intro vast
    have rows : (mostSize + 1) * (2 * (mostSize + 1)) ≤ g.size.toNat * (2 * g.size.toNat) :=
      Nat.mul_le_mul vast (by omega)
    have beyond : mostBytes < (mostSize + 1) * (2 * (mostSize + 1)) := by decide
    omega

/-- A grid is drawn unless its drawing is longer than any text may be. A drawing is laid out in rows
and cells, and drones drawn alike on one grid are alike in all but their heading. -/
theorem drawing_tells_drone (g : Grid) (d : Drone) :
    (g.draw? d = none ↔ mostSize < g.size.toNat) ∧
      (g.draw? d = none ↔ mostBytes < (g.draw d).length) ∧
      ∀ text, g.draw? d = some text →
        (∃ cells, g.LaidOut d text cells) ∧
          ∀ d', g.draw? d' = some text ↔ d.x = d'.x ∧ d.y = d'.y ∧ d.altitude = d'.altitude ∧
            d.flipping = d'.flipping := by
  refine ⟨draw?_eq_none_iff, draw?_eq_none_iff.trans mostBytes_lt_length_draw_iff.symm, ?_⟩
  intro text drawn
  obtain ⟨small, rfl⟩ := draw?_eq_some_iff.1 drawn
  refine ⟨⟨_, laidOut_draw g d⟩, fun d' => ?_⟩
  rw [draw?_eq_some_iff, and_iff_right small]
  constructor
  · intro same
    have lines := splitOn_draw g d
    rw [← same, splitOn_draw] at lines
    obtain ⟨-, status⟩ := List.append_inj lines (by simp [cellRows])
    exact Drone.status_inj (String.toList_inj.1 (List.cons.inj status).1.symm)
  · obtain ⟨x, y, altitude, heading, flipping⟩ := d
    obtain ⟨x', y', altitude', heading', flipping'⟩ := d'
    rintro ⟨rfl, rfl, rfl, rfl⟩
    rfl

theorem drawing_tells_beside :
    (square 1).draw? ⟨7, 0, .airborne, 0, true⟩ = some ".\n(7, 0) airborne flipping\n" ∧
      (∃ cells, (square 1).LaidOut ⟨7, 0, .airborne, 0, true⟩
        ".\n(7, 0) airborne flipping\n" cells) ∧
      (square 1).draw? ⟨7, 0, .airborne, 90, true⟩ = some ".\n(7, 0) airborne flipping\n" := by
  have drawn : (square 1).draw? ⟨7, 0, .airborne, 0, true⟩ =
      some ".\n(7, 0) airborne flipping\n" := by decide +kernel
  obtain ⟨-, -, tells⟩ := drawing_tells_drone (square 1) ⟨7, 0, .airborne, 0, true⟩
  obtain ⟨laidOut, alike⟩ := tells _ drawn
  exact ⟨drawn, laidOut, (alike _).2 ⟨rfl, rfl, rfl, rfl⟩⟩

theorem vast_undrawn :
    (square 2147483648).draw? (.groundedAt 0 0) = none ∧
      ¬ ∀ (g : Grid) (d : Drone), ∃ text cells, g.draw? d = some text ∧ g.LaidOut d text cells := by
  have vast : (square 2147483648).draw? (.groundedAt 0 0) = none := draw?_of_lt (by decide) _
  refine ⟨vast, ?_⟩
  intro all
  obtain ⟨text, -, drawn, -⟩ := all (square 2147483648) (.groundedAt 0 0)
  cases vast.symm.trans drawn

end Grid

end FlightBlocks
