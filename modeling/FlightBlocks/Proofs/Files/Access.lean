import FlightBlocks.Files.Access
import FlightBlocks.Proofs.Files.Lookup
/-!
What the accesses to a tree find and change. A place and the places below it are found one from
the other; reading changes nothing, and making directories and writing change what they are asked
to and nothing else.
-/

namespace FlightBlocks

namespace Place

theorem path_parts (place : Place) : place.path.parts = place.map .name := rfl

theorem path_parts_concat (place : Place) (n : String) :
    (place ++ [n]).path.parts = place.path.parts ++ [.name n] := by
  simp [path]

theorem hasNul_of_concat {place : Place} {n : String} (clean : (place ++ [n]).path.hasNul = false) :
    place.path.hasNul = false := by
  rw [Path.hasNul, path_parts_concat, List.any_append, Bool.or_eq_false_iff] at clean
  exact clean.1

end Place

namespace Tree

variable {t : Tree} {place q : Place} {n : String}

theorem find_of_clean {through : Bool} {p : Path} (clean : p.hasNul = false) :
    t.find through p = t.walk through mostLinks [] p.parts := by
  simp [find, clean]

theorem find_of_nul {through : Bool} {p : Path} (nul : p.hasNul = true) :
    t.find through p = .error .nulInName := by
  simp [find, nul]

theorem clean_of_find {through : Bool} {p : Path} {stop : Stop}
    (found : t.find through p = .ok stop) : p.hasNul = false := by
  cases nul : p.hasNul with
  | true => rw [find_of_nul nul] at found; cases found
  | false => rfl

theorem find_holds (grounded : t.Grounded) {through : Bool} {p : Path} {stop : Stop}
    (found : t.find through p = .ok stop) : stop.Holds t := by
  rw [find_of_clean (clean_of_find found)] at found
  exact walk_holds grounded t.solid_nil found

theorem find_through_ne_link {p : Path} {rest : List Part} {target : String} :
    t.find true p ≠ .ok (.link q target rest) := by
  intro found
  rw [find_of_clean (clean_of_find found)] at found
  exact walk_through_ne_link found

theorem find_linkless {through : Bool} {stop : Stop} (linkless : t.Linkless place)
    (found : t.find through place.path = .ok stop) : stop = .entry place ∨ stop = .free place := by
  rw [find_of_clean (clean_of_find found), Place.path_parts] at found
  have only {stop : Stop} (strides : t.Strides [] (place.map .name) stop) :
      stop = .entry place ∨ stop = .free place := strides.linkless (by rwa [List.nil_append])
  rcases walk_eq_ok found with ⟨strides, -⟩ | ⟨_, q, target, rest, -, strides, -⟩
  · exact only strides
  · rcases only strides with h | h <;> cases h

theorem find_goOn (clean : (place ++ [n]).path.hasNul = false) : ∃ left, left ≤ mostLinks ∧
    ∀ through, t.find through (place ++ [n]).path =
      t.goOn through left [.name n] (t.find true place.path) := by
  obtain ⟨left, fewer, goesOn⟩ := t.walk_append mostLinks [] place.path.parts
  refine ⟨left, fewer, fun through => ?_⟩
  rw [find_of_clean clean, Place.path_parts_concat, goesOn through _ (by simp),
    ← find_of_clean (Place.hasNul_of_concat clean)]

theorem find_below (stands : t.find true place.path = .ok (.entry q))
    (clean : (place ++ [n]).path.hasNul = false) : ∃ left, left ≤ mostLinks ∧
      ∀ through, t.find through (place ++ [n]).path = t.walk through left q [.name n] := by
  obtain ⟨left, fewer, goesOn⟩ := find_goOn (t := t) clean
  rw [stands] at goesOn
  exact ⟨left, fewer, goesOn⟩

theorem find_concat {through : Bool} {stop : Stop}
    (found : t.find through (place ++ [n]).path = .ok stop) :
    ∃ q, t.find true place.path = .ok (.entry q) := by
  obtain ⟨left, -, goesOn⟩ := find_goOn (t := t) (clean_of_find found)
  rw [goesOn] at found
  cases above : t.find true place.path with
  | error fault => rw [above] at found; cases found
  | ok stop =>
    rw [above] at found
    cases stop with
    | entry q => exact ⟨q, rfl⟩
    | free q => cases found
    | link q target rest => cases found

theorem realpath_eq_ok_iff {p : Path} : t.realpath p = .ok q ↔ t.find true p = .ok (.entry q) := by
  unfold realpath
  cases found : t.find true p with
  | error fault => simp [bind, Except.bind]
  | ok stop => cases stop <;> simp [bind, Except.bind, pure, Except.pure]

theorem realpath_nil (t : Tree) : t.realpath (Place.path []) = .ok [] :=
  realpath_eq_ok_iff.2 (find_of_clean rfl)

theorem realpath_solid (grounded : t.Grounded) {p : Path} (real : t.realpath p = .ok q) :
    t.Solid q := find_holds grounded (realpath_eq_ok_iff.1 real)

/-- Nothing stands where a path leads, or a link on its way leads nowhere. -/
def Missing (t : Tree) (place : Place) : Prop := t.realpath place.path = .error .notFound

theorem Missing.clean (missing : t.Missing place) : place.path.hasNul = false := by
  cases nul : place.path.hasNul with
  | false => rfl
  | true =>
    unfold Missing at missing
    rw [realpath, find_of_nul nul] at missing
    cases missing

theorem Missing.not_nil (missing : t.Missing place) : ∃ above n, place = above ++ [n] := by
  rcases List.eq_nil_or_concat place with rfl | ⟨above, n, rfl⟩
  · rw [Missing, realpath_nil] at missing
    cases missing
  · exact ⟨above, n, List.concat_eq_append⟩

theorem linkTarget?_eq_some_iff {p : Path} {target : String} :
    t.linkTarget? p = some target ↔ ∃ q rest, t.reach false p = .ok (.link q target rest) := by
  unfold linkTarget?
  cases t.reach false p with
  | error fault => simp
  | ok stop => cases stop <;> simp

theorem reach_of_short {through : Bool} {p : Path} (short : p.size ≤ longestPath) :
    t.reach through p = t.find through p := by
  rw [reach, if_neg]
  simp [Nat.not_lt.2 short]

theorem linkTarget?_of_long {p : Path} (clean : p.hasNul = false) (long : longestPath < p.size) :
    t.linkTarget? p = none := by
  rw [linkTarget?, reach, if_pos]
  simp [clean, long]

theorem find_of_reach {through : Bool} {p : Path} {stop : Stop}
    (reached : t.reach through p = .ok stop) : t.find through p = .ok stop := by
  unfold reach at reached
  split at reached
  · cases reached
  · exact reached

theorem Linkless.linkTarget?_eq_none (linkless : t.Linkless place) :
    t.linkTarget? place.path = none := by
  cases asked : t.linkTarget? place.path with
  | none => rfl
  | some target =>
    obtain ⟨q, rest, reached⟩ := linkTarget?_eq_some_iff.1 asked
    rcases find_linkless linkless (find_of_reach reached) with h | h <;> cases h

theorem Missing.cases (missing : t.Missing (place ++ [n]))
    (stands : t.realpath place.path = .ok q) :
    t.isDirectory q = true ∧ (t.entry? (q ++ [n]) = none ∨
      ∃ target, t.entry? (q ++ [n]) = some (.link target) ∧
        ((place ++ [n]).path.size ≤ longestPath →
          t.linkTarget? (place ++ [n]).path = some target)) := by
  obtain ⟨left, -, found⟩ := find_below (realpath_eq_ok_iff.1 stands) missing.clean
  have walked := found true
  unfold Missing realpath at missing
  rcases t.stride_name_cases q n with ⟨fault, other, strode⟩ | ⟨directory, ⟨gap, -⟩ |
    ⟨target, link, strode⟩ | ⟨-, strode⟩⟩
  · rw [walked, walk_of_stride strode (by simp)] at missing
    exact absurd (Except.error.inj missing) other
  · exact ⟨directory, .inl gap⟩
  · refine ⟨directory, .inr ⟨target, link, fun short => ?_⟩⟩
    refine linkTarget?_eq_some_iff.2 ⟨q ++ [n], [], ?_⟩
    rw [reach_of_short short, found, walk_stops strode]
  · rw [walked, walk_of_stride strode (by simp)] at missing
    cases missing

theorem stands_of_linkTarget? {target : String}
    (asked : t.linkTarget? (place ++ [n]).path = some target) :
    ∃ q, t.realpath place.path = .ok q ∧ t.entry? (q ++ [n]) = some (.link target) := by
  obtain ⟨at', rest, reached⟩ := linkTarget?_eq_some_iff.1 asked
  have found := find_of_reach reached
  obtain ⟨q, stands⟩ := find_concat found
  obtain ⟨left, -, below⟩ := find_below stands (clean_of_find found)
  refine ⟨q, realpath_eq_ok_iff.2 stands, ?_⟩
  rw [below] at found
  rcases walk_eq_ok found with ⟨strides, -⟩ | ⟨_, _, _, _, -, strides, goesOn, -⟩
  · cases strides with
    | name _ _ _ later => cases later
    | link _ _ link => exact link
  · cases strides with
    | name _ _ _ later => cases later
    | link => simp at goesOn

/-- Every link leads to a place that exists. -/
def LinksLead (t : Tree) : Prop :=
  ∀ q target, t.entry? q = some (.link target) → ∃ p, t.realpath q.path = .ok p

theorem linksLead_of_mem (all : ∀ entry ∈ t, ∀ target, entry.2 = .link target →
    ∃ p, t.realpath entry.1.path = .ok p) : t.LinksLead := by
  intro q target link
  by_cases root : q = []
  · subst root
    cases link
  · exact all _ (mem_of_stands link root) target rfl

theorem LinksLead.not_missing (lead : t.LinksLead) (grounded : t.Grounded) {target : String}
    (stands : t.realpath place.path = .ok q) (link : t.entry? (q ++ [n]) = some (.link target)) :
    ¬ t.Missing (place ++ [n]) := by
  intro missing
  obtain ⟨p, real⟩ := lead _ target link
  have found := realpath_eq_ok_iff.1 real
  have itself : t.find true q.path = .ok (.entry q) := by
    have linkless := grounded.linkless_of_solid (realpath_solid grounded stands)
    obtain ⟨q', above⟩ := find_concat found
    rcases find_linkless linkless above with h | h <;> cases h
    exact above
  obtain ⟨left, fewer, below⟩ := find_below itself (clean_of_find found)
  obtain ⟨left', fewer', below'⟩ := find_below (realpath_eq_ok_iff.1 stands) missing.clean
  -- both ways end with one step down from `q`, with the links left that each of them has
  have most : t.walk true mostLinks q [.name n] = .ok (.entry p) := by
    rcases walk_fewer fewer true q [.name n] with same | endless
    · rw [← same, ← below, found]
    · rw [below, endless] at found
      cases found
  unfold Missing realpath at missing
  rw [below'] at missing
  rcases walk_fewer fewer' true q [.name n] with same | endless
  · rw [same, most] at missing
    cases missing
  · rw [endless] at missing
    cases missing

end Tree

end FlightBlocks
