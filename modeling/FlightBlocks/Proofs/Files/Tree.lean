import FlightBlocks.Files.Tree
import Mathlib.Data.List.Induction
/-!
Trees as a file system has them: whatever stands somewhere stands in a directory. In such a tree
nothing but directories is above an entry, and nothing at all is below a gap.
-/

namespace FlightBlocks

@[simp] theorem Place.parent_concat (above : Place) (n : String) : parent (above ++ [n]) = above :=
  List.dropLast_concat

namespace Tree

def Grounded (t : Tree) : Prop :=
  ∀ above n e, t.entry? (above ++ [n]) = some e → t.entry? above = some .directory

def Solid (t : Tree) (place : Place) : Prop :=
  ∃ e, t.entry? place = some e ∧ ∀ target, e ≠ .link target

/-- No link stands on the way down to `place`, nor at it. -/
def Linkless (t : Tree) (place : Place) : Prop :=
  ∀ q target, q <+: place → t.entry? q ≠ some (.link target)

variable {t : Tree} {place q : Place}

@[simp] theorem entry?_nil (t : Tree) : t.entry? [] = some .directory := rfl

theorem entry?_of_ne_nil (nonempty : place ≠ []) : t.entry? place = t.lookup place := by
  cases place with
  | nil => exact absurd rfl nonempty
  | cons n names => rfl

theorem isDirectory_iff : t.isDirectory place = true ↔ t.entry? place = some .directory := by
  simp [isDirectory]

theorem solid_of_isDirectory (directory : t.isDirectory place = true) : t.Solid place :=
  ⟨.directory, isDirectory_iff.1 directory, by simp⟩

theorem solid_nil (t : Tree) : t.Solid [] := ⟨.directory, rfl, by simp⟩

theorem mem_of_stands {e : Entry} (stands : t.entry? place = some e) (nonempty : place ≠ []) :
    (place, e) ∈ t := by
  rw [entry?_of_ne_nil nonempty] at stands
  obtain ⟨before, after, rfl, -⟩ := List.lookup_eq_some_iff.1 stands
  simp

theorem grounded_of_mem (all : ∀ entry ∈ t, t.entry? entry.1.parent = some .directory) :
    t.Grounded := by
  intro above n e stands
  simpa using all _ (mem_of_stands stands (by simp))

theorem linkless_of_mem (all : ∀ entry ∈ t, ∀ target, entry.2 ≠ .link target) (place : Place) :
    t.Linkless place := by
  intro q target _ link
  by_cases root : q = []
  · subst root
    cases link
  · exact all _ (mem_of_stands link root) target rfl

theorem Linkless.of_prefix (linkless : t.Linkless place) (above : q <+: place) : t.Linkless q :=
  fun _ target higher => linkless _ target (higher.trans above)

theorem Linkless.of_concat {n : String} (linkless : t.Linkless (place ++ [n])) : t.Linkless place :=
  linkless.of_prefix (List.prefix_append _ _)

theorem Grounded.directory_of_prefix (grounded : t.Grounded) {below : Place} {e : Entry}
    (stands : t.entry? (place ++ below) = some e) (nonempty : below ≠ []) :
    t.entry? place = some .directory := by
  induction below using List.reverseRecOn generalizing e with
  | nil => exact absurd rfl nonempty
  | append_singleton below n ih =>
    rw [← List.append_assoc] at stands
    have above := grounded _ _ _ stands
    by_cases empty : below = []
    · simpa [empty] using above
    · exact ih above empty

theorem Grounded.directory_above (grounded : t.Grounded) {e : Entry}
    (stands : t.entry? place = some e) (higher : q <+: place) (other : q ≠ place) :
    t.entry? q = some .directory := by
  obtain ⟨below, rfl⟩ := higher
  exact grounded.directory_of_prefix stands fun empty => other (by simp [empty])

theorem Grounded.linkless_of_solid (grounded : t.Grounded) (solid : t.Solid place) :
    t.Linkless place := by
  obtain ⟨e, stands, noLink⟩ := solid
  intro q target above link
  by_cases here : q = place
  · subst here
    exact noLink target (Option.some.inj (stands.symm.trans link))
  · rw [grounded.directory_above stands above here] at link
    cases link

theorem Grounded.none_below (grounded : t.Grounded) (gap : t.entry? place = none)
    (below : Place) : t.entry? (place ++ below) = none := by
  by_cases empty : below = []
  · simpa [empty] using gap
  · cases stands : t.entry? (place ++ below) with
    | none => rfl
    | some e =>
      rw [grounded.directory_of_prefix stands empty] at gap
      cases gap

theorem Grounded.linkless_of_gap (grounded : t.Grounded) (linkless : t.Linkless place) {n : String}
    (gap : t.entry? (place ++ [n]) = none) (rest : Place) : t.Linkless (place ++ n :: rest) := by
  intro q target higher link
  have gapAbove : place ++ [n] <+: place ++ n :: rest := ⟨rest, by simp⟩
  rcases List.prefix_or_prefix_of_prefix higher gapAbove with above | ⟨below, rfl⟩
  · rcases List.prefix_concat_iff.1 above with rfl | above
    · rw [gap] at link
      cases link
    · exact linkless q target above link
  · rw [grounded.none_below gap] at link
    cases link

theorem lookup_filter_ne {α β : Type} [BEq α] [LawfulBEq α] (entries : List (α × β)) {a b : α}
    (different : a ≠ b) :
    (entries.filter fun entry => entry.1 != b).lookup a = entries.lookup a := by
  induction entries with
  | nil => rfl
  | cons entry entries ih =>
    obtain ⟨c, e⟩ := entry
    by_cases same : c = b
    · subst same
      simp [List.lookup_cons, ih, beq_false_of_ne different]
    · simp [List.lookup_cons, ih, same]

theorem entry?_put (nonempty : place ≠ []) (e : Entry) :
    entry? (t.put place e) q = if q = place then some e else t.entry? q := by
  by_cases empty : q = []
  · subst empty
    simp [nonempty.symm]
  · rw [entry?_of_ne_nil empty, entry?_of_ne_nil empty, put, List.lookup_cons]
    by_cases same : q = place
    · simp [same]
    · simp [same, beq_false_of_ne same, lookup_filter_ne t same]

theorem put_put (t : Tree) (place : Place) (e e' : Entry) :
    Tree.put (t.put place e) place e' = t.put place e' := by
  simp [put]

/-- A tree stays grounded when an entry is put into a directory, unless it takes the place of a
directory. -/
theorem Grounded.put (grounded : t.Grounded) {above : Place} {n : String} {e : Entry}
    (directory : t.entry? above = some .directory)
    (kept : t.entry? (above ++ [n]) ≠ some .directory) : (t.put (above ++ [n]) e).Grounded := by
  have nonempty : above ++ [n] ≠ [] := by simp
  intro p m e' stands
  rw [entry?_put nonempty] at stands ⊢
  by_cases new : p ++ [m] = above ++ [n]
  · obtain ⟨rfl, -⟩ := List.append_inj' new rfl
    simp [directory]
  · rw [if_neg new] at stands
    have parent := grounded _ _ _ stands
    rw [if_neg, parent]
    rintro rfl
    exact kept parent

end Tree

end FlightBlocks
