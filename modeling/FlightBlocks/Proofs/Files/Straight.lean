import FlightBlocks.Proofs.Files.Settle
/-!
Paths with no link on their way. Such a path is stopped by a file above its end, or leads to the
place that it names, whether or not something stands there; nothing of the search for the part that
exists is seen in where it leads.
-/

namespace FlightBlocks

namespace Place

/-- Names that the system takes: none is too long, or has a NUL character in it. -/
structure Fits (place : Place) : Prop where
  clean : place.path.hasNul = false
  short : ∀ n ∈ place, n.utf8ByteSize ≤ longestName

theorem Fits.of_concat {place : Place} {n : String} (fits : Fits (place ++ [n])) : place.Fits where
  clean := hasNul_of_concat fits.clean
  short _ member := fits.short _ (by simp [member])

theorem Fits.of_prefix {place q : Place} (fits : place.Fits) (above : q <+: place) : q.Fits := by
  obtain ⟨below, rfl⟩ := above
  induction below using List.reverseRecOn with
  | nil => simpa using fits
  | append_singleton below n ih => exact ih (Fits.of_concat (by simpa using fits))

end Place

namespace Tree

variable {t : Tree} {place q rest : Place} {n : String}

def Blocked (t : Tree) (place : Place) : Prop :=
  ∃ q content, q <+: place ∧ q ≠ place ∧ t.entry? q = some (.file content)

theorem Blocked.of_prefix (blocked : t.Blocked q) (above : q <+: place) : t.Blocked place := by
  obtain ⟨p, content, higher, other, file⟩ := blocked
  refine ⟨p, content, higher.trans above, ?_, file⟩
  rintro rfl
  exact other (higher.eq_of_length (Nat.le_antisymm higher.length_le above.length_le))

theorem blocked_concat_iff : t.Blocked (place ++ [n]) ↔
    t.Blocked place ∨ ∃ content, t.entry? place = some (.file content) := by
  constructor
  · rintro ⟨q, content, above, other, file⟩
    have higher := (List.prefix_concat_iff.1 above).resolve_left other
    by_cases here : q = place
    · exact .inr ⟨content, here ▸ file⟩
    · exact .inl ⟨q, content, higher, here, file⟩
  · rintro (blocked | ⟨content, file⟩)
    · exact blocked.of_prefix (List.prefix_append _ _)
    · exact ⟨place, content, List.prefix_append _ _, by simp, file⟩

theorem Grounded.not_blocked (grounded : t.Grounded) {e : Entry}
    (stands : t.entry? place = some e) :
    ¬ t.Blocked place := by
  rintro ⟨q, content, above, other, file⟩
  rw [grounded.directory_above stands above other] at file
  cases file

/-- What a path with no link on its way leads to. -/
inductive Straight (t : Tree) (place : Place) : Except FileFault Place → Prop
  | blocked (file : t.Blocked place) : Straight t place (.error .notDirectory)
  | gap (clear : ¬ t.Blocked place) (gap : t.entry? place = none) :
      Straight t place (.error .notFound)
  | stands (solid : t.Solid place) : Straight t place (.ok place)

theorem realpath_concat_of_error {fault : FileFault} (failed : t.realpath place.path = .error fault)
    (clean : (place ++ [n]).path.hasNul = false) :
    t.realpath (place ++ [n]).path = .error fault := by
  obtain ⟨left, -, goesOn⟩ := find_goOn (t := t) clean
  rw [realpath] at failed ⊢
  rw [goesOn]
  cases found : t.find true place.path with
  | error fault' => rw [found] at failed; cases failed; rfl
  | ok stop =>
    rw [found] at failed
    cases stop with
    | entry q => cases failed
    | free q => cases failed; rfl
    | link q target behind => cases failed; rfl

theorem straight_below (grounded : t.Grounded) (linkless : t.Linkless (place ++ [n]))
    (fits : Place.Fits (place ++ [n])) (solid : t.Solid place)
    (stands : t.realpath place.path = .ok place) :
    t.Straight (place ++ [n]) (t.realpath (place ++ [n]).path) := by
  obtain ⟨left, -, below⟩ := find_below (realpath_eq_ok_iff.1 stands) fits.clean
  obtain ⟨e, here, noLink⟩ := solid
  have short := fits.short n (by simp)
  rw [realpath, below]
  cases e with
  | link target => exact absurd rfl (noLink target)
  | file content =>
    have other : t.isDirectory place = false := by simp [isDirectory, here]
    rw [walk_of_stride (stride_notDirectory other) (by simp)]
    exact .blocked (blocked_concat_iff.2 (.inr ⟨content, here⟩))
  | directory =>
    have directory := isDirectory_iff.2 here
    have clear : ¬ t.Blocked (place ++ [n]) := by
      rw [blocked_concat_iff]
      rintro (blocked | ⟨content, file⟩)
      · exact grounded.not_blocked here blocked
      · rw [here] at file; cases file
    rcases t.stands_cases (place ++ [n]) with gap | ⟨target, link⟩ | solid'
    · rw [walk_of_stride (stride_none directory short gap) (by simp)]
      exact .gap clear gap
    · exact absurd link (linkless _ _ List.prefix_rfl)
    · rw [walk_of_stride (stride_solid directory short solid') (by simp [stride])]
      exact .stands solid'

theorem realpath_straight (grounded : t.Grounded) (linkless : t.Linkless place)
    (fits : place.Fits) : t.Straight place (t.realpath place.path) := by
  induction place using List.reverseRecOn with
  | nil =>
    rw [realpath_nil]
    exact .stands t.solid_nil
  | append_singleton place n ih =>
    have above := ih linkless.of_concat fits.of_concat
    generalize real : t.realpath (Place.path place) = result at above
    cases above with
    | blocked file =>
      rw [realpath_concat_of_error real fits.clean]
      exact .blocked (file.of_prefix (List.prefix_append _ _))
    | gap clear gap =>
      rw [realpath_concat_of_error real fits.clean]
      refine .gap (fun blocked => ?_) (grounded.none_below gap [n])
      rcases blocked_concat_iff.1 blocked with blocked | ⟨content, file⟩
      · exact clear blocked
      · rw [gap] at file; cases file
    | stands solid => exact straight_below grounded linkless fits solid real

section

variable {depth hops : Nat}

theorem settle_linkless (linkless : t.Linkless place)
    (settled : t.settle depth hops place rest = .ok q) : q = place ++ rest := by
  induction place using List.reverseRecOn generalizing rest with
  | nil =>
    rw [settle_found t.realpath_nil] at settled
    exact (Except.ok.inj settled).symm
  | append_singleton place n ih =>
    rcases settle_cases settled with ⟨found, real, rfl⟩ | missing
    · rcases find_linkless linkless (realpath_eq_ok_iff.1 real) with h | h <;> cases h
      rfl
    · rw [settle_shorten missing linkless.linkTarget?_eq_none] at settled
      simpa using ih linkless.of_concat settled

theorem settle_of_blocked (grounded : t.Grounded) (linkless : t.Linkless place)
    (fits : place.Fits) (blocked : t.Blocked place) :
    t.settle depth hops place rest = .error .notDirectory := by
  have straight := realpath_straight grounded linkless fits
  generalize real : t.realpath place.path = result at straight
  cases straight with
  | blocked => exact settle_fault real (by simp)
  | gap clear => exact absurd blocked clear
  | stands solid =>
    obtain ⟨e, here, -⟩ := solid
    exact absurd blocked (grounded.not_blocked here)

theorem settle_of_clear (grounded : t.Grounded) (linkless : t.Linkless place)
    (fits : place.Fits) (clear : ¬ t.Blocked place) :
    t.settle depth hops place rest = .ok (place ++ rest) := by
  induction place using List.reverseRecOn generalizing rest with
  | nil => exact settle_found t.realpath_nil
  | append_singleton place n ih =>
    have straight := realpath_straight grounded linkless fits
    generalize real : t.realpath (Place.path (place ++ [n])) = result at straight
    cases straight with
    | blocked file => exact absurd file clear
    | gap =>
      rw [settle_shorten real linkless.linkTarget?_eq_none, ih linkless.of_concat fits.of_concat
        fun blocked => clear (blocked.of_prefix (List.prefix_append _ _))]
      simp
    | stands => exact settle_found real

end

end Tree

end FlightBlocks
