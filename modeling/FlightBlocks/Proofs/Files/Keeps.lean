import FlightBlocks.Proofs.Files.Change
import FlightBlocks.Proofs.Files.Settle
/-!
What is found again after files were written. A tree may gain entries and its files may change; all
ways to an entry then still lead there, and a path that led to where nothing stood finds what came
to stand there.
-/

namespace FlightBlocks

namespace Place

theorem path_size_append (place below : Place) :
    (place ++ below).path.size = place.path.size + below.path.size := by
  induction place with
  | nil => simp [path, Path.size]
  | cons n place ih =>
    simp only [path, Path.size, List.cons_append, List.map_cons, List.foldr_cons] at ih ⊢
    omega

end Place

namespace Tree

/-- `t'` has all that `t` has, but its files may have other contents. -/
structure Keeps (t t' : Tree) : Prop where
  directory : ∀ p, t.isDirectory p = true → t'.isDirectory p = true
  solid : ∀ p, t.Solid p → t'.Solid p
  link : ∀ p target, t.entry? p = some (.link target) → t'.entry? p = some (.link target)

variable {t t' t'' : Tree} {place q : Place}

theorem Keeps.trans (keeps : t.Keeps t') (keeps' : t'.Keeps t'') : t.Keeps t'' where
  directory p here := keeps'.directory p (keeps.directory p here)
  solid p here := keeps'.solid p (keeps.solid p here)
  link p target here := keeps'.link p target (keeps.link p target here)

theorem OnlyDirectoriesNew.keeps {may : Place → Prop} (only : OnlyDirectoriesNew may t t') :
    t.Keeps t' where
  directory p here := isDirectory_iff.2 (only.kept (isDirectory_iff.1 here))
  solid := by
    rintro p ⟨e, stands, noLink⟩
    exact ⟨e, only.kept stands, noLink⟩
  link p target := only.kept

theorem keeps_put_directory (nonempty : q ≠ []) (gap : t.entry? q = none) :
    t.Keeps (t.put q .directory) :=
  have only : OnlyDirectoriesNew (fun _ => True) t (t.put q .directory) :=
    OnlyDirectoriesNew.put (fun _ => .inl rfl) nonempty gap trivial
  only.keeps

theorem Writable.keeps {content : ByteArray} (writable : t.Writable q) :
    t.Keeps (t.put q (.file content)) where
  directory _ := writable.isDirectory_put
  solid _ := writable.keeps_solid
  link _ _ link := (writable.entry?_put_ne (writable.ne_of_stands link (by simp))).trans link

theorem Strides.kept {parts : List Part} {stop : Stop} (keeps : t.Keeps t')
    (strides : t.Strides place parts stop) (stands : ∀ p, stop ≠ .free p) :
    t'.Strides place parts stop := by
  induction strides with
  | done => exact .done
  | here directory _ ih => exact .here (keeps.directory _ directory) (ih stands)
  | up directory _ ih => exact .up (keeps.directory _ directory) (ih stands)
  | name directory short solid _ ih =>
    exact .name (keeps.directory _ directory) short (keeps.solid _ solid) (ih stands)
  | free => exact absurd rfl (stands _)
  | link directory short link =>
    exact .link (keeps.directory _ directory) short (keeps.link _ _ link)

theorem walk_kept (keeps : t.Keeps t') {through : Bool} {hops : Nat} {parts : List Part}
    (walked : t.walk through hops place parts = .ok (.entry q)) :
    t'.walk through hops place parts = .ok (.entry q) := by
  refine walk_induction (motive := fun hops place parts =>
    t'.walk through hops place parts = .ok (.entry q)) ?_ ?_ walked
  · intro hops place parts strides final
    exact walk_of_final (strides.kept keeps (by simp)).stride_eq final
  · intro hops place parts p target rest strides goesOn later
    rw [walk_follows (strides.kept keeps (by simp)).stride_eq goesOn]
    exact later

theorem realpath_kept (keeps : t.Keeps t') {p : Path} (real : t.realpath p = .ok q) :
    t'.realpath p = .ok q := by
  rw [realpath_eq_ok_iff] at real ⊢
  have clean := clean_of_find real
  rw [find_of_clean clean] at real ⊢
  exact walk_kept keeps real

theorem realpath_of_add (grounded : t.Grounded) (added : t.add place.path .directory = .ok t') :
    ∃ q, q ≠ [] ∧ t.entry? q = none ∧ t' = t.put q .directory ∧ t'.Grounded ∧
      t'.realpath place.path = .ok q := by
  obtain ⟨q, reached, nonempty, gap, rfl, grounded'⟩ := add_directory grounded added
  refine ⟨q, nonempty, gap, rfl, grounded', ?_⟩
  have found := find_of_reach reached
  have clean := clean_of_find found
  rcases List.eq_nil_or_concat place with rfl | ⟨above, n, rfl⟩
  · cases found
  · rw [List.concat_eq_append] at found clean ⊢
    obtain ⟨p, stands⟩ := find_concat found
    obtain ⟨left, -, below⟩ := find_below stands clean
    rw [below] at found
    have strides : t.Strides p [.name n] (.free q) := by
      rcases walk_eq_ok found with ⟨strides, -⟩ | ⟨_, _, _, _, -, strides, goesOn, -⟩
      · exact strides
      · cases strides with
        | name _ _ _ later => cases later
        | link => simp at goesOn
    cases strides with
    | free directory short _ =>
      -- the way down to where the directory was put is kept, and its last step now finds it
      have keeps := keeps_put_directory nonempty gap
      have here : Tree.isDirectory (t.put (p ++ [n]) .directory) (p ++ [n]) = true := by
        simp [isDirectory_iff, entry?_put nonempty]
      have stands' := realpath_kept keeps (realpath_eq_ok_iff.2 stands)
      obtain ⟨left', -, below'⟩ := find_below (realpath_eq_ok_iff.1 stands') clean
      rw [realpath_eq_ok_iff, below']
      exact walk_of_final (Strides.name (keeps.directory _ directory) short
        (solid_of_isDirectory here) .done).stride_eq trivial
    | name _ _ _ later => cases later

/-- The way down to `place` passes `q`: that is where the path to it, or one above it, leads. -/
def OnWay (t : Tree) (place q : Place) : Prop :=
  ∃ above : Place, above <+: place ∧ t.realpath above.path = .ok q

theorem makeDirectories_passed (grounded : t.Grounded) (place : Place) :
    OnlyDirectoriesNew ((t.makeDirectories place).2.OnWay place) t
      (t.makeDirectories place).2 := by
  refine (makeDirectories_keeps
    (motive := fun t' => t'.Grounded ∧ OnlyDirectoriesNew (t'.OnWay place) t t') place
    ⟨grounded, fun _ => .inl rfl⟩ ?_).2
  rintro t' p t'' higher ⟨grounded', only⟩ added
  obtain ⟨q, nonempty, gap, rfl, grounded'', real⟩ := realpath_of_add grounded' added
  have keeps := keeps_put_directory nonempty gap
  have still : OnlyDirectoriesNew (Tree.OnWay (t'.put q .directory) place) t t' :=
    only.mono fun _ ⟨above, higher', real'⟩ => ⟨above, higher', realpath_kept keeps real'⟩
  exact ⟨grounded'', still.put nonempty gap ⟨p, higher, real⟩⟩

/-! Places found at themselves. -/

theorem Strides.split {front back : Place}
    (strides : t.Strides place ((front ++ back).map .name) (.entry q)) :
    t.Strides place (front.map .name) (.entry (place ++ front)) ∧
      t.Strides (place ++ front) (back.map .name) (.entry q) := by
  induction front generalizing place with
  | nil => exact ⟨by simpa using .done, by simpa using strides⟩
  | cons n front ih =>
    rw [List.cons_append, List.map_cons] at strides
    generalize tail : (front ++ back).map Part.name = rest at strides
    cases strides with
    | name directory short solid later =>
      obtain ⟨upTo, beyond⟩ := ih (tail ▸ later)
      rw [List.append_assoc] at upTo beyond
      exact ⟨.name directory short solid upTo, beyond⟩

theorem strides_of_reach (linkless : t.Linkless place)
    (reached : t.reach true place.path = .ok (.entry place)) :
    t.Strides [] (place.map .name) (.entry place) := by
  have found := find_of_reach reached
  rw [find_of_clean (clean_of_find found), Place.path_parts] at found
  rcases walk_eq_ok found with ⟨strides, -⟩ | ⟨_, p, target, rest, -, strides, -⟩
  · exact strides
  · rcases strides.linkless (by rwa [List.nil_append]) with h | h <;> cases h

theorem size_of_reach {through : Bool} {p : Path} {stop : Stop}
    (reached : t.reach through p = .ok stop) : p.size ≤ longestPath := by
  have clean := clean_of_find (find_of_reach reached)
  by_contra long
  rw [reach, if_pos (by simp [clean]; omega)] at reached
  cases reached

theorem reach_of_strides {through : Bool} (clean : place.path.hasNul = false)
    (short : place.path.size ≤ longestPath)
    (strides : t.Strides [] (place.map .name) (.entry q)) :
    t.reach through place.path = .ok (.entry q) := by
  rw [reach_of_short short, find_of_clean clean]
  exact walk_of_final strides.stride_eq trivial

theorem makeDirectories_above {n : String} (linkless : t.Linkless (place ++ [n]))
    (reached : t.reach true (place ++ [n]).path = .ok (.entry (place ++ [n]))) :
    t.makeDirectories place = (.ok (), t) := by
  -- what is reached name by name has directories all the way down
  obtain ⟨above, below⟩ := (strides_of_reach linkless reached).split
  have directory : t.isDirectory place = true := by
    cases below
    assumption
  have clean := Place.hasNul_of_concat (clean_of_find (find_of_reach reached))
  have short := size_of_reach reached
  rw [Place.path_size_append] at short
  exact makeDirectories_of_directory directory fun through =>
    reach_of_strides clean (by omega) above

/-- What a write leaves for the next one to the same place: all that was there, a place that is
found at itself, and nothing that would not be replaced. -/
theorem write_leaves {content : ByteArray} (grounded : t.Grounded) (linkless : t.Linkless place)
    (written : t.write place.path content = .ok t') :
    t.Keeps t' ∧ t'.Strides [] (place.map .name) (.entry place) ∧
      t'.makeDirectories place.parent = (.ok (), t') ∧
      ∀ other, ∃ tree, t.write place.path other = .ok tree ∧
        t'.write place.path other = .ok tree := by
  obtain ⟨put, writable, reached⟩ := write_eq_ok_of_linkless grounded linkless written
  have linkless' := (grounded.write written).linkless_of_solid (put ▸ writable.solid_put)
  have reached' : t'.reach true place.path = .ok (.entry place) :=
    put ▸ writable.reach_put reached content
  have file : t'.entry? place = some (.file content) := by
    simp [put, entry?_put writable.not_nil]
  refine ⟨put ▸ writable.keeps, strides_of_reach linkless' reached', ?_, fun other =>
    ⟨t.put place (.file other), writable.write reached other, ?_⟩⟩
  · obtain ⟨up, n, rfl⟩ := writable.exists_concat
    rw [Place.parent_concat]
    exact makeDirectories_above linkless' reached'
  · rw [Writable.write (.inr ⟨content, file⟩) (.inl reached'), put, put_put]

theorem write_made_leaves {content : ByteArray} (grounded : t.Grounded)
    (linkless : t.Linkless place)
    (written : (t.makeDirectories place.parent).2.write place.path content = .ok t') :
    (t.makeDirectories place.parent).2.Grounded ∧ t.Keeps t' ∧
      t'.Strides [] (place.map .name) (.entry place) ∧
      t'.makeDirectories place.parent = (.ok (), t') ∧
      ∀ other, ∃ tree, (t.makeDirectories place.parent).2.write place.path other = .ok tree ∧
        t'.write place.path other = .ok tree := by
  obtain ⟨grounded', only⟩ :=
    makeDirectories_on_way grounded (linkless.of_prefix (List.dropLast_prefix place))
  obtain ⟨keeps, strides, made, again⟩ := write_leaves grounded' (only.linkless linkless) written
  exact ⟨grounded', only.keeps.trans keeps, strides, made, again⟩

/-! Where a path leads when all links lead somewhere. -/

theorem LinksLead.linkTarget?_eq_none (lead : t.LinksLead) (grounded : t.Grounded)
    (missing : t.Missing place) : t.linkTarget? place.path = none := by
  obtain ⟨above, n, rfl⟩ := missing.not_nil
  cases asked : t.linkTarget? (Place.path (above ++ [n])) with
  | none => rfl
  | some target =>
    obtain ⟨q, stands, link⟩ := stands_of_linkTarget? asked
    exact absurd missing (lead.not_missing grounded stands link)

theorem LinksLead.settle_eq_ok (lead : t.LinksLead) (grounded : t.Grounded) {depth hops : Nat}
    {rest : Place} (settled : t.settle depth hops place rest = .ok q) :
    ∃ above below found, place = above ++ below ∧ t.realpath above.path = .ok found ∧
      q = found ++ (below ++ rest) := by
  induction place using List.reverseRecOn generalizing rest with
  | nil =>
    rw [settle_found t.realpath_nil] at settled
    exact ⟨[], [], [], rfl, t.realpath_nil, (Except.ok.inj settled).symm⟩
  | append_singleton place n ih =>
    rcases settle_cases settled with ⟨found, real, rfl⟩ | missing
    · exact ⟨place ++ [n], [], found, by simp, real, rfl⟩
    · rw [settle_shorten missing (lead.linkTarget?_eq_none grounded missing)] at settled
      obtain ⟨above, below, found, rfl, real, rfl⟩ := ih settled
      exact ⟨above, below ++ [n], found, by simp, real, by simp⟩

theorem canonical_clean (settled : t.canonical place = .ok q) : place.path.hasNul = false := by
  rcases settle_cases settled with ⟨found, real, -⟩ | missing
  · exact clean_of_find (realpath_eq_ok_iff.1 real)
  · exact missing.clean

theorem realpath_append {above below found : Place} (clean : (above ++ below).path.hasNul = false)
    (real : t.realpath above.path = .ok found)
    (strides : t.Strides found (below.map .name) (.entry q)) :
    t.realpath (above ++ below).path = .ok q := by
  cases below with
  | nil =>
    cases strides
    simpa using real
  | cons n below =>
    have found' := realpath_eq_ok_iff.1 real
    rw [find_of_clean (clean_of_find found')] at found'
    obtain ⟨left, -, goesOn⟩ := t.walk_append mostLinks [] above.path.parts
    rw [realpath_eq_ok_iff, find_of_clean clean, Place.path_parts, List.map_append,
      ← Place.path_parts, goesOn true _ (by simp), found']
    exact walk_of_final strides.stride_eq trivial

theorem Keeps.canonical (keeps : t.Keeps t') (lead : t.LinksLead) (grounded : t.Grounded)
    (settled : t.canonical place = .ok q) (stands : t'.Strides [] (q.map .name) (.entry q)) :
    t'.canonical place = .ok q := by
  have clean := canonical_clean settled
  obtain ⟨above, below, found, rfl, real, rfl⟩ := lead.settle_eq_ok grounded settled
  rw [List.append_nil] at stands
  have real' := realpath_append clean (realpath_kept keeps real) stands.split.2
  rw [List.append_nil]
  exact (settle_found real').trans (by simp)

end Tree

end FlightBlocks
