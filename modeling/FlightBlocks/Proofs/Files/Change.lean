import FlightBlocks.Proofs.Files.Access
/-!
What making directories and writing a file change. A file comes to stand at one place, directories
come to stand where nothing was, and the rest of the tree stays as it is.
-/

namespace FlightBlocks

def Stop.filled (q : Place) : Stop → Stop
  | .free place => if place = q then .entry place else .free place
  | stop => stop

theorem Stop.Final.filled {through : Bool} {stop : Stop} {q : Place} (final : stop.Final through) :
    (stop.filled q).Final through := by
  cases stop with
  | entry p => exact final
  | free p => simp only [Stop.filled]; split <;> trivial
  | link p target rest => exact final

namespace Tree

variable {t : Tree} {place q : Place}

/-- Nothing or a file stands at `q`: what a written file may take the place of. -/
def Writable (t : Tree) (q : Place) : Prop :=
  t.entry? q = none ∨ ∃ content, t.entry? q = some (.file content)

theorem Writable.ne_of_stands (writable : t.Writable q) {e : Entry}
    (stands : t.entry? place = some e) (other : ∀ content, e ≠ .file content) : place ≠ q := by
  rintro rfl
  rcases writable with gap | ⟨content, file⟩
  · rw [stands] at gap; cases gap
  · exact other content (Option.some.inj (stands.symm.trans file))

theorem Writable.not_directory (writable : t.Writable q) : t.entry? q ≠ some .directory :=
  fun directory => writable.ne_of_stands directory (by simp) rfl

theorem Writable.not_nil (writable : t.Writable q) : q ≠ [] :=
  (writable.ne_of_stands t.entry?_nil (by simp)).symm

theorem Writable.exists_concat (writable : t.Writable q) : ∃ above n, q = above ++ [n] := by
  rcases List.eq_nil_or_concat q with rfl | ⟨above, n, rfl⟩
  · exact absurd rfl writable.not_nil
  · exact ⟨above, n, List.concat_eq_append⟩

section

variable {content : ByteArray} (writable : t.Writable q)

include writable

theorem Writable.entry?_put_ne (elsewhere : place ≠ q) :
    entry? (t.put q (.file content)) place = t.entry? place := by
  rw [entry?_put writable.not_nil, if_neg elsewhere]

theorem Writable.solid_put : (t.put q (.file content)).Solid q :=
  ⟨.file content, by simp [entry?_put writable.not_nil], by simp⟩

theorem Writable.isDirectory_put (directory : t.isDirectory place = true) :
    (t.put q (.file content)).isDirectory place = true := by
  rw [isDirectory_iff] at directory ⊢
  exact (writable.entry?_put_ne (writable.ne_of_stands directory (by simp))).trans directory

theorem Writable.keeps_solid (solid : t.Solid place) : (t.put q (.file content)).Solid place := by
  by_cases here : place = q
  · exact here ▸ writable.solid_put
  · obtain ⟨e, stands, noLink⟩ := solid
    exact ⟨e, (writable.entry?_put_ne here).trans stands, noLink⟩

theorem Strides.put {parts : List Part} {stop : Stop} (strides : t.Strides place parts stop) :
    (t.put q (.file content)).Strides place parts (stop.filled q) := by
  induction strides with
  | done => exact .done
  | here directory _ ih => exact .here (writable.isDirectory_put directory) ih
  | up directory _ ih => exact .up (writable.isDirectory_put directory) ih
  | name directory short solid _ ih =>
    exact .name (writable.isDirectory_put directory) short (writable.keeps_solid solid) ih
  | @free place n directory short gap =>
    -- where nothing was, the file may be what the way now comes to
    by_cases here : place ++ [n] = q
    · rw [Stop.filled, if_pos here]
      exact .name (writable.isDirectory_put directory) short (here ▸ writable.solid_put) .done
    · rw [Stop.filled, if_neg here]
      exact .free (writable.isDirectory_put directory) short
        ((writable.entry?_put_ne here).trans gap)
  | link directory short link =>
    exact .link (writable.isDirectory_put directory) short
      ((writable.entry?_put_ne (writable.ne_of_stands link (by simp))).trans link)

theorem walk_put {through : Bool} {hops : Nat} {parts : List Part} {stop : Stop}
    (walked : t.walk through hops place parts = .ok stop) :
    (t.put q (.file content)).walk through hops place parts = .ok (stop.filled q) := by
  refine walk_induction (motive := fun hops place parts =>
    (t.put q (.file content)).walk through hops place parts = .ok (stop.filled q)) ?_ ?_ walked
  · intro hops place parts strides final
    exact walk_of_final (strides.put writable).stride_eq final.filled
  · intro hops place parts p target rest strides goesOn later
    rw [walk_follows (strides.put writable).stride_eq goesOn]
    exact later

theorem reach_put {through : Bool} {p : Path} {stop : Stop}
    (reached : t.reach through p = .ok stop) :
    (t.put q (.file content)).reach through p = .ok (stop.filled q) := by
  have clean := clean_of_find (find_of_reach reached)
  unfold reach at reached ⊢
  split at reached
  · cases reached
  next fits =>
    rw [if_neg fits, find_of_clean clean]
    exact walk_put writable (find_of_clean clean ▸ reached)

end

/-! Writing a file. -/

theorem write_of_free {p : Path} {content : ByteArray} (reached : t.reach true p = .ok (.free q)) :
    t.write p content = .ok (t.put q (.file content)) := by
  rw [write, reached]
  rfl

theorem write_of_entry {p : Path} {content : ByteArray}
    (reached : t.reach true p = .ok (.entry q)) :
    t.write p content =
      if t.isDirectory q then .error .isDirectory else .ok (t.put q (.file content)) := by
  rw [write, reached]
  rfl

theorem reach_through_ne_link {p : Path} {target : String} {rest : List Part} :
    t.reach true p ≠ .ok (.link q target rest) := fun reached =>
  find_through_ne_link (find_of_reach reached)

theorem write_eq_ok {t' : Tree} {p : Path} {content : ByteArray} (grounded : t.Grounded)
    (written : t.write p content = .ok t') : ∃ q, t' = t.put q (.file content) ∧ t.Writable q ∧
      (t.reach true p = .ok (.entry q) ∨ t.reach true p = .ok (.free q)) := by
  cases reached : t.reach true p with
  | error fault => rw [write, reached] at written; cases written
  | ok stop =>
    have holds := find_holds grounded (find_of_reach reached)
    cases stop with
    | entry q =>
      rw [write_of_entry reached] at written
      split at written
      · cases written
      next file =>
        obtain ⟨e, stands, noLink⟩ := holds
        refine ⟨q, (Except.ok.inj written).symm, .inr ?_, .inl rfl⟩
        cases e with
        | file before => exact ⟨before, stands⟩
        | directory => exact absurd (isDirectory_iff.2 stands) file
        | link target => exact absurd rfl (noLink target)
    | free q =>
      rw [write_of_free reached] at written
      obtain ⟨above, n, -, -, gap⟩ := holds
      exact ⟨q, (Except.ok.inj written).symm, .inl gap, .inr rfl⟩
    | link q target rest => exact absurd reached reach_through_ne_link

theorem write_eq_ok_of_linkless {t' : Tree} {content : ByteArray} (grounded : t.Grounded)
    (linkless : t.Linkless place) (written : t.write place.path content = .ok t') :
    t' = t.put place (.file content) ∧ t.Writable place ∧
      (t.reach true place.path = .ok (.entry place) ∨
        t.reach true place.path = .ok (.free place)) := by
  obtain ⟨q, put, writable, reached⟩ := write_eq_ok grounded written
  obtain rfl : q = place := by
    rcases reached with reached | reached
    · rcases find_linkless linkless (find_of_reach reached) with h | h <;> cases h
      rfl
    · rcases find_linkless linkless (find_of_reach reached) with h | h <;> cases h
      rfl
  exact ⟨put, writable, reached⟩

section

variable {p : Path} (writable : t.Writable q)
  (reached : t.reach true p = .ok (.entry q) ∨ t.reach true p = .ok (.free q))

include writable reached

theorem Writable.write (content : ByteArray) :
    t.write p content = .ok (t.put q (.file content)) := by
  rcases reached with reached | reached
  · rw [write_of_entry reached, if_neg (mt isDirectory_iff.1 writable.not_directory)]
  · exact write_of_free reached

theorem Writable.reach_put (content : ByteArray) :
    (t.put q (.file content)).reach true p = .ok (.entry q) := by
  rcases reached with reached | reached
  · exact Tree.reach_put writable reached
  · rw [Tree.reach_put writable reached, Stop.filled, if_pos rfl]

end

theorem Grounded.write {t' : Tree} {p : Path} {content : ByteArray} (grounded : t.Grounded)
    (written : t.write p content = .ok t') : t'.Grounded := by
  obtain ⟨q, rfl, writable, reached⟩ := write_eq_ok grounded written
  have stands : ∃ above n, q = above ++ [n] ∧ t.entry? above = some .directory := by
    rcases reached with reached | reached
    · have solid : t.Solid q := find_holds grounded (find_of_reach reached)
      obtain ⟨above, n, rfl⟩ := writable.exists_concat
      exact ⟨above, n, rfl, by simpa using grounded.parent_directory solid⟩
    · obtain ⟨above, n, rfl, directory, -⟩ := find_holds grounded (find_of_reach reached)
      exact ⟨above, n, rfl, directory⟩
  obtain ⟨above, n, rfl, directory⟩ := stands
  exact grounded.put directory writable.not_directory

theorem readBytes_of_file {p : Path} {content : ByteArray}
    (reached : t.reach true p = .ok (.entry q))
    (file : t.entry? q = some (.file content)) : t.readBytes p = .ok content := by
  simp [readBytes, reached, file, bind, Except.bind, pure, Except.pure]

theorem fromUTF8?_toUTF8 (text : String) : String.fromUTF8? text.toUTF8 = some text := by
  rw [String.fromUTF8?, String.toUTF8_eq_toByteArray, dif_pos text.isValidUTF8]
  rfl

theorem readText_of_write {t' : Tree} {p : Path} {text : String} (grounded : t.Grounded)
    (written : t.write p text.toUTF8 = .ok t') : t'.readText p = .ok text := by
  obtain ⟨q, rfl, writable, reached⟩ := write_eq_ok grounded written
  have again := writable.reach_put reached text.toUTF8
  have file : entry? (t.put q (.file text.toUTF8)) q = some (.file text.toUTF8) := by
    simp [entry?_put writable.not_nil]
  rw [readText, readBytes_of_file again file]
  simp only [bind, Except.bind, fromUTF8?_toUTF8]
  rfl

/-! Making directories. -/

theorem add_eq_ok {t' : Tree} {p : Path} {e : Entry} (added : t.add p e = .ok t') :
    ∃ q, t.reach false p = .ok (.free q) ∧ t' = t.put q e := by
  cases reached : t.reach false p with
  | error fault => rw [add, reached] at added; cases added
  | ok stop =>
    rw [add, reached] at added
    cases stop with
    | free q => exact ⟨q, rfl, (Except.ok.inj added).symm⟩
    | entry q => cases added
    | link q target rest => cases added

theorem makeDirectories_of_directory (directory : t.isDirectory q = true)
    (reached : ∀ through, t.reach through place.path = .ok (.entry q)) :
    t.makeDirectories place = (.ok (), t) := by
  have stands : t.add place.path .directory = .error .exists := by
    rw [add, reached]
    rfl
  rw [makeDirectories, stands]
  simp [leadsToDirectory, reached, directory]

theorem makeDirectories_keeps {motive : Tree → Prop} (place : Place) (start : motive t)
    (step : ∀ t (q : Place) t', q <+: place → motive t → t.add q.path .directory = .ok t' →
      motive t') :
    motive (t.makeDirectories place).2 := by
  rw [makeDirectories]
  split
  next t' added => exact step t place t' (List.prefix_refl place) start added
  next fault failed =>
    split
    next deeper =>
      have above := makeDirectories_keeps place.parent start fun t q t' higher =>
        step t q t' (higher.trans (List.dropLast_prefix place))
      split
      next fault t' made => exact (made ▸ above :)
      next t' made =>
        rw [made] at above
        split
        next t'' added => exact step t' place t'' (List.prefix_refl place) above added
        next => exact above
    next => exact start
termination_by place.length
decreasing_by
  have nonempty := List.length_pos_iff.2 ‹_ = FileFault.notFound ∧ place ≠ []›.2
  simp only [Place.parent, List.length_dropLast]
  omega

/-- Directories may have come to stand where nothing was, at places that `may` allows. -/
def OnlyDirectoriesNew (may : Place → Prop) (t t' : Tree) : Prop :=
  ∀ q, t'.entry? q = t.entry? q ∨ t.entry? q = none ∧ t'.entry? q = some .directory ∧ may q

theorem OnlyDirectoriesNew.kept {may : Place → Prop} {t' : Tree}
    (only : OnlyDirectoriesNew may t t') {e : Entry} (stands : t.entry? place = some e) :
    t'.entry? place = some e := by
  rcases only place with same | ⟨gap, -⟩
  · rw [same, stands]
  · rw [gap] at stands; cases stands

theorem OnlyDirectoriesNew.linkless {may : Place → Prop} {t' : Tree}
    (only : OnlyDirectoriesNew may t t') (linkless : t.Linkless place) : t'.Linkless place := by
  intro q target above link
  rcases only q with same | ⟨-, new, -⟩
  · exact linkless q target above (same ▸ link)
  · rw [new] at link; cases link

theorem OnlyDirectoriesNew.put {may : Place → Prop} {t' : Tree} (only : OnlyDirectoriesNew may t t')
    (nonempty : q ≠ []) (gap : t'.entry? q = none) (allowed : may q) :
    OnlyDirectoriesNew may t (t'.put q .directory) := by
  intro p
  rw [entry?_put nonempty]
  split
  next same =>
    subst same
    rcases only p with same | ⟨-, new, -⟩
    · exact .inr ⟨same ▸ gap, rfl, allowed⟩
    · rw [gap] at new; cases new
  next => exact only p

theorem OnlyDirectoriesNew.file_iff {may : Place → Prop} {t' : Tree} {content : ByteArray}
    (only : OnlyDirectoriesNew may t t') :
    t'.entry? q = some (.file content) ↔ t.entry? q = some (.file content) := by
  refine ⟨fun file => ?_, only.kept⟩
  rcases only q with same | ⟨-, new, -⟩
  · rwa [← same]
  · rw [new] at file
    cases file

theorem OnlyDirectoriesNew.mono {may may' : Place → Prop} {t' : Tree}
    (only : OnlyDirectoriesNew may t t') (wider : ∀ q, may q → may' q) :
    OnlyDirectoriesNew may' t t' := by
  intro q
  rcases only q with same | ⟨gap, new, allowed⟩
  · exact .inl same
  · exact .inr ⟨gap, new, wider q allowed⟩

theorem add_directory {t' : Tree} {p : Path} (grounded : t.Grounded)
    (added : t.add p .directory = .ok t') : ∃ q, t.reach false p = .ok (.free q) ∧ q ≠ [] ∧
      t.entry? q = none ∧ t' = t.put q .directory ∧ t'.Grounded := by
  obtain ⟨q, reached, rfl⟩ := add_eq_ok added
  obtain ⟨above, n, rfl, directory, gap⟩ := find_holds grounded (find_of_reach reached)
  exact ⟨_, reached, by simp, gap, rfl, grounded.put directory (by simp [gap])⟩

theorem makeDirectories_only_new (grounded : t.Grounded) (place : Place) :
    (t.makeDirectories place).2.Grounded ∧
      OnlyDirectoriesNew (fun _ => True) t (t.makeDirectories place).2 := by
  refine makeDirectories_keeps (motive := fun t' => t'.Grounded ∧ OnlyDirectoriesNew _ t t') place
    ⟨grounded, fun _ => .inl rfl⟩ ?_
  rintro t' q t'' - ⟨grounded', only⟩ added
  obtain ⟨p, -, nonempty, gap, rfl, grounded''⟩ := add_directory grounded' added
  exact ⟨grounded'', only.put nonempty gap trivial⟩

/-- On a way down without links, directories are made on that way only. -/
theorem makeDirectories_on_way (grounded : t.Grounded) (linkless : t.Linkless place) :
    (t.makeDirectories place).2.Grounded ∧
      OnlyDirectoriesNew (· <+: place) t (t.makeDirectories place).2 := by
  refine makeDirectories_keeps (motive := fun t' => t'.Grounded ∧ OnlyDirectoriesNew _ t t') place
    ⟨grounded, fun _ => .inl rfl⟩ ?_
  rintro t' q t'' higher ⟨grounded', only⟩ added
  obtain ⟨p, reached, nonempty, gap, rfl, grounded''⟩ := add_directory grounded' added
  have still := only.linkless (linkless.of_prefix higher)
  obtain rfl : p = q := by
    rcases find_linkless still (find_of_reach reached) with h | h <;> cases h
    rfl
  exact ⟨grounded'', only.put nonempty gap higher⟩

end Tree

end FlightBlocks
