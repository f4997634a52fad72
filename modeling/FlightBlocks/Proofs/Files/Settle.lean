import FlightBlocks.Proofs.Files.Access
/-!
Where a path leads when not all of it exists. The search takes names off the end of the path until
what is left exists, and follows a link that leads nowhere by its text. The place it ends at has
no link above it or at it, unless the search strays: it follows such a link to a place that exists
after all, with a link on the rest of the path there, or it takes a link for nothing because its
path is too long to ask for it.
-/

namespace FlightBlocks.Tree

variable {t : Tree}

/-- How the search for the part of `place` that exists, with `rest` behind it, comes to miss a
link. -/
inductive Strays (t : Tree) : Place → Place → Prop
  /-- `missing/../d` leads nowhere as long as there is no `missing`, but its text says `d`. -/
  | folded {above rest directory found : Place} {n target : String}
      (missing : t.Missing (above ++ [n]))
      (asked : t.linkTarget? (above ++ [n]).path = some target)
      (stands : t.realpath above.path = .ok directory)
      (real : t.realpath (directory.follow (.ofText target)).path = .ok found)
      (link : ¬ t.Linkless (found ++ rest)) : Strays t (above ++ [n]) rest
  | overlooked {above rest directory : Place} {n target : String}
      (missing : t.Missing (above ++ [n])) (long : longestPath < (above ++ [n]).path.size)
      (stands : t.realpath above.path = .ok directory)
      (link : t.entry? (directory ++ [n]) = some (.link target)) : Strays t (above ++ [n]) rest
  | hop {above rest directory : Place} {n target : String} (missing : t.Missing (above ++ [n]))
      (asked : t.linkTarget? (above ++ [n]).path = some target)
      (stands : t.realpath above.path = .ok directory)
      (later : Strays t (directory.follow (.ofText target)) rest) : Strays t (above ++ [n]) rest
  | shorten {above rest : Place} {n : String} (missing : t.Missing (above ++ [n]))
      (nothing : t.linkTarget? (above ++ [n]).path = none) (later : Strays t above (n :: rest)) :
      Strays t (above ++ [n]) rest

theorem Strays.missing {place rest : Place} (strays : t.Strays place rest) : t.Missing place := by
  cases strays <;> assumption

theorem LinksLead.not_strays (lead : t.LinksLead) (grounded : t.Grounded) {place rest : Place} :
    ¬ t.Strays place rest := by
  intro strays
  induction strays with
  | folded missing asked =>
    obtain ⟨q, stands, link⟩ := stands_of_linkTarget? asked
    exact lead.not_missing grounded stands link missing
  | overlooked missing _ stands link => exact lead.not_missing grounded stands link missing
  | hop missing asked =>
    obtain ⟨q, stands, link⟩ := stands_of_linkTarget? asked
    exact lead.not_missing grounded stands link missing
  | shorten _ _ _ ih => exact ih

theorem Strays.not_of_real {place rest found : Place} (real : t.realpath place.path = .ok found) :
    ¬ t.Strays place rest := by
  intro strays
  cases real.symm.trans strays.missing

section

variable {depth hops : Nat} {place above rest : Place} {n : String}

theorem settle_found {found : Place} (real : t.realpath place.path = .ok found) :
    t.settle depth hops place rest = .ok (found ++ rest) := by
  rw [settle, real]

theorem settle_fault {fault : FileFault} (failed : t.realpath place.path = .error fault)
    (other : fault ≠ .notFound) : t.settle depth hops place rest = .error fault := by
  rw [settle, failed]
  split
  next h => cases h
  next h => cases h; exact absurd rfl other
  next h => cases h; rfl

theorem settle_cases {p : Place} (settled : t.settle depth hops place rest = .ok p) :
    (∃ found, t.realpath place.path = .ok found ∧ p = found ++ rest) ∨ t.Missing place := by
  cases real : t.realpath place.path with
  | ok found =>
    rw [settle_found real] at settled
    exact .inl ⟨found, rfl, (Except.ok.inj settled).symm⟩
  | error fault =>
    by_cases notFound : fault = .notFound
    · subst notFound
      exact .inr real
    · rw [settle_fault real notFound] at settled
      cases settled

theorem settle_shorten (missing : t.Missing (above ++ [n]))
    (nothing : t.linkTarget? (above ++ [n]).path = none) :
    t.settle depth hops (above ++ [n]) rest = t.settle depth hops above (n :: rest) := by
  rw [settle]
  unfold Missing at missing
  simp [missing, nothing]

theorem settle_hop {directory : Place} {target : String} (missing : t.Missing (above ++ [n]))
    (asked : t.linkTarget? (above ++ [n]).path = some target)
    (stands : t.realpath above.path = .ok directory) :
    t.settle (depth + 1) (hops + 1) (above ++ [n]) rest =
      t.settle (depth + 1) hops (directory.follow (.ofText target)) rest := by
  rw [settle]
  unfold Missing at missing
  simp [missing, asked, settle_found stands, bind, Except.bind]

theorem settle_endless {target : String} (missing : t.Missing place)
    (asked : t.linkTarget? place.path = some target) (none : depth = 0 ∨ hops = 0) :
    t.settle depth hops place rest = .error .endlessLinks := by
  rw [settle]
  unfold Missing at missing
  rcases none with rfl | rfl
  · simp [missing, asked]
  · cases depth <;> simp [missing, asked]

end

section

variable {above rest directory : Place} {n : String}

theorem Strays.of_shorten (missing : t.Missing (above ++ [n]))
    (nothing : t.linkTarget? (above ++ [n]).path = none) :
    t.Strays (above ++ [n]) rest ↔
      (∃ directory target, t.realpath above.path = .ok directory ∧
        t.entry? (directory ++ [n]) = some (.link target)) ∨ t.Strays above (n :: rest) := by
  constructor
  · intro strays
    generalize whole : above ++ [n] = place at strays missing nothing
    cases strays with
    | folded _ asked _ _ _ => rw [nothing] at asked; cases asked
    | overlooked _ _ stands link =>
      obtain ⟨rfl, same⟩ := List.append_inj' whole rfl
      obtain rfl := List.singleton_inj.1 same
      exact .inl ⟨_, _, stands, link⟩
    | hop _ asked _ _ => rw [nothing] at asked; cases asked
    | shorten _ _ later =>
      obtain ⟨rfl, same⟩ := List.append_inj' whole rfl
      obtain rfl := List.singleton_inj.1 same
      exact .inr later
  · rintro (⟨directory, target, stands, link⟩ | later)
    · refine .overlooked missing (Nat.not_le.1 fun short => ?_) stands link
      rcases (missing.cases stands).2 with gap | ⟨_, -, asked⟩
      · rw [gap] at link; cases link
      · rw [asked short] at nothing; cases nothing
    · exact .shorten missing nothing later

theorem Strays.of_hop {target : String} (missing : t.Missing (above ++ [n]))
    (asked : t.linkTarget? (above ++ [n]).path = some target)
    (stands : t.realpath above.path = .ok directory) :
    t.Strays (above ++ [n]) rest ↔
      (∃ found, t.realpath (directory.follow (.ofText target)).path = .ok found ∧
        ¬ t.Linkless (found ++ rest)) ∨ t.Strays (directory.follow (.ofText target)) rest := by
  constructor
  · intro strays
    generalize whole : above ++ [n] = place at strays missing asked
    cases strays with
    | folded _ asked' stands' real link =>
      obtain ⟨rfl, same⟩ := List.append_inj' whole rfl
      cases asked.symm.trans asked'
      cases stands.symm.trans stands'
      exact .inl ⟨_, real, link⟩
    | overlooked _ long _ _ =>
      rw [linkTarget?_of_long missing.clean long] at asked
      cases asked
    | hop _ asked' stands' later =>
      obtain ⟨rfl, same⟩ := List.append_inj' whole rfl
      cases asked.symm.trans asked'
      cases stands.symm.trans stands'
      exact .inr later
    | shorten _ nothing _ => rw [nothing] at asked; cases asked
  · rintro (⟨found, real, link⟩ | later)
    · exact .folded missing asked stands real link
    · exact .hop missing asked stands later

end

theorem settle_linkless_iff (grounded : t.Grounded) {depth hops : Nat} {place rest p : Place}
    (missing : t.Missing place) (settled : t.settle depth hops place rest = .ok p) :
    t.Linkless p ↔ ¬ t.Strays place rest := by
  -- as the search recurses: a link less to follow, or a name less in the path
  obtain ⟨above, n, rfl⟩ := missing.not_nil
  cases asked : t.linkTarget? (Place.path (above ++ [n])) with
  | some target =>
    obtain ⟨directory, stands, -⟩ := stands_of_linkTarget? asked
    obtain ⟨depth', hops', deeper, more⟩ : ∃ d h, depth = d + 1 ∧ hops = h + 1 := by
      cases depth with
      | zero => rw [settle_endless missing asked (.inl rfl)] at settled; cases settled
      | succ depth =>
        cases hops with
        | zero => rw [settle_endless missing asked (.inr rfl)] at settled; cases settled
        | succ hops => exact ⟨depth, hops, rfl, rfl⟩
    rw [deeper, more, settle_hop missing asked stands] at settled
    rw [Strays.of_hop missing asked stands]
    rcases settle_cases settled with ⟨found, real, rfl⟩ | further
    · simp [real, Strays.not_of_real real]
    · rw [settle_linkless_iff grounded further settled]
      unfold Missing at further
      simp [further]
  | none =>
    rw [settle_shorten missing asked] at settled
    rw [Strays.of_shorten missing asked]
    rcases settle_cases settled with ⟨found, real, rfl⟩ | further
    · have linkless := grounded.linkless_of_solid (realpath_solid grounded real)
      -- `n` is not there, or it is a link that could not be asked for its target
      rcases (missing.cases real).2 with gap | ⟨target, link, -⟩
      · have below := grounded.linkless_of_gap linkless gap rest
        simp only [below, true_iff, not_or, Strays.not_of_real real, not_false_iff, and_true]
        rintro ⟨directory, target, stands, link⟩
        cases real.symm.trans stands
        rw [gap] at link
        cases link
      · have blocked : ¬ t.Linkless (found ++ n :: rest) := fun linkless =>
          linkless _ target ⟨rest, by simp⟩ link
        simp only [blocked, false_iff, not_not]
        exact .inl ⟨found, target, real, link⟩
    · rw [settle_linkless_iff grounded further settled]
      unfold Missing at further
      simp [further]
termination_by (hops, place.length)
decreasing_by
  · exact Prod.Lex.right _ (by simp_all)
  · exact Prod.Lex.left _ _ (by omega)

end FlightBlocks.Tree
