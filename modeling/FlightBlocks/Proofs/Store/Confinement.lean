import FlightBlocks.Proofs.Files.Settle
import FlightBlocks.Proofs.Store.Write
/-!
Nothing leads out of a sandbox, unless a search strays. A path that is resolved is at the base or
below it, no link stands on it, and so it is opened where it says; what is read stands there, and
outside the base a write leaves all as it is but for the directories down to the base.
-/

namespace FlightBlocks

namespace Place

theorem within_iff {place base : Place} : place.within base = true ↔ base <+: place := by
  rw [within, List.isPrefixOf_iff_prefix]

end Place

namespace Tree

variable {t : Tree} {place p : Place}

theorem canonical_linkless_iff (grounded : t.Grounded) (settled : t.canonical place = .ok p) :
    t.Linkless p ↔ ¬ t.Strays place [] := by
  rcases settle_cases settled with ⟨found, real, rfl⟩ | missing
  · rw [List.append_nil]
    simp [Strays.not_of_real real, grounded.linkless_of_solid (realpath_solid grounded real)]
  · exact settle_linkless_iff grounded missing settled

theorem reach_linkless {through : Bool} {stop : Stop} (linkless : t.Linkless place)
    (reached : t.reach through place.path = .ok stop) : stop = .entry place ∨ stop = .free place :=
  find_linkless linkless (find_of_reach reached)

theorem toUTF8_of_fromUTF8? {bytes : ByteArray} {text : String}
    (is : String.fromUTF8? bytes = some text) : text.toUTF8 = bytes := by
  unfold String.fromUTF8? at is
  split at is
  · cases is
    rfl
  · cases is

theorem readBytes_eq_ok {q : Path} {content : ByteArray} (read : t.readBytes q = .ok content) :
    ∃ place, t.reach true q = .ok (.entry place) ∧ t.entry? place = some (.file content) := by
  unfold readBytes at read
  cases reached : t.reach true q with
  | error fault => rw [reached] at read; cases read
  | ok stop =>
    rw [reached] at read
    cases stop with
    | entry place =>
      refine ⟨place, rfl, ?_⟩
      simp only [bind, Except.bind] at read
      split at read
      next file => cases read; exact file
      next => cases read
      next => cases read
    | free place => cases read
    | link place target rest => cases read

theorem readText_eq_ok {q : Path} {text : String} (read : t.readText q = .ok text) :
    ∃ place, t.reach true q = .ok (.entry place) ∧ t.entry? place = some (.file text.toUTF8) := by
  unfold readText at read
  cases bytes : t.readBytes q with
  | error fault => rw [bytes] at read; cases read
  | ok content =>
    rw [bytes] at read
    simp only [bind, Except.bind] at read
    split at read
    next text' is =>
      cases read
      rw [toUTF8_of_fromUTF8? is]
      exact readBytes_eq_ok bytes
    next => cases read

end Tree

namespace Sandbox

variable {box : Sandbox} {t : Tree} {requested : String} {base place : Place}

/-- What a sandbox promises of the place that it resolves a path to. -/
structure Confined (box : Sandbox) (t : Tree) (requested : String) (base place : Place) : Prop where
  inside : place.within base = true
  linkless : t.Linkless place
  opens : ∀ through stop, t.reach through place.path = .ok stop →
    stop = .entry place ∨ stop = .free place
  reads : ∀ outcome, box.read t requested = .ok outcome →
    outcome.path = place.text ∧ t.entry? place = some (.file outcome.content.toUTF8)
  writes : ∀ time history content q, q.within base = false →
    (box.write time ⟨t, history⟩ requested content).2.tree.entry? q = t.entry? q ∨
      t.entry? q = none ∧ q <+: base ∧
        (box.write time ⟨t, history⟩ requested content).2.tree.entry? q = some .directory

theorem write_outside (grounded : t.Grounded) (linkless : t.Linkless place)
    (inside : place.within base = true) (resolved : box.resolve t requested = .ok place)
    (time : Int64) (history : History) (content : String) (q : Place)
    (outside : q.within base = false) :
    (box.write time ⟨t, history⟩ requested content).2.tree.entry? q = t.entry? q ∨
      t.entry? q = none ∧ q <+: base ∧
        (box.write time ⟨t, history⟩ requested content).2.tree.entry? q = some .directory := by
  have parent : place.parent <+: place := List.dropLast_prefix place
  obtain ⟨grounded', only⟩ :=
    Tree.makeDirectories_on_way grounded (linkless.of_prefix parent)
  have made : Tree.entry? (t.makeDirectories place.parent).2 q = t.entry? q ∨
      t.entry? q = none ∧ q <+: base ∧
        Tree.entry? (t.makeDirectories place.parent).2 q = some .directory := by
    rcases only q with same | ⟨gap, new, above⟩
    · exact .inl same
    · -- the way down to `place` is outside the base only above it
      refine .inr ⟨gap, ?_, new⟩
      rcases List.prefix_or_prefix_of_prefix (above.trans parent) (Place.within_iff.1 inside) with
        h | h
      · exact h
      · rw [Place.within_iff.2 h] at outside
        cases outside
  have resolved : box.resolve (Disk.mk t history).tree requested = .ok place := resolved
  rcases write_tree time content resolved with same | same | written
  · exact .inl (by rw [same])
  · rwa [same]
  · obtain ⟨put, writable, -⟩ :=
      Tree.write_eq_ok_of_linkless grounded' (only.linkless linkless) written
    have elsewhere : q ≠ place := by
      rintro rfl
      rw [inside] at outside
      cases outside
    rw [put, Tree.entry?_put writable.not_nil, if_neg elsewhere]
    exact made

theorem confined_of_linkless (grounded : t.Grounded) (linkless : t.Linkless place)
    (inside : place.within base = true) (resolved : box.resolve t requested = .ok place) :
    box.Confined t requested base place where
  inside := inside
  linkless := linkless
  opens := fun _ _ => Tree.reach_linkless linkless
  reads := by
    intro outcome read
    obtain ⟨path, got⟩ := read_eq_ok resolved read
    obtain ⟨p, reached, file⟩ := Tree.readText_eq_ok got
    rcases Tree.reach_linkless linkless reached with h | h <;> cases h
    exact ⟨path, file⟩
  writes := write_outside grounded linkless inside resolved

theorem linkless_of_links_lead (grounded : t.Grounded) (lead : t.LinksLead)
    (resolved : box.resolve t requested = .ok place) : t.Linkless place := by
  obtain ⟨-, -, -, -, settled, -⟩ := resolve_eq_ok_iff.1 resolved
  exact (Tree.canonical_linkless_iff grounded settled).2 (lead.not_strays grounded)

theorem confined_of_links_lead (grounded : t.Grounded) (lead : t.LinksLead)
    (resolved : box.resolve t requested = .ok place) :
    ∃ base, t.canonical box.base = .ok base ∧ box.Confined t requested base place := by
  obtain ⟨-, -, base, found, -, inside⟩ := resolve_eq_ok_iff.1 resolved
  have linkless := linkless_of_links_lead grounded lead resolved
  exact ⟨base, found, confined_of_linkless grounded linkless inside resolved⟩

/-- A refused path is neither read nor written. A path that is resolved is confined to the base,
unless the search for where it leads strays: then a link stands on the place that was found. -/
theorem resolve_confines_unless_astray (box : Sandbox) (t : Tree) (grounded : t.Grounded)
    (requested : String) :
    (∀ failure, box.resolve t requested = .error failure →
      box.read t requested = .error failure ∧
        ∀ time history content, (box.write time ⟨t, history⟩ requested content).2 = ⟨t, history⟩) ∧
      ∀ place, box.resolve t requested = .ok place →
        ∃ base, t.canonical box.base = .ok base ∧ place.within base = true ∧
          (box.Confined t requested base place ↔
            ¬ t.Strays (box.base.follow (.ofText requested)) []) := by
  refine ⟨fun failure refused => ?_, fun place resolved => ?_⟩
  · exact ⟨read_of_refused refused, fun _ _ _ => write_of_refused refused⟩
  obtain ⟨-, -, base, found, lexical, inside⟩ := resolve_eq_ok_iff.1 resolved
  refine ⟨base, found, inside, ?_⟩
  rw [← Tree.canonical_linkless_iff grounded lexical]
  exact ⟨fun confined => confined.linkless, fun linkless =>
    confined_of_linkless grounded linkless inside resolved⟩

/-- Two links that lead nowhere: `m` says where its file would be, and the text of `l` leads to `d`,
where a link leads out of `/srv`. -/
def linkedTree : Tree :=
  [(["srv"], .directory), (["srv", "d"], .directory), (["srv", "d", "c"], .link "/secret"),
    (["srv", "l"], .link "missing/../d"), (["srv", "m"], .link "new/f"),
    (["secret"], .file "x".toUTF8)]

theorem linkedTree_grounded : linkedTree.Grounded := Tree.grounded_of_mem (by decide)

theorem linkedTree_base : linkedTree.canonical ["srv"] = .ok ["srv"] :=
  have real : linkedTree.realpath (Place.path ["srv"]) = .ok ["srv"] := rfl
  Tree.settle_found real

theorem linkedTree_m : linkedTree.canonical ["srv", "m", "g"] = .ok ["srv", "new", "f", "g"] := by
  have missing : linkedTree.Missing (["srv"] ++ ["m"]) := rfl
  have asked : linkedTree.linkTarget? (Place.path (["srv"] ++ ["m"])) = some "new/f" := rfl
  have real : linkedTree.realpath (Place.path ["srv"]) = .ok ["srv"] := rfl
  calc
    _ = linkedTree.settle 1 40 (["srv", "m"] ++ ["g"]) [] := rfl
    _ = linkedTree.settle 1 40 (["srv"] ++ ["m"]) ["g"] := Tree.settle_shorten rfl rfl
    _ = linkedTree.settle 1 39 (["srv", "new"] ++ ["f"]) ["g"] := Tree.settle_hop missing asked real
    _ = linkedTree.settle 1 39 (["srv"] ++ ["new"]) ["f", "g"] := Tree.settle_shorten rfl rfl
    _ = linkedTree.settle 1 39 ["srv"] ["new", "f", "g"] := Tree.settle_shorten rfl rfl
    _ = .ok ["srv", "new", "f", "g"] := Tree.settle_found real

theorem linkedTree_l : linkedTree.canonical ["srv", "l", "c"] = .ok ["srv", "d", "c"] := by
  have missing : linkedTree.Missing (["srv"] ++ ["l"]) := rfl
  have asked : linkedTree.linkTarget? (Place.path (["srv"] ++ ["l"])) = some "missing/../d" := rfl
  have base : linkedTree.realpath (Place.path ["srv"]) = .ok ["srv"] := rfl
  have real : linkedTree.realpath (Place.path ["srv", "d"]) = .ok ["srv", "d"] := rfl
  calc
    _ = linkedTree.settle 1 40 (["srv", "l"] ++ ["c"]) [] := rfl
    _ = linkedTree.settle 1 40 (["srv"] ++ ["l"]) ["c"] := Tree.settle_shorten rfl rfl
    _ = linkedTree.settle 1 39 ["srv", "d"] ["c"] := Tree.settle_hop missing asked base
    _ = .ok ["srv", "d", "c"] := Tree.settle_found real

theorem resolve_m : resolve ⟨["srv"]⟩ linkedTree "m/g" = .ok ["srv", "new", "f", "g"] := by
  have leads : Place.follow ["srv"] (.ofText "m/g") = ["srv", "m", "g"] := rfl
  rw [resolve_eq_ok_iff, leads]
  exact ⟨by decide +kernel, rfl, _, linkedTree_base, linkedTree_m, rfl⟩

theorem resolve_l : resolve ⟨["srv"]⟩ linkedTree "l/c" = .ok ["srv", "d", "c"] := by
  have leads : Place.follow ["srv"] (.ofText "l/c") = ["srv", "l", "c"] := rfl
  rw [resolve_eq_ok_iff, leads]
  exact ⟨by decide +kernel, rfl, _, linkedTree_base, linkedTree_l, rfl⟩

theorem confined_m : linkedTree.Grounded ∧
    Confined ⟨["srv"]⟩ linkedTree "m/g" ["srv"] ["srv", "new", "f", "g"] := by
  refine ⟨linkedTree_grounded, ?_⟩
  obtain ⟨base, found, -, exactly⟩ := (resolve_confines_unless_astray ⟨["srv"]⟩ linkedTree
    linkedTree_grounded "m/g").2 _ resolve_m
  cases linkedTree_base.symm.trans found
  refine exactly.2 ((Tree.canonical_linkless_iff linkedTree_grounded linkedTree_m).1 ?_)
  have gap : linkedTree.entry? (["srv"] ++ ["new"]) = none := by decide
  exact linkedTree_grounded.linkless_of_gap
    (linkedTree_grounded.linkless_of_solid ⟨.directory, by decide, by simp⟩) gap ["f", "g"]

theorem not_confined_l : linkedTree.Grounded ∧
    resolve ⟨["srv"]⟩ linkedTree "l/c" = .ok ["srv", "d", "c"] ∧
    linkedTree.entry? ["srv", "d", "c"] = some (.link "/secret") ∧
    read ⟨["srv"]⟩ linkedTree "l/c" = .ok ⟨"x", "/srv/d/c"⟩ ∧
    linkedTree.entry? ["secret"] = some (.file "x".toUTF8) ∧
    Place.within ["secret"] ["srv"] = false ∧
    ¬ Confined ⟨["srv"]⟩ linkedTree "l/c" ["srv"] ["srv", "d", "c"] := by
  have link : linkedTree.entry? ["srv", "d", "c"] = some (.link "/secret") := by decide
  refine ⟨linkedTree_grounded, resolve_l, link, ?_, rfl, rfl, fun confined => ?_⟩
  · rw [Sandbox.read, resolve_l]
    rfl
  · exact confined.linkless _ _ (List.prefix_refl _) link

end Sandbox

end FlightBlocks
