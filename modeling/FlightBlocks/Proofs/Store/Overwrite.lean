import FlightBlocks.Proofs.Files.Keeps
import FlightBlocks.Proofs.Store.Confinement
/-!
A second write to a path leaves nothing of the first. The path leads where it led, now that a file
stands there, and the tree is the one that the second write alone would have left.
-/

namespace FlightBlocks.Sandbox

variable {box : Sandbox} {time : Int64} {disk disk' : Disk} {requested content : String}
  {place : Place}

theorem write_eq_ok {outcome : WriteOutcome}
    (wrote : box.write time disk requested content = (.ok outcome, disk')) :
    ∃ place, box.resolve disk.tree requested = .ok place ∧
      outcome = ⟨place.text, box.base.text, content.utf8ByteSize⟩ ∧
      disk'.history = disk.history.append time place.text content ∧
      (disk.tree.makeDirectories place.parent).1 = .ok () ∧
      (disk.tree.makeDirectories place.parent).2.write place.path content.toUTF8 =
        .ok disk'.tree := by
  rw [Sandbox.write] at wrote
  split at wrote
  next => cases wrote
  next =>
    split at wrote
    next => cases wrote
    next place resolved =>
      rw [writeAt] at wrote
      split at wrote
      next => cases wrote
      next above made =>
        split at wrote
        next => cases wrote
        next tree written =>
          cases wrote
          exact ⟨place, resolved, rfl, rfl, by rw [made], by rw [made, written]⟩

theorem resolve_kept {t t' : Tree} (grounded : t.Grounded) (lead : t.LinksLead)
    (keeps : t.Keeps t') (resolved : box.resolve t requested = .ok place)
    (stands : t'.Strides [] (place.map .name) (.entry place)) :
    box.resolve t' requested = .ok place := by
  obtain ⟨written, below, base, found, settled, inside⟩ := resolve_eq_ok_iff.1 resolved
  obtain ⟨more, rfl⟩ := Place.within_iff.1 inside
  exact resolve_eq_ok_iff.2 ⟨written, below, base,
    keeps.canonical lead grounded found stands.split.1,
    keeps.canonical lead grounded settled stands, inside⟩

/-- What a write leaves behind for the next one to the same path. -/
theorem write_overwrites (grounded : disk.tree.Grounded) (lead : disk.tree.LinksLead)
    {outcome : WriteOutcome}
    (wrote : box.write time disk requested content = (.ok outcome, disk')) :
    ∃ place, box.resolve disk'.tree requested = .ok place ∧
      disk'.tree.readText place.path = .ok content ∧
      ∀ other, other ≠ "" → ∃ tree, ∀ time',
        box.write time' disk requested other =
          (.ok ⟨place.text, box.base.text, other.utf8ByteSize⟩,
            ⟨tree, disk.history.append time' place.text other⟩) ∧
        box.write time' disk' requested other =
          (.ok ⟨place.text, box.base.text, other.utf8ByteSize⟩,
            ⟨tree, disk'.history.append time' place.text other⟩) := by
  obtain ⟨place, resolved, -, -, made, written⟩ := write_eq_ok wrote
  have linkless := linkless_of_links_lead grounded lead resolved
  obtain ⟨grounded', keeps, strides, made', again⟩ :=
    Tree.write_made_leaves grounded linkless written
  have resolved' := resolve_kept grounded lead keeps resolved strides
  refine ⟨place, resolved', Tree.readText_of_write grounded' written, fun other nonempty => ?_⟩
  obtain ⟨tree, first, second⟩ := again other.toUTF8
  exact ⟨tree, fun time' => ⟨write_of_resolved nonempty resolved (Prod.ext made rfl) first,
    write_of_resolved nonempty resolved' made' second⟩⟩

end FlightBlocks.Sandbox
