import FlightBlocks.Proofs.Files.Change
import FlightBlocks.Store.Store
/-!
What reading from a sandbox and writing to it come to. A write that is refused changes nothing, one
that fails later may have made directories, and one that succeeds puts the text in its place and
is recorded.
-/

namespace FlightBlocks.Sandbox

variable {box : Sandbox} {time : Int64} {disk : Disk} {requested content : String} {place : Place}

theorem resolve_eq_ok_iff {t : Tree} : box.resolve t requested = .ok place ↔
    Text.allBlank requested = false ∧
      (box.base.follow (.ofText requested)).within box.base = true ∧
      ∃ base, t.canonical box.base = .ok base ∧
        t.canonical (box.base.follow (.ofText requested)) = .ok place ∧
        place.within base = true := by
  unfold resolve
  constructor
  · intro resolved
    simp only at resolved
    split at resolved
    next => cases resolved
    next written =>
      split at resolved
      next => cases resolved
      next below =>
        split at resolved
        next => cases resolved
        next => cases resolved
        next base _ found settled =>
          split at resolved
          next inside =>
            cases resolved
            exact ⟨by simpa using written, by simpa using below, base, found, settled, inside⟩
          next => cases resolved
  · rintro ⟨written, below, base, found, settled, inside⟩
    simp [written, below, found, settled, inside]

theorem resolve_eq_error {t : Tree} {failure : StoreFailure}
    (refused : box.resolve t requested = .error failure) :
    failure = .invalidInput "missing path" ∨ failure = .outside requested box.base.text ∨
      ∃ path fault, failure = .io path fault := by
  unfold resolve at refused
  simp only at refused
  split at refused
  · cases refused; exact .inl rfl
  · split at refused
    · cases refused; exact .inr (.inl rfl)
    · split at refused
      next => cases refused; exact .inr (.inr ⟨_, _, rfl⟩)
      next => cases refused; exact .inr (.inr ⟨_, _, rfl⟩)
      next =>
        split at refused
        · cases refused
        · cases refused; exact .inr (.inl rfl)

/-- What a write comes to, with all that it changes. -/
inductive Wrote (box : Sandbox) (time : Int64) (disk : Disk) (requested content : String) :
    Except StoreFailure WriteOutcome × Disk → Prop
  | empty : content = "" → box.Wrote time disk requested content
      (.error (.invalidInput "missing content"), disk)
  | refused {failure : StoreFailure} : box.resolve disk.tree requested = .error failure →
      box.Wrote time disk requested content (.error failure, disk)
  | unreached {place : Place} {fault : FileFault} :
      box.resolve disk.tree requested = .ok place →
      (disk.tree.makeDirectories place.parent).1 = .error fault →
      box.Wrote time disk requested content (.error (.io place.parent.text fault),
        { disk with tree := (disk.tree.makeDirectories place.parent).2 })
  | unwritten {place : Place} {fault : FileFault} :
      box.resolve disk.tree requested = .ok place →
      (disk.tree.makeDirectories place.parent).2.write place.path content.toUTF8 = .error fault →
      box.Wrote time disk requested content (.error (.io place.text fault),
        { disk with tree := (disk.tree.makeDirectories place.parent).2 })
  | written {place : Place} {tree : Tree} : content ≠ "" →
      box.resolve disk.tree requested = .ok place →
      (disk.tree.makeDirectories place.parent).2.write place.path content.toUTF8 = .ok tree →
      box.Wrote time disk requested content
        (.ok ⟨place.text, box.base.text, content.utf8ByteSize⟩,
          ⟨tree, disk.history.append time place.text content⟩)

theorem write_wrote (box : Sandbox) (time : Int64) (disk : Disk) (requested content : String) :
    box.Wrote time disk requested content (box.write time disk requested content) := by
  unfold Sandbox.write
  split
  next empty => exact .empty (String.isEmpty_iff.1 empty)
  next nonempty =>
    have nonempty : content ≠ "" := fun empty => nonempty (String.isEmpty_iff.2 empty)
    split
    next failure refused => exact .refused refused
    next place resolved =>
      unfold writeAt
      split
      next fault tree made =>
        obtain rfl : (disk.tree.makeDirectories place.parent).2 = tree := by rw [made]
        exact .unreached resolved (by rw [made])
      next tree made =>
        obtain rfl : (disk.tree.makeDirectories place.parent).2 = tree := by rw [made]
        split
        next fault failed => exact .unwritten resolved failed
        next tree written => exact .written nonempty resolved written

theorem write_of_resolved {above tree : Tree} (nonempty : content ≠ "")
    (resolved : box.resolve disk.tree requested = .ok place)
    (made : disk.tree.makeDirectories place.parent = (.ok (), above))
    (written : above.write place.path content.toUTF8 = .ok tree) :
    box.write time disk requested content =
      (.ok ⟨place.text, box.base.text, content.utf8ByteSize⟩,
        ⟨tree, disk.history.append time place.text content⟩) := by
  rw [Sandbox.write, if_neg (by simpa using nonempty), resolved]
  simp only [writeAt, made, written]

theorem write_of_unwritten {above : Tree} {fault : FileFault} (nonempty : content ≠ "")
    (resolved : box.resolve disk.tree requested = .ok place)
    (made : disk.tree.makeDirectories place.parent = (.ok (), above))
    (failed : above.write place.path content.toUTF8 = .error fault) :
    box.write time disk requested content =
      (.error (.io place.text fault), { disk with tree := above }) := by
  rw [Sandbox.write, if_neg (by simpa using nonempty), resolved]
  simp only [writeAt, made, failed]

theorem write_of_refused {failure : StoreFailure}
    (refused : box.resolve disk.tree requested = .error failure) :
    (box.write time disk requested content).2 = disk := by
  have wrote := box.write_wrote time disk requested content
  generalize box.write time disk requested content = result at wrote
  cases wrote with
  | empty => rfl
  | refused => rfl
  | unreached resolved => cases refused.symm.trans resolved
  | unwritten resolved => cases refused.symm.trans resolved
  | written _ resolved => cases refused.symm.trans resolved

theorem write_tree (time : Int64) (content : String)
    (resolved : box.resolve disk.tree requested = .ok place) :
    (box.write time disk requested content).2.tree = disk.tree ∨
      (box.write time disk requested content).2.tree = (disk.tree.makeDirectories place.parent).2 ∨
      (disk.tree.makeDirectories place.parent).2.write place.path content.toUTF8 =
        .ok (box.write time disk requested content).2.tree := by
  have wrote := box.write_wrote time disk requested content
  generalize box.write time disk requested content = result at wrote
  cases wrote with
  | empty => exact .inl rfl
  | refused => exact .inl rfl
  | unreached again =>
    cases resolved.symm.trans again
    exact .inr (.inl rfl)
  | unwritten again =>
    cases resolved.symm.trans again
    exact .inr (.inl rfl)
  | written _ again written =>
    cases resolved.symm.trans again
    exact .inr (.inr written)

theorem resolved_of_write {outcome : WriteOutcome}
    (written : (box.write time disk requested content).1 = .ok outcome) :
    ∃ place, box.resolve disk.tree requested = .ok place := by
  have wrote := box.write_wrote time disk requested content
  generalize box.write time disk requested content = result at wrote written
  cases wrote with
  | empty => cases written
  | refused => cases written
  | unreached resolved => exact ⟨_, resolved⟩
  | unwritten resolved => exact ⟨_, resolved⟩
  | written _ resolved => exact ⟨_, resolved⟩

theorem read_of_refused {t : Tree} {failure : StoreFailure}
    (refused : box.resolve t requested = .error failure) :
    box.read t requested = .error failure := by
  rw [Sandbox.read, refused]
  rfl

theorem read_eq_ok {t : Tree} {outcome : ReadOutcome}
    (resolved : box.resolve t requested = .ok place) (read : box.read t requested = .ok outcome) :
    outcome.path = place.text ∧ t.readText place.path = .ok outcome.content := by
  rw [Sandbox.read, resolved] at read
  simp only [bind, Except.bind] at read
  split at read
  next content got => cases read; exact ⟨rfl, got⟩
  next => cases read
  next => cases read

theorem read_eq_error {t : Tree} {failure : StoreFailure}
    (resolved : box.resolve t requested = .ok place)
    (read : box.read t requested = .error failure) :
    failure = .notFound place.text ∨ ∃ fault, failure = .io place.text fault := by
  rw [Sandbox.read, resolved] at read
  simp only [bind, Except.bind] at read
  split at read
  next => cases read
  next => cases read; exact .inl rfl
  next fault _ _ => cases read; exact .inr ⟨fault, rfl⟩

end FlightBlocks.Sandbox
