import FlightBlocks.Proofs.Store.Overwrite
/-!
All that a write does to the files. One that succeeds puts its text where its path leads and makes
the directories that are missing above that place, and the path then leads there again. One that
fails leaves every file and makes directories at most, and none if its path was refused. The rest of
the tree stays as it is.
-/

namespace FlightBlocks

namespace Tree

variable {t t' : Tree} {place q : Place} {bytes : ByteArray}

/-- `t'` is `t` with a file put at `place`, and with the directories above it that were missing. -/
structure Receives (t t' : Tree) (place : Place) (bytes : ByteArray) : Prop where
  file : t'.entry? place = some (.file bytes)
  above : ∀ q, q <+: place → q ≠ place → t'.entry? q = some .directory
  elsewhere : ∀ q, q ≠ place → ¬ (q <+: place ∧ t.entry? q = none) → t'.entry? q = t.entry? q

theorem receives_of_write (grounded : t.Grounded) (linkless : t.Linkless place)
    (written : (t.makeDirectories place.parent).2.write place.path bytes = .ok t') :
    t.Receives t' place bytes := by
  have parent : place.parent <+: place := List.dropLast_prefix place
  obtain ⟨grounded', only⟩ := makeDirectories_on_way grounded (linkless.of_prefix parent)
  obtain ⟨put, writable, -⟩ := write_eq_ok_of_linkless grounded' (only.linkless linkless) written
  have file : t'.entry? place = some (.file bytes) := by
    rw [put, entry?_put writable.not_nil, if_pos rfl]
  refine ⟨file, fun q => (grounded'.write written).directory_above file, ?_⟩
  intro q other kept
  rw [put, writable.entry?_put_ne other]
  rcases only q with same | ⟨gap, -, higher⟩
  · exact same
  · exact absurd ⟨higher.trans parent, gap⟩ kept

end Tree

namespace Sandbox

variable {box : Sandbox} {time : Int64} {disk disk' : Disk} {requested content : String}
  {place : Place}

theorem read_written {t t' : Tree} (grounded : t.Grounded) (lead : t.LinksLead)
    (resolved : box.resolve t requested = .ok place)
    (written : (t.makeDirectories place.parent).2.write place.path content.toUTF8 = .ok t') :
    box.read t' requested = .ok ⟨content, place.text⟩ := by
  obtain ⟨grounded', keeps, strides, -⟩ := Tree.write_made_leaves grounded
    (linkless_of_links_lead grounded lead resolved) written
  have again := resolve_kept grounded lead keeps resolved strides
  rw [Sandbox.read, again]
  simp only [bind, Except.bind, Tree.readText_of_write grounded' written]
  rfl

/-- Where all links lead somewhere, a write that succeeds gives the place that its path leads to and
the length of its text, puts that text there and makes the directories missing above it, and does
nothing else; and the path, read after that, gives the text. -/
theorem write_puts_text_only (grounded : disk.tree.Grounded) (lead : disk.tree.LinksLead)
    {outcome : WriteOutcome}
    (wrote : box.write time disk requested content = (.ok outcome, disk')) :
    ∃ place, box.resolve disk.tree requested = .ok place ∧
      outcome = ⟨place.text, box.base.text, content.utf8ByteSize⟩ ∧
      disk.tree.Receives disk'.tree place content.toUTF8 ∧
      disk'.history = disk.history.append time place.text content ∧
      box.read disk'.tree requested = .ok ⟨content, place.text⟩ := by
  obtain ⟨place, resolved, told, recorded, -, written⟩ := write_eq_ok wrote
  have linkless := linkless_of_links_lead grounded lead resolved
  exact ⟨place, resolved, told, Tree.receives_of_write grounded linkless written, recorded,
    read_written grounded lead resolved written⟩

def movedDisk : Disk := ⟨[(["d"], .directory), (["l"], .link "d")], []⟩

theorem movedDisk_real : movedDisk.tree.realpath (Place.path ["l"]) = .ok ["d"] := rfl

theorem movedDisk_base : movedDisk.tree.canonical ["l", "fw"] = .ok ["d", "fw"] :=
  calc
    _ = movedDisk.tree.settle 1 40 (["l"] ++ ["fw"]) [] := rfl
    _ = movedDisk.tree.settle 1 40 ["l"] ["fw"] := Tree.settle_shorten rfl rfl
    _ = .ok ["d", "fw"] := Tree.settle_found movedDisk_real

theorem movedDisk_canonical :
    movedDisk.tree.canonical ["l", "fw", "new", "h"] = .ok ["d", "fw", "new", "h"] :=
  calc
    _ = movedDisk.tree.settle 1 40 (["l", "fw", "new"] ++ ["h"]) [] := rfl
    _ = movedDisk.tree.settle 1 40 (["l", "fw"] ++ ["new"]) ["h"] := Tree.settle_shorten rfl rfl
    _ = movedDisk.tree.settle 1 40 (["l"] ++ ["fw"]) ["new", "h"] := Tree.settle_shorten rfl rfl
    _ = movedDisk.tree.settle 1 40 ["l"] ["fw", "new", "h"] := Tree.settle_shorten rfl rfl
    _ = .ok ["d", "fw", "new", "h"] := Tree.settle_found movedDisk_real

theorem movedDisk_resolve : resolve ⟨["l", "fw"]⟩ movedDisk.tree "./new/../new/h" =
    .ok ["d", "fw", "new", "h"] := by
  have leads : Place.follow ["l", "fw"] (.ofText "./new/../new/h") = ["l", "fw", "new", "h"] := rfl
  rw [resolve_eq_ok_iff, leads]
  exact ⟨by decide +kernel, rfl, ["d", "fw"], movedDisk_base, movedDisk_canonical, rfl⟩

theorem movedDisk_made : movedDisk.tree.makeDirectories ["d", "fw", "new"] =
    (.ok (), Tree.put (movedDisk.tree.put ["d", "fw"] .directory) ["d", "fw", "new"]
      .directory) := by
  have missing : movedDisk.tree.add (Place.path ["d", "fw", "new"]) .directory =
      .error .notFound := rfl
  have base : movedDisk.tree.add (Place.path ["d", "fw"]) .directory =
      .ok (movedDisk.tree.put ["d", "fw"] .directory) := rfl
  have made : movedDisk.tree.makeDirectories ["d", "fw"] =
      (.ok (), movedDisk.tree.put ["d", "fw"] .directory) := by
    rw [Tree.makeDirectories, base]
  rw [Tree.makeDirectories, missing]
  simp [Place.parent, made]
  rfl

theorem write_puts_text_only_movedDisk : movedDisk.tree.Grounded ∧ movedDisk.tree.LinksLead ∧
    ∃ disk', write ⟨["l", "fw"]⟩ 0 movedDisk "./new/../new/h" "x" =
        (.ok ⟨"/d/fw/new/h", "/l/fw", 1⟩, disk') ∧
      movedDisk.tree.Receives disk'.tree ["d", "fw", "new", "h"] "x".toUTF8 ∧
      read ⟨["l", "fw"]⟩ disk'.tree "./new/../new/h" = .ok ⟨"x", "/d/fw/new/h"⟩ := by
  have grounded : movedDisk.tree.Grounded := Tree.grounded_of_mem (by decide)
  have lead : movedDisk.tree.LinksLead := by
    refine Tree.linksLead_of_mem fun entry member target link => ?_
    simp only [movedDisk, List.mem_cons, List.not_mem_nil, or_false] at member
    rcases member with rfl | rfl
    · cases link
    · exact ⟨_, movedDisk_real⟩
  have wrote : write ⟨["l", "fw"]⟩ 0 movedDisk "./new/../new/h" "x" = _ :=
    write_of_resolved (by decide) movedDisk_resolve movedDisk_made rfl
  obtain ⟨place, resolved, -, receives, -, read⟩ := write_puts_text_only grounded lead wrote
  cases movedDisk_resolve.symm.trans resolved
  exact ⟨grounded, lead, _, wrote, receives, read⟩

/-- `disk'` is `disk` but for directories that were missing on the way down to the parent of
`place`. -/
structure Spared (disk disk' : Disk) (place : Place) : Prop where
  history : disk'.history = disk.history
  passed : Tree.OnlyDirectoriesNew (disk'.tree.OnWay place.parent) disk.tree disk'.tree
  above : disk.tree.Linkless place →
    Tree.OnlyDirectoriesNew (· <+: place.parent) disk.tree disk'.tree

theorem Spared.of_same : Spared disk disk place where
  history := rfl
  passed := fun _ => .inl rfl
  above _ := fun _ => .inl rfl

theorem Spared.of_makeDirectories (grounded : disk.tree.Grounded) :
    Spared disk { disk with tree := (disk.tree.makeDirectories place.parent).2 } place where
  history := rfl
  passed := Tree.makeDirectories_passed grounded place.parent
  above linkless :=
    (Tree.makeDirectories_on_way grounded (linkless.of_prefix (List.dropLast_prefix place))).2

theorem failed_cases (grounded : disk.tree.Grounded) {failure : StoreFailure}
    (failed : box.write time disk requested content = (.error failure, disk')) :
    disk' = disk ∧ (failure = .invalidInput "missing content" ∨
        box.resolve disk.tree requested = .error failure) ∨
      ∃ place path fault, box.resolve disk.tree requested = .ok place ∧ failure = .io path fault ∧
        (path = place.parent.text ∨ path = place.text) ∧ Spared disk disk' place := by
  have came := box.write_wrote time disk requested content
  rw [failed] at came
  cases came with
  | empty => exact .inl ⟨rfl, .inl rfl⟩
  | refused refused => exact .inl ⟨rfl, .inr refused⟩
  | unreached resolved =>
    exact .inr ⟨_, _, _, resolved, rfl, .inl rfl, .of_makeDirectories grounded⟩
  | unwritten resolved =>
    exact .inr ⟨_, _, _, resolved, rfl, .inr rfl, .of_makeDirectories grounded⟩

/-- A write that fails changes no file and records nothing. One that is refused changes nothing at
all; one whose path was resolved may have made directories that were missing on the way down to the
place, and says what it failed at. -/
theorem failed_write_spares_files (grounded : disk.tree.Grounded) {failure : StoreFailure}
    (failed : box.write time disk requested content = (.error failure, disk')) :
    disk'.history = disk.history ∧
      (∀ q bytes, disk'.tree.entry? q = some (.file bytes) ↔
        disk.tree.entry? q = some (.file bytes)) ∧
      ((∀ path fault, failure ≠ .io path fault) → disk' = disk ∧
        (failure = .invalidInput "missing content" ∨ failure = .invalidInput "missing path" ∨
          failure = .outside requested box.base.text)) ∧
      (∀ refused, box.resolve disk.tree requested = .error refused → disk' = disk) ∧
      ∀ place, box.resolve disk.tree requested = .ok place → Spared disk disk' place ∧
        ∀ path fault, failure = .io path fault → path = place.parent.text ∨ path = place.text := by
  rcases failed_cases grounded failed with
    ⟨rfl, why⟩ | ⟨place, path, fault, resolved, rfl, told, spared⟩
  · refine ⟨rfl, fun _ _ => .rfl, fun refused => ⟨rfl, ?_⟩, fun _ _ => rfl,
      fun place resolved => ⟨.of_same, ?_⟩⟩
    · rcases why with empty | unresolved
      · exact .inl empty
      · rcases resolve_eq_error unresolved with missing | outside | ⟨path, fault, io⟩
        · exact .inr (.inl missing)
        · exact .inr (.inr outside)
        · exact absurd io (refused path fault)
    · rintro path fault rfl
      rcases why with empty | unresolved
      · cases empty
      · cases resolved.symm.trans unresolved
  · refine ⟨spared.history, fun _ _ => spared.passed.file_iff,
      fun refused => absurd rfl (refused path fault),
      fun _ unresolved => (nomatch resolved.symm.trans unresolved), ?_⟩
    intro place' again
    cases resolved.symm.trans again
    refine ⟨spared, ?_⟩
    rintro _ _ ⟨⟩
    exact told

def overlong : String := String.ofList (List.replicate 256 'n')

theorem toList_overlong : overlong.toList = List.replicate 256 'n' := String.toList_ofList

def bareDisk : Disk := ⟨[(["srv"], .directory)], []⟩

theorem bareDisk_clean : (Place.path ["srv", "new", overlong]).hasNul = false := by
  have clean : (Part.name overlong).hasNul = false := by
    rw [Part.hasNul, toList_overlong]
    decide +kernel
  simp only [Place.path, Path.hasNul, List.map_cons, List.map_nil, List.any_cons, clean]
  decide +kernel

theorem bareDisk_canonical :
    bareDisk.tree.canonical ["srv", "new", overlong] = .ok ["srv", "new", overlong] := by
  have linkless := Tree.linkless_of_mem (t := bareDisk.tree) (by simp [bareDisk])
  have missing : bareDisk.tree.realpath (Place.path ["srv", "new", overlong]) =
      .error .notFound := by
    have strode : bareDisk.tree.stride [] (Place.path ["srv", "new", overlong]).parts =
        .error .notFound := rfl
    rw [Tree.realpath, Tree.find_of_clean bareDisk_clean, Tree.walk_of_stride strode (by simp)]
    rfl
  have base : bareDisk.tree.realpath (Place.path ["srv"]) = .ok ["srv"] := rfl
  calc
    _ = bareDisk.tree.settle 1 40 (["srv", "new"] ++ [overlong]) [] := rfl
    _ = bareDisk.tree.settle 1 40 (["srv"] ++ ["new"]) [overlong] :=
      Tree.settle_shorten missing (linkless _).linkTarget?_eq_none
    _ = bareDisk.tree.settle 1 40 ["srv"] ["new", overlong] := Tree.settle_shorten rfl rfl
    _ = .ok ["srv", "new", overlong] := Tree.settle_found base

theorem bareDisk_resolve : resolve ⟨["srv"]⟩ bareDisk.tree ("new/" ++ overlong) =
    .ok ["srv", "new", overlong] := by
  have letters : ("new/" ++ overlong).toList = ['n', 'e', 'w', '/'] ++ List.replicate 256 'n' :=
    String.toList_append.trans (congrArg (_ ++ ·) toList_overlong)
  have written : Text.allBlank ("new/" ++ overlong) = false := by
    rw [Text.allBlank, letters]
    rfl
  have leads : Place.follow ["srv"] (.ofText ("new/" ++ overlong)) = ["srv", "new", overlong] := by
    rw [Path.ofText, letters]
    decide +kernel
  have base : bareDisk.tree.realpath (Place.path ["srv"]) = .ok ["srv"] := rfl
  rw [resolve_eq_ok_iff, leads]
  exact ⟨written, rfl, ["srv"], Tree.settle_found base, bareDisk_canonical, rfl⟩

theorem bareDisk_made : bareDisk.tree.makeDirectories ["srv", "new"] =
    (.ok (), bareDisk.tree.put ["srv", "new"] .directory) := by
  have added : bareDisk.tree.add (Place.path ["srv", "new"]) .directory =
      .ok (bareDisk.tree.put ["srv", "new"] .directory) := rfl
  rw [Tree.makeDirectories, added]

theorem bareDisk_unwritten :
    Tree.write (bareDisk.tree.put ["srv", "new"] .directory)
      (Place.path ["srv", "new", overlong]) "x".toUTF8 = .error .nameTooLong := by
  have size : overlong.utf8ByteSize = 256 := by decide +kernel
  have short : (Place.path ["srv", "new", overlong]).size ≤ longestPath := by
    have srv : "srv".utf8ByteSize = 3 := rfl
    have new : "new".utf8ByteSize = 3 := rfl
    simp [Place.path, Path.size, Part.size, size, srv, new, longestPath]
  have down (n : String) : Tree.stride (bareDisk.tree.put ["srv", "new"] .directory) []
        (Place.path ["srv", "new", n]).parts =
      Tree.stride (bareDisk.tree.put ["srv", "new"] .directory) ["srv", "new"] [.name n] := rfl
  have strode := (down overlong).trans (Tree.stride_tooLong rfl (by rw [size]; decide))
  rw [Tree.write, Tree.reach_of_short short, Tree.find_of_clean bareDisk_clean,
    Tree.walk_of_stride strode (by simp)]
  rfl

theorem failed_write_spares_files_bareDisk : bareDisk.tree.Grounded ∧
    write ⟨["srv"]⟩ 0 bareDisk ("new/" ++ overlong) "x" =
      (.error (.io (Place.text ["srv", "new", overlong]) .nameTooLong),
        { bareDisk with tree := bareDisk.tree.put ["srv", "new"] .directory }) ∧
    Spared bareDisk { bareDisk with tree := bareDisk.tree.put ["srv", "new"] .directory }
      ["srv", "new", overlong] := by
  have grounded : bareDisk.tree.Grounded := Tree.grounded_of_mem (by decide)
  have failed : write ⟨["srv"]⟩ 0 bareDisk ("new/" ++ overlong) "x" =
      (.error (.io (Place.text ["srv", "new", overlong]) .nameTooLong),
        { bareDisk with tree := bareDisk.tree.put ["srv", "new"] .directory }) :=
    write_of_unwritten (by decide) bareDisk_resolve bareDisk_made bareDisk_unwritten
  exact ⟨grounded, failed,
    ((failed_write_spares_files grounded failed).2.2.2.2 _ bareDisk_resolve).1⟩

end Sandbox

end FlightBlocks
