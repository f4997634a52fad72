import FlightBlocks.Proofs.Sequence.Compiled
import FlightBlocks.Proofs.Store.Overwrite
import FlightBlocks.Proofs.Studio.Persist
/-!
A program that is put into a header replaces the one put in before. Nothing of the first is left:
the files are as if the second alone had been put in.
-/

namespace FlightBlocks.Studio

open Declaration

variable {s s' : Studio} {time : Int64} {ws ws' : Option Workspace} {target path : String}
  {program : Program}

/-- The uploader leaves the files as they are. -/
def UploadsQuietly (s : Studio) : Prop :=
  ∀ uploader, s.uploader = some uploader → ∀ t path, (uploader t path).2 = t

theorem UploadsQuietly.same_tree (quiet : s.UploadsQuietly) {uploader : Uploader}
    (configured : s.uploader = some uploader) {t tree : Tree}
    {outcome : Except StoreFailure UploadOutput} (called : uploader t path = (outcome, tree)) :
    tree = t := by
  have same := quiet uploader configured t path
  rwa [called] at same

theorem HandedOn.disk {status : UploadStatus} (handed : s.HandedOn path status s')
    (quiet : s.UploadsQuietly) : s'.disk = s.disk := by
  cases handed with
  | nowhere => rfl
  | taken configured called =>
    obtain rfl := quiet.same_tree configured called
    rfl
  | refused configured called =>
    obtain rfl := quiet.same_tree configured called
    rfl

theorem HandedOn.kept {status : UploadStatus} (handed : s.HandedOn path status s') :
    s'.sandbox = s.sandbox ∧ s'.uploader = s.uploader := by
  cases handed <;> exact ⟨rfl, rfl⟩

theorem single_of_compile (compiled : compile ws = .ok program) : Single program.literal := by
  rw [Program.literal_of_source (mapError_eq_ok.1 compiled)]
  exact single_literal _

theorem persistTo_of_wrote {patched : String} {outcome : WriteOutcome} {disk : Disk}
    (quiet : s.UploadsQuietly) (compiled : compile ws = .ok program)
    (put : Header.patch (s.standing target) program.literal = .ok patched)
    (wrote : s.sandbox.write time s.disk target patched = (.ok outcome, disk)) :
    ∃ report s', s.persistTo time ws target = (.ok report, s') ∧ s'.disk = disk := by
  have written : s.write time target patched = (.ok outcome, { s with disk := disk }) := by
    rw [write_eq, wrote]
    rfl
  have prepared := prepare_of_write compiled put written
  exact ⟨_, _, persistTo_of_written prepared written, (handOn_handedOn _ _).disk quiet⟩

theorem wrote_of_persistTo {report : PersistReport} (quiet : s.UploadsQuietly)
    (done : s.persistTo time ws target = (.ok report, s')) :
    s'.sandbox = s.sandbox ∧ s'.UploadsQuietly ∧ ∃ program patched, compile ws = .ok program ∧
      Header.patch (s.standing target) program.literal = .ok patched ∧
      s.sandbox.write time s.disk target patched = (.ok report.write, s'.disk) := by
  obtain ⟨program, patched, written, prepared, wrote, -, -, handed⟩ := persistTo_eq_ok done
  obtain ⟨compiled, header, found, put⟩ := prepare_eq_ok_iff.1 prepared
  obtain ⟨rfl, -⟩ := existing_eq_ok found
  rw [write_eq, Prod.mk.injEq] at wrote
  obtain ⟨ok, rfl⟩ := wrote
  obtain ⟨sandbox, uploader⟩ := handed.kept
  refine ⟨sandbox, by rwa [UploadsQuietly, uploader], program, patched, compiled, put, ?_⟩
  exact Prod.ext (mapError_eq_ok.1 ok) (handed.disk quiet).symm

theorem grounded_of_persistTo (grounded : s.disk.tree.Grounded) (quiet : s.UploadsQuietly)
    {report : PersistReport} (done : s.persistTo time ws target = (.ok report, s')) :
    s'.disk.tree.Grounded := by
  obtain ⟨_, _, _, -, -, persisted⟩ := persisted_of_eq_ok grounded done
  apply persisted.grounded.2
  intro uploader configured t path grounded
  rwa [quiet uploader configured]

theorem persisted_of_put (grounded : s.disk.tree.Grounded) (quiet : s.UploadsQuietly)
    {report : PersistReport} {patched : String}
    (done : s.persistTo time ws target = (.ok report, s')) (compiled : compile ws = .ok program)
    (put : Header.patch (s.standing target) program.literal = .ok patched) :
    ∃ written, s.Persisted time target program patched written report s' ∧
      s'.disk = written.disk := by
  obtain ⟨program', patched', written, compiled', put', persisted⟩ :=
    persisted_of_eq_ok grounded done
  cases compiled.symm.trans compiled'
  cases put.symm.trans put'
  obtain ⟨same, handed⟩ := persisted.handedOn
  have quiet' : written.UploadsQuietly := by
    rw [same]
    exact quiet
  exact ⟨written, persisted, handed.disk quiet'⟩

theorem persistTo_after (grounded : s.disk.tree.Grounded) (lead : s.disk.tree.LinksLead)
    (quiet : s.UploadsQuietly) {report : PersistReport}
    (done : s.persistTo time ws target = (.ok report, s')) (compiled : compile ws' = .ok program)
    (time' time'' : Int64) :
    ∃ again after alone instead patched written,
      s'.persistTo time' ws' target = (.ok again, after) ∧
      s.persistTo time'' ws' target = (.ok alone, instead) ∧
      after.disk.tree = instead.disk.tree ∧
      Header.patch (s.standing target) program.literal = .ok patched ∧
      s'.Persisted time' target program patched written again after ∧
      after.disk = written.disk := by
  obtain ⟨sandbox, quiet', first, patched, -, put, wrote⟩ := wrote_of_persistTo quiet done
  obtain ⟨place, resolved, read, others⟩ := Sandbox.write_overwrites grounded lead wrote
  obtain ⟨text, nonempty, put', again⟩ := Header.patch_again put (single_of_compile compiled)
  obtain ⟨tree, writes⟩ := others text nonempty
  rw [← sandbox] at resolved
  have standing : s'.standing target = some patched := standing_of_readText resolved read
  rw [← standing] at again
  obtain ⟨report', after, done', disk'⟩ := persistTo_of_wrote quiet' compiled again
    (sandbox ▸ (writes time').2)
  obtain ⟨report'', instead, done'', disk''⟩ := persistTo_of_wrote quiet compiled put'
    (writes time'').1
  have grounded' := grounded_of_persistTo grounded quiet done
  obtain ⟨written, persisted, disk⟩ := persisted_of_put grounded' quiet' done' compiled again
  have same : after.disk.tree = instead.disk.tree := by rw [disk', disk'']
  exact ⟨report', after, report'', instead, text, written, done', done'', same, put', persisted,
    disk⟩

/-- Where all links lead somewhere, a program that is put in after another succeeds if it compiles,
and leaves the files that it would have left without the other; so the same program, put in once
more, leaves the files as they are. Each time the header holds the program that was put in last, in
the text that was there before the first. -/
theorem persistTo_overwrites (grounded : s.disk.tree.Grounded) (lead : s.disk.tree.LinksLead)
    (quiet : s.UploadsQuietly) {report : PersistReport}
    (done : s.persistTo time ws target = (.ok report, s')) :
    (∃ program patched written, compile ws = .ok program ∧
      Header.patch (s.standing target) program.literal = .ok patched ∧
      s.Persisted time target program patched written report s' ∧ s'.disk = written.disk) ∧
    (∀ ws' program, compile ws' = .ok program → ∀ time' time'',
      ∃ again after alone instead patched written,
        s'.persistTo time' ws' target = (.ok again, after) ∧
        s.persistTo time'' ws' target = (.ok alone, instead) ∧
        after.disk.tree = instead.disk.tree ∧
        Header.patch (s.standing target) program.literal = .ok patched ∧
        s'.Persisted time' target program patched written again after ∧
        after.disk = written.disk) ∧
      ∀ time', ∃ again after, s'.persistTo time' ws target = (.ok again, after) ∧
        after.disk.tree = s'.disk.tree := by
  obtain ⟨-, -, program, patched, compiled, put, -⟩ := wrote_of_persistTo quiet done
  refine ⟨?_, fun ws' program compiled => persistTo_after grounded lead quiet done compiled, ?_⟩
  · obtain ⟨written, persisted, disk⟩ := persisted_of_put grounded quiet done compiled put
    exact ⟨program, patched, written, compiled, put, persisted, disk⟩
  · intro time'
    obtain ⟨again, after, alone, instead, -, -, done', done'', same, -⟩ :=
      persistTo_after grounded lead quiet done compiled time' time
    -- without the run before it, the same program does what it did then
    cases done.symm.trans done''
    exact ⟨again, after, done', same⟩

def linkedGrounds : Studio where
  settings := .default
  sandbox := ⟨["srv"]⟩
  uploader := some fun t _ => (.error (.notStarted "cp" .notFound), t)
  session := ⟨.default, 0, false, [], none, none⟩
  disk := ⟨[(["srv"], .directory), (["srv", "d"], .directory), (["srv", "l"], .link "d")], []⟩
  uploads := []

theorem linkedGrounds_real :
    linkedGrounds.disk.tree.realpath (Place.path ["srv", "l"]) = .ok ["srv", "d"] := rfl

theorem linkedGrounds_canonical :
    linkedGrounds.disk.tree.canonical ["srv", "l", "new", "h"] = .ok ["srv", "d", "new", "h"] :=
  calc
    _ = linkedGrounds.disk.tree.settle 1 40 (["srv", "l", "new"] ++ ["h"]) [] := rfl
    _ = linkedGrounds.disk.tree.settle 1 40 (["srv", "l"] ++ ["new"]) ["h"] :=
      Tree.settle_shorten rfl rfl
    _ = linkedGrounds.disk.tree.settle 1 40 ["srv", "l"] ["new", "h"] := Tree.settle_shorten rfl rfl
    _ = .ok ["srv", "d", "new", "h"] := Tree.settle_found linkedGrounds_real

theorem linkedGrounds_resolve : linkedGrounds.sandbox.resolve linkedGrounds.disk.tree "l/new/h" =
    .ok ["srv", "d", "new", "h"] := by
  have base : linkedGrounds.disk.tree.realpath (Place.path ["srv"]) = .ok ["srv"] := rfl
  rw [Sandbox.resolve_eq_ok_iff]
  exact ⟨by decide +kernel, rfl, ["srv"], Tree.settle_found base, linkedGrounds_canonical, rfl⟩

theorem linkedGrounds_write {content : String} (nonempty : content ≠ "") :
    ∃ outcome disk, linkedGrounds.sandbox.write 0 linkedGrounds.disk "l/new/h" content =
      (.ok outcome, disk) := by
  have added : linkedGrounds.disk.tree.add (Place.path ["srv", "d", "new"]) .directory =
      .ok (linkedGrounds.disk.tree.put ["srv", "d", "new"] .directory) := rfl
  have made : linkedGrounds.disk.tree.makeDirectories ["srv", "d", "new"] =
      (.ok (), linkedGrounds.disk.tree.put ["srv", "d", "new"] .directory) := by
    rw [Tree.makeDirectories, added]
  exact ⟨_, _, Sandbox.write_of_resolved nonempty linkedGrounds_resolve made rfl⟩

theorem linkedGrounds_standing : linkedGrounds.standing "l/new/h" = none := by
  rw [standing, Studio.read, Sandbox.read, linkedGrounds_resolve]
  rfl

theorem persistTo_linkedGrounds : linkedGrounds.disk.tree.Grounded ∧
    linkedGrounds.disk.tree.LinksLead ∧ linkedGrounds.UploadsQuietly ∧
    compile (some (.chain ["land"])) = .ok (.ofKinds ["land"]) ∧
    ∃ report s', linkedGrounds.persistTo 0 none "l/new/h" = (.ok report, s') ∧
      ∃ again after alone instead patched written,
        s'.persistTo 1 (some (.chain ["land"])) "l/new/h" = (.ok again, after) ∧
        linkedGrounds.persistTo 2 (some (.chain ["land"])) "l/new/h" = (.ok alone, instead) ∧
        after.disk.tree = instead.disk.tree ∧
        Header.patch (linkedGrounds.standing "l/new/h") (Program.ofKinds ["land"]).literal =
          .ok patched ∧
        s'.Persisted 1 "l/new/h" (.ofKinds ["land"]) patched written again after ∧
        after.disk = written.disk := by
  have grounded : linkedGrounds.disk.tree.Grounded := Tree.grounded_of_mem (by decide)
  have lead : linkedGrounds.disk.tree.LinksLead := by
    refine Tree.linksLead_of_mem fun entry member target link => ?_
    simp only [linkedGrounds, List.mem_cons, List.not_mem_nil, or_false] at member
    rcases member with rfl | rfl | rfl
    · cases link
    · cases link
    · exact ⟨_, linkedGrounds_real⟩
  have quiet : linkedGrounds.UploadsQuietly := by
    rintro _ ⟨⟩ t path
    rfl
  have compiled : compile none = .ok (.ofKinds []) := rfl
  have landing : compile (some (.chain ["land"])) = .ok (.ofKinds ["land"]) :=
    mapError_eq_ok.2 (Program.ofWorkspace_chain (by simp))
  have declared : ¬ Header.Undeclared (linkedGrounds.standing "l/new/h") := by
    rw [linkedGrounds_standing]
    rintro ⟨text, ⟨⟩, -⟩
  obtain ⟨patched, put, -⟩ := Header.patch_of_declared declared []
  obtain ⟨text, nonempty, put', -⟩ := Header.patch_again put (single_literal [])
  cases put.symm.trans put'
  obtain ⟨outcome, disk, wrote⟩ := linkedGrounds_write nonempty
  obtain ⟨report, s', done, -⟩ := persistTo_of_wrote quiet compiled put wrote
  exact ⟨grounded, lead, quiet, landing, report, s', done,
    (persistTo_overwrites grounded lead quiet done).2.1 _ _ landing 1 2⟩

end FlightBlocks.Studio
