import FlightBlocks.CommandLine.Run
import FlightBlocks.Proofs.Files.Settle
import FlightBlocks.Proofs.Sequence.Header
import FlightBlocks.Proofs.Store.Write
/-!
Putting a program into a header is all or nothing up to the write. What fails after the write is
reported and undoes nothing.
-/

namespace FlightBlocks

theorem mapError_eq_ok {α ε δ : Type} {f : ε → δ} {x : Except ε α} {a : α} :
    x.mapError f = .ok a ↔ x = .ok a := by
  cases x <;> simp [Except.mapError]

theorem mapError_eq_error {α ε δ : Type} {f : ε → δ} {x : Except ε α} {e : δ} :
    x.mapError f = .error e ↔ ∃ cause, x = .error cause ∧ e = f cause := by
  cases x <;> simp [Except.mapError, eq_comm]

namespace Studio

variable {s s' : Studio} {time : Int64} {ws : Option Workspace} {target path : String}

def standing (s : Studio) (target : String) : Option String :=
  (s.read target).toOption.map ReadOutcome.content

def harmless : List FailureKind := [.invalidInput, .invalidPath, .patchMismatch]

theorem existing_of_ok {outcome : ReadOutcome} (read : s.read target = .ok outcome) :
    s.existing target = .ok (s.standing target) := by
  simp [existing, standing, read, Except.toOption]

theorem existing_of_error {failure : StudioFailure} (read : s.read target = .error failure) :
    s.existing target = if failure.kind = .notFound ∨ failure.kind = .ioError then
      .ok (s.standing target) else .error failure := by
  simp [existing, standing, read, Except.toOption, StudioFailure.allowsDefaultHeader]

theorem existing_eq_ok {header : Option String} (found : s.existing target = .ok header) :
    header = s.standing target ∧ ∀ failure, s.read target = .error failure →
      failure.kind = .notFound ∨ failure.kind = .ioError := by
  cases read : s.read target with
  | ok outcome =>
    rw [existing_of_ok read] at found
    exact ⟨(Except.ok.inj found).symm, by simp⟩
  | error failure =>
    rw [existing_of_error read] at found
    split at found
    next allowed =>
      refine ⟨(Except.ok.inj found).symm, ?_⟩
      rintro _ ⟨⟩
      exact allowed
    next => cases found

theorem existing_of_resolved {place : Place}
    (resolved : s.sandbox.resolve s.disk.tree target = .ok place) :
    s.existing target = .ok (s.standing target) := by
  cases read : s.read target with
  | ok outcome => exact existing_of_ok read
  | error failure =>
    obtain ⟨cause, failed, rfl⟩ := mapError_eq_error.1 read
    rw [existing_of_error read, if_pos]
    rcases Sandbox.read_eq_error resolved failed with rfl | ⟨fault, rfl⟩
    · exact .inl rfl
    · exact .inr rfl

theorem standing_of_readText {place : Place} {text : String}
    (resolved : s.sandbox.resolve s.disk.tree target = .ok place)
    (read : s.disk.tree.readText place.path = .ok text) : s.standing target = some text := by
  simp [standing, Studio.read, Sandbox.read, resolved, read, bind, Except.bind, pure, Except.pure,
    Except.mapError, Except.toOption]

theorem existing_eq_error {failure : StudioFailure} (failed : s.existing target = .error failure) :
    failure.kind ∈ harmless := by
  cases resolved : s.sandbox.resolve s.disk.tree target with
  | ok place => rw [existing_of_resolved resolved] at failed; cases failed
  | error cause =>
    have read : s.read target = .error (.store cause) := by
      rw [Studio.read, Sandbox.read_of_refused resolved]
      rfl
    rw [existing_of_error read] at failed
    split at failed
    next => cases failed
    next other =>
      cases failed
      rcases Sandbox.resolve_eq_error resolved with rfl | rfl | ⟨path, fault, rfl⟩
      · simp [StudioFailure.kind, harmless]
      · simp [StudioFailure.kind, harmless]
      · exact absurd (.inr rfl) other

theorem prepare_eq_ok_iff {program : Program} {patched : String} :
    s.prepare ws target = .ok (program, patched) ↔ compile ws = .ok program ∧
      ∃ header, s.existing target = .ok header ∧
        Header.patch header program.literal = .ok patched := by
  unfold prepare
  cases compile ws with
  | error failure => simp [bind, Except.bind]
  | ok program' =>
    cases s.existing target with
    | error failure => simp [bind, Except.bind]
    | ok header =>
      simp only [bind, Except.bind, Except.ok.injEq, exists_eq_left']
      cases put : Header.patch header program'.literal with
      | error fault =>
        simp only [Except.mapError, reduceCtorEq, false_iff, not_and]
        rintro rfl
        simp [put]
      | ok text =>
        simp only [Except.mapError, pure, Except.pure, Except.ok.injEq, Prod.mk.injEq]
        constructor
        · rintro ⟨rfl, rfl⟩
          exact ⟨rfl, put⟩
        · rintro ⟨rfl, again⟩
          exact ⟨rfl, Except.ok.inj (put.symm.trans again)⟩

theorem prepare_eq_error {failure : StudioFailure} (failed : s.prepare ws target = .error failure) :
    failure.kind ∈ harmless := by
  unfold prepare at failed
  cases compiled : compile ws with
  | error cause =>
    rw [compiled] at failed
    cases failed
    obtain ⟨defect, -, rfl⟩ := mapError_eq_error.1 compiled
    simp [StudioFailure.kind, harmless]
  | ok program =>
    rw [compiled] at failed
    simp only [bind, Except.bind] at failed
    cases found : s.existing target with
    | error cause =>
      rw [found] at failed
      cases failed
      exact existing_eq_error found
    | ok header =>
      rw [found] at failed
      simp only at failed
      cases put : Header.patch header program.literal with
      | error fault =>
        rw [put] at failed
        cases failed
        cases fault <;> simp [StudioFailure.kind, harmless]
      | ok text => rw [put] at failed; cases failed

/-- What handing on the file at `path` comes to. -/
inductive HandedOn (s : Studio) (path : String) : UploadStatus → Studio → Prop
  | nowhere : s.uploader = none → HandedOn s path .notConfigured s
  | taken {uploader : Uploader} {output : UploadOutput} {tree : Tree} :
      s.uploader = some uploader → uploader s.disk.tree path = (.ok output, tree) →
      HandedOn s path (.succeeded output)
        { s with disk := { s.disk with tree := tree }, uploads := s.uploads ++ [path] }
  | refused {uploader : Uploader} {failure : StoreFailure} {tree : Tree} :
      s.uploader = some uploader → uploader s.disk.tree path = (.error failure, tree) →
      HandedOn s path (.failed (StudioFailure.store failure).report)
        { s with disk := { s.disk with tree := tree }, uploads := s.uploads ++ [path] }

theorem handOn_handedOn (s : Studio) (path : String) :
    s.HandedOn path (s.handOn path).1 (s.handOn path).2 := by
  unfold handOn
  split
  next configured => exact .nowhere configured
  next uploader configured =>
    match called : uploader s.disk.tree path with
    | (.ok output, tree) => exact .taken configured called
    | (.error failure, tree) => exact .refused configured called

theorem HandedOn.history {status : UploadStatus} (handed : s.HandedOn path status s') :
    s'.disk.history = s.disk.history := by
  cases handed <;> rfl

theorem HandedOn.grounded {status : UploadStatus} (handed : s.HandedOn path status s')
    (grounded : s.disk.tree.Grounded)
    (kept : ∀ uploader, s.uploader = some uploader → ∀ t path, t.Grounded →
      (uploader t path).2.Grounded) : s'.disk.tree.Grounded := by
  cases handed with
  | nowhere => exact grounded
  | taken configured called => simpa [called] using kept _ configured s.disk.tree path grounded
  | refused configured called => simpa [called] using kept _ configured s.disk.tree path grounded

theorem write_eq {content : String} : s.write time target content =
    ((s.sandbox.write time s.disk target content).1.mapError .store,
      { s with disk := (s.sandbox.write time s.disk target content).2 }) := rfl

theorem write_failed {content : String} {failure : StudioFailure} (grounded : s.disk.tree.Grounded)
    (failed : s.write time target content = (.error failure, s')) :
    failure.kind ∈ harmless ∧ s' = s ∨ failure.kind = .ioError ∧
      ∃ tree : Tree, s' = { s with disk := { s.disk with tree := tree } } ∧ tree.Grounded ∧
        Tree.OnlyDirectoriesNew (fun _ => True) s.disk.tree tree := by
  have wrote := s.sandbox.write_wrote time s.disk target content
  rw [write_eq, Prod.mk.injEq] at failed
  obtain ⟨failed, rfl⟩ := failed
  generalize s.sandbox.write time s.disk target content = result at wrote failed
  have only (place : Place) := Tree.makeDirectories_only_new grounded place
  cases wrote with
  | empty =>
    cases failed
    exact .inl ⟨by simp [StudioFailure.kind, harmless], rfl⟩
  | refused resolved =>
    cases failed
    rcases Sandbox.resolve_eq_error resolved with rfl | rfl | ⟨path, fault, rfl⟩
    · exact .inl ⟨by simp [StudioFailure.kind, harmless], rfl⟩
    · exact .inl ⟨by simp [StudioFailure.kind, harmless], rfl⟩
    · exact .inr ⟨rfl, s.disk.tree, rfl, grounded, fun _ => .inl rfl⟩
  | @unreached place =>
    cases failed
    exact .inr ⟨rfl, _, rfl, only place.parent⟩
  | @unwritten place =>
    cases failed
    exact .inr ⟨rfl, _, rfl, only place.parent⟩
  | written => cases failed

theorem write_ok {content : String} {outcome : WriteOutcome} (grounded : s.disk.tree.Grounded)
    (wrote : s.write time target content = (.ok outcome, s')) :
    s' = { s with disk := s'.disk } ∧ s'.disk.tree.Grounded ∧
      ∃ place, s.sandbox.resolve s.disk.tree target = .ok place ∧ outcome.path = place.text ∧
        s'.disk.tree.readText place.path = .ok content ∧
        s'.disk.history = s.disk.history.append time outcome.path content := by
  have done := s.sandbox.write_wrote time s.disk target content
  rw [write_eq, Prod.mk.injEq] at wrote
  obtain ⟨ok, rfl⟩ := wrote
  generalize s.sandbox.write time s.disk target content = result at done ok
  cases done with
  | empty => cases ok
  | refused => cases ok
  | unreached => cases ok
  | unwritten => cases ok
  | @written place _ _ resolved written =>
    cases ok
    have grounded' := (Tree.makeDirectories_only_new grounded place.parent).1
    exact ⟨rfl, grounded'.write written, place, resolved, rfl,
      Tree.readText_of_write grounded' written, rfl⟩

theorem prepare_of_write {program : Program} {patched : String} {outcome : WriteOutcome}
    {written : Studio} (compiled : compile ws = .ok program)
    (put : Header.patch (s.standing target) program.literal = .ok patched)
    (wrote : s.write time target patched = (.ok outcome, written)) :
    s.prepare ws target = .ok (program, patched) := by
  rw [write_eq, Prod.mk.injEq] at wrote
  obtain ⟨place, resolved⟩ := Sandbox.resolved_of_write (mapError_eq_ok.1 wrote.1)
  exact prepare_eq_ok_iff.2 ⟨compiled, _, existing_of_resolved resolved, put⟩

theorem persistTo_of_unprepared {failure : StudioFailure}
    (failed : s.prepare ws target = .error failure) :
    s.persistTo time ws target = (.error failure, s) := by
  rw [persistTo, failed]

section

variable {program : Program} {patched : String}
  (prepared : s.prepare ws target = .ok (program, patched))

include prepared

theorem persistTo_of_unwritten {failure : StudioFailure}
    (failed : s.write time target patched = (.error failure, s')) :
    s.persistTo time ws target = (.error failure, s') := by
  rw [persistTo, prepared]
  simp [failed]

theorem persistTo_of_written {outcome : WriteOutcome} {written : Studio}
    (wrote : s.write time target patched = (.ok outcome, written)) :
    s.persistTo time ws target = (.ok ⟨program.literal, program.directives, outcome,
      (written.handOn outcome.path).1⟩, (written.handOn outcome.path).2) := by
  rw [persistTo, prepared]
  simp [wrote]

end

theorem persistTo_eq_ok {report : PersistReport}
    (done : s.persistTo time ws target = (.ok report, s')) :
    ∃ program patched written, s.prepare ws target = .ok (program, patched) ∧
      s.write time target patched = (.ok report.write, written) ∧
      report.literal = program.literal ∧ report.directives = program.directives ∧
      written.HandedOn report.write.path report.upload s' := by
  cases prepared : s.prepare ws target with
  | error failure => rw [persistTo_of_unprepared prepared] at done; cases done
  | ok ready =>
    obtain ⟨program, patched⟩ := ready
    match wrote : s.write time target patched with
    | (.error failure, written) => rw [persistTo_of_unwritten prepared wrote] at done; cases done
    | (.ok outcome, written) =>
      rw [persistTo_of_written prepared wrote] at done
      cases done
      exact ⟨program, patched, written, rfl, wrote, rfl, rfl, written.handOn_handedOn _⟩

/-- What a program that was put into a header leaves behind. The file is the one that is handed on;
what its taker does to the files after that is not said. -/
structure Persisted (s : Studio) (time : Int64) (target : String) (program : Program)
    (patched : String) (written : Studio) (report : PersistReport) (s' : Studio) : Prop where
  absent : ∀ failure, s.read target = .error failure →
    failure.kind = .notFound ∨ failure.kind = .ioError
  program : report.literal = program.literal ∧ report.directives = program.directives
  wrote : s.write time target patched = (.ok report.write, written)
  stands : ∃ place, s.sandbox.resolve s.disk.tree target = .ok place ∧
    report.write.path = place.text ∧ written.disk.tree.readText place.path = .ok patched
  declares : ∃ start, Declaration.range? patched =
      some (start, start + report.literal.utf8ByteSize) ∧
    patched.toUTF8.extract start (start + report.literal.utf8ByteSize) = report.literal.toUTF8
  recorded : ∃ record : Record, record.path = report.write.path ∧
    s'.disk.history = s.disk.history ++ [record]
  handedOn : written = { s with disk := written.disk } ∧
    written.HandedOn report.write.path report.upload s'
  grounded : written.disk.tree.Grounded ∧
    ((∀ uploader, s.uploader = some uploader →
      ∀ t path, t.Grounded → (uploader t path).2.Grounded) → s'.disk.tree.Grounded)
  partly : (CommandLine.deployAnswer report).exit = (if report.isPartial then 2 else 0) ∧
    (report.isPartial = true ↔ ∃ uploader failure tree, s.uploader = some uploader ∧
      uploader written.disk.tree report.write.path = (.error failure, tree))

theorem HandedOn.failed_iff {report : PersistReport}
    (handed : s.HandedOn path report.upload s') :
    report.isPartial = true ↔ ∃ uploader failure tree, s.uploader = some uploader ∧
      uploader s.disk.tree path = (.error failure, tree) := by
  unfold PersistReport.isPartial
  generalize report.upload = status at handed
  cases handed with
  | nowhere none => simp [none]
  | taken configured called => simp [configured, called]
  | refused configured called => simp [configured, called]

theorem persisted_of_eq_ok {report : PersistReport} (grounded : s.disk.tree.Grounded)
    (done : s.persistTo time ws target = (.ok report, s')) :
    ∃ program patched written, compile ws = .ok program ∧
      Header.patch (s.standing target) program.literal = .ok patched ∧
      s.Persisted time target program patched written report s' := by
  obtain ⟨program, patched, written, prepared, wrote, literal, directives, handed⟩ :=
    persistTo_eq_ok done
  obtain ⟨compiled, header, found, put⟩ := prepare_eq_ok_iff.1 prepared
  obtain ⟨rfl, absent⟩ := existing_eq_ok found
  obtain ⟨before, declaration, after, -, splits⟩ := Header.patch_eq_ok put
  obtain ⟨same, grounded', place, resolved, path, read, history⟩ := write_ok grounded wrote
  have uploader : written.uploader = s.uploader := by rw [same]
  refine ⟨program, patched, written, compiled, put, ?_⟩
  exact {
    absent := absent
    program := ⟨literal, directives⟩
    wrote := wrote
    stands := ⟨place, resolved, path, read⟩
    declares := ⟨before.utf8ByteSize, literal ▸ splits.range?, literal ▸ splits.extract_declaration⟩
    recorded := ⟨_, rfl, handed.history.trans history⟩
    handedOn := ⟨same, handed⟩
    grounded := ⟨grounded', fun kept => handed.grounded grounded' (uploader ▸ kept)⟩
    partly := ⟨rfl, uploader ▸ handed.failed_iff⟩ }

theorem persistTo_eq_ok_iff : (∃ report s', s.persistTo time ws target = (.ok report, s')) ↔
    ∃ program patched outcome written, compile ws = .ok program ∧
      Header.patch (s.standing target) program.literal = .ok patched ∧
      s.write time target patched = (.ok outcome, written) := by
  constructor
  · rintro ⟨report, s', done⟩
    obtain ⟨program, patched, written, prepared, wrote, -⟩ := persistTo_eq_ok done
    obtain ⟨compiled, header, found, put⟩ := prepare_eq_ok_iff.1 prepared
    obtain ⟨rfl, -⟩ := existing_eq_ok found
    exact ⟨program, patched, report.write, written, compiled, put, wrote⟩
  · rintro ⟨program, patched, outcome, written, compiled, put, wrote⟩
    exact ⟨_, _, persistTo_of_written (prepare_of_write compiled put wrote) wrote⟩

theorem persistTo_failed {failure : StudioFailure} (grounded : s.disk.tree.Grounded)
    (failed : s.persistTo time ws target = (.error failure, s')) :
    failure.kind ∈ harmless ∧ s' = s ∨ failure.kind = .ioError ∧
      ∃ tree : Tree, s' = { s with disk := { s.disk with tree := tree } } ∧ tree.Grounded ∧
        Tree.OnlyDirectoriesNew (fun _ => True) s.disk.tree tree := by
  cases prepared : s.prepare ws target with
  | error cause =>
    rw [persistTo_of_unprepared prepared] at failed
    cases failed
    exact .inl ⟨prepare_eq_error prepared, rfl⟩
  | ok ready =>
    obtain ⟨program, patched⟩ := ready
    match wrote : s.write time target patched with
    | (.error cause, written) =>
      rw [persistTo_of_unwritten prepared wrote] at failed
      cases failed
      exact write_failed grounded wrote
    | (.ok outcome, written) => rw [persistTo_of_written prepared wrote] at failed; cases failed

/-- A failure comes before the write or is its own: nothing is recorded or handed on, and no file
has changed. Else the program stands in the header, whatever became of it after that. -/
theorem persistTo_all_or_nothing (s : Studio) (grounded : s.disk.tree.Grounded) (time : Int64)
    (ws : Option Workspace) (target : String) :
    (∀ failure s', s.persistTo time ws target = (.error failure, s') →
      failure.kind ∈ harmless ∧ s' = s ∨ failure.kind = .ioError ∧
        ∃ tree : Tree, s' = { s with disk := { s.disk with tree := tree } } ∧ tree.Grounded ∧
          Tree.OnlyDirectoriesNew (fun _ => True) s.disk.tree tree) ∧
      ((∃ report s', s.persistTo time ws target = (.ok report, s')) ↔
        ∃ program patched outcome written, compile ws = .ok program ∧
          Header.patch (s.standing target) program.literal = .ok patched ∧
          s.write time target patched = (.ok outcome, written)) ∧
      ∀ report s', s.persistTo time ws target = (.ok report, s') →
        ∃ program patched written, compile ws = .ok program ∧
          Header.patch (s.standing target) program.literal = .ok patched ∧
          s.Persisted time target program patched written report s' :=
  ⟨fun _ _ => persistTo_failed grounded, persistTo_eq_ok_iff,
    fun _ _ => persisted_of_eq_ok grounded⟩

def keptHeader : String := "// kept\nDirection_t direction_sequence[] = \x7bLEFT\x7d;\n"

def emptiedHeader : String := "// kept\nDirection_t direction_sequence[] = \x7b\x7d;\n"

def grounds : Studio where
  settings := .default
  sandbox := ⟨["srv"]⟩
  uploader := some fun t _ => (.error (.notStarted "cp" .notFound), t)
  session := ⟨.default, 0, false, [], none, none⟩
  disk := ⟨[(["srv"], .directory), (["srv", "h"], .file keptHeader.toUTF8)], []⟩
  uploads := []

theorem grounds_resolve : grounds.sandbox.resolve grounds.disk.tree "h" = .ok ["srv", "h"] := by
  have base : grounds.disk.tree.realpath (Place.path ["srv"]) = .ok ["srv"] := rfl
  have header : grounds.disk.tree.realpath (Place.path ["srv", "h"]) = .ok ["srv", "h"] := rfl
  rw [Sandbox.resolve_eq_ok_iff]
  exact ⟨by decide +kernel, rfl, ["srv"], Tree.settle_found base, Tree.settle_found header, rfl⟩

theorem grounds_standing : grounds.standing "h" = some keptHeader :=
  standing_of_readText grounds_resolve rfl

theorem grounds_write : ∃ outcome written,
    grounds.write 0 "h" emptiedHeader = (.ok outcome, written) := by
  have made : grounds.disk.tree.makeDirectories ["srv"] = (.ok (), grounds.disk.tree) :=
    Tree.makeDirectories_of_directory rfl fun through => by cases through <;> rfl
  rw [write_eq, Sandbox.write_of_resolved (by decide) grounds_resolve made rfl]
  exact ⟨_, _, rfl⟩

theorem persistTo_grounds : grounds.disk.tree.Grounded ∧ ∃ report s' program written,
    grounds.persistTo 0 none "h" = (.ok report, s') ∧
      grounds.Persisted 0 "h" program emptiedHeader written report s' ∧
      report.isPartial = true := by
  have grounded : grounds.disk.tree.Grounded := Tree.grounded_of_mem (by decide)
  obtain ⟨-, ok, persisted⟩ := persistTo_all_or_nothing grounds grounded 0 none "h"
  obtain ⟨outcome, written, wrote⟩ := grounds_write
  have put : Header.patch (grounds.standing "h") (Program.ofKinds []).literal =
      .ok emptiedHeader := by
    rw [grounds_standing]
    rfl
  obtain ⟨report, s', done⟩ := ok.2 ⟨.ofKinds [], emptiedHeader, outcome, written, rfl, put, wrote⟩
  obtain ⟨program, patched, written, compiled, again, all⟩ := persisted report s' done
  cases compiled
  cases put.symm.trans again
  exact ⟨grounded, report, s', _, written, done, all, all.partly.2.2 ⟨_, _, _, rfl, rfl⟩⟩

end Studio

end FlightBlocks
