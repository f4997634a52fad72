import FlightBlocks.Preview.Session
import FlightBlocks.Store.Store
import FlightBlocks.Studio.Failure
import FlightBlocks.Studio.Upload
/-!
A studio: programs are compiled, written into the firmware header, handed on, and previewed.
-/

namespace FlightBlocks

inductive UploadStatus where
  | notConfigured
  | succeeded (output : UploadOutput)
  | failed (report : FailureReport)
  deriving DecidableEq, Repr

structure PersistReport where
  literal : String
  directives : List Directive
  write : WriteOutcome
  upload : UploadStatus
  deriving DecidableEq, Repr

def PersistReport.isPartial (r : PersistReport) : Bool :=
  match r.upload with
  | .failed _ => true
  | _ => false

structure Studio where
  settings : Settings
  sandbox : Sandbox
  uploader : Option Uploader
  session : Session
  disk : Disk
  uploads : List String

namespace Studio

def settingsOf (toml : String) : Except StudioFailure Settings :=
  match (Toml.parse? toml).bind (Settings.read? .toml) with
  | none => .error (.settings "")
  | some settings => .ok settings

def readLocal (t : Tree) (cwd : Place) (path : String) : Except FileFault String :=
  if path.isEmpty then .error .notFound else t.readText (cwd.path.join (.ofText path))

def loadSettings (t : Tree) (cwd : Place) (path : String) : Except StudioFailure Settings :=
  match readLocal t cwd path with
  | .error fault => .error (.settings (path ++ ": " ++ fault.message))
  | .ok toml => settingsOf toml

def checkSettings (settings : Settings) : Except StudioFailure Unit :=
  match settings.problem? with
  | some problem => .error (.settings problem)
  | none => .ok ()

def open? (launch : Launcher) (settings : Settings) (t : Tree) (cwd : Place) :
    Except StudioFailure Studio := do
  checkSettings settings
  let sandbox ← (Sandbox.open? t cwd settings.baseDir).mapError .store
  let session ← (Session.open? settings.preview.course).mapError .preview
  let uploader := settings.upload.map fun u => u.uploader launch cwd
  return ⟨settings, sandbox, uploader, session, ⟨t, []⟩, []⟩

def compile (ws : Option Workspace) : Except StudioFailure Program :=
  (Program.ofWorkspace ws).mapError .program

def read (s : Studio) (requested : String) : Except StudioFailure ReadOutcome :=
  (s.sandbox.read s.disk.tree requested).mapError .store

def write (s : Studio) (time : Int64) (requested content : String) :
    Except StudioFailure WriteOutcome × Studio :=
  let (outcome, disk) := s.sandbox.write time s.disk requested content
  (outcome.mapError .store, { s with disk := disk })

/-- The header that stands at `target`; none if it is missing or cannot be read. -/
def existing (s : Studio) (target : String) : Except StudioFailure (Option String) :=
  match s.read target with
  | .ok outcome => .ok (some outcome.content)
  | .error failure => if failure.allowsDefaultHeader then .ok none else .error failure

def handOn (s : Studio) (written : String) : UploadStatus × Studio :=
  match s.uploader with
  | none => (.notConfigured, s)
  | some uploader =>
    let (outcome, tree) := uploader s.disk.tree written
    let s := { s with disk := { s.disk with tree := tree }, uploads := s.uploads ++ [written] }
    match outcome with
    | .ok output => (.succeeded output, s)
    | .error failure => (.failed (StudioFailure.store failure).report, s)

/-- The program of a workspace, and the header at `target` with that program in it. -/
def prepare (s : Studio) (ws : Option Workspace) (target : String) :
    Except StudioFailure (Program × String) := do
  let program ← compile ws
  let header ← s.existing target
  let patched ← (Header.patch header program.literal).mapError .header
  return (program, patched)

/-- Puts the program of a workspace into the header at `target` and hands the header on. Nothing
is written unless all before it succeeds; what comes after it is reported, and is no failure. -/
def persistTo (s : Studio) (time : Int64) (ws : Option Workspace) (target : String) :
    Except StudioFailure PersistReport × Studio :=
  match s.prepare ws target with
  | .error failure => (.error failure, s)
  | .ok (program, patched) =>
    match s.write time target patched with
    | (.error failure, s) => (.error failure, s)
    | (.ok outcome, s) =>
      let (status, s) := s.handOn outcome.path
      (.ok ⟨program.literal, program.directives, outcome, status⟩, s)

def persist (s : Studio) (time : Int64) (ws : Option Workspace) :
    Except StudioFailure PersistReport × Studio :=
  s.persistTo time ws s.settings.targetFile

def simulate (s : Studio) (ws : Option Workspace) : Except StudioFailure Studio := do
  let program ← compile ws
  let session ← (s.session.start program.kinds).mapError .preview
  return { s with session := session }

def preview (s : Studio) (ws : Option Workspace) :
    Except StudioFailure (Option RunOutcome × Studio) := do
  let program ← compile ws
  let (outcome, session) ← (s.session.run program.kinds).mapError .preview
  return (outcome, { s with session := session })

end Studio

end FlightBlocks
