import FlightBlocks.Json.Record
import FlightBlocks.Preview.Run
import FlightBlocks.Text.Blank
import FlightBlocks.Toml.Document
import FlightBlocks.Toml.Record
/-!
The settings of a studio. They are read from TOML and from JSON by the same rules: members that no
rule names are passed over, and those left out have their defaults.
-/

namespace FlightBlocks

/-- What a reader of settings asks of a value in some format. -/
structure Format (V : Type) where
  members? : List String → V → Option (List (Option V))
  items? : V → Option (List V)
  string? : V → Option String
  word? : Nat → V → Option Nat
  isNull : V → Bool

namespace Format

def json : Format Json where
  members? := Json.members?
  items? := Json.items? some
  string? := Json.string?
  word? := Json.word?
  isNull
    | .null => true
    | _ => false

def toml : Format Toml where
  members? := Toml.members?
  items? := Toml.items?
  string? := Toml.string?
  word? := Toml.word?
  isNull _ := false

variable {V : Type} (f : Format V)

def strings? (v : V) : Option (List String) := (f.items? v).bind fun vs => vs.mapM f.string?

def word32? (v : V) : Option UInt32 := (f.word? 32 v).map UInt32.ofNat

def word64? (v : V) : Option UInt64 := (f.word? 64 v).map UInt64.ofNat

def nullable {α : Type} (read : V → Option α) (v : V) : Option (Option α) :=
  if f.isNull v then some none else (read v).map some

end Format

structure UploadSettings where
  program : String
  args : List String
  workingDir : Option String
  deriving DecidableEq, Repr

structure PreviewSettings where
  gridSize : UInt32
  startX : UInt32
  startY : UInt32
  startDelay : UInt64
  stepDelay : UInt64
  flipDuration : UInt64
  deriving DecidableEq, Repr

structure Settings where
  baseDir : String
  targetFile : String
  upload : Option UploadSettings
  preview : PreviewSettings
  deriving DecidableEq, Repr

namespace UploadSettings

def read? {V : Type} (f : Format V) (v : V) : Option UploadSettings :=
  match f.members? ["program", "args", "working_dir"] v with
  | some [program, args, workingDir] => do
    return ⟨← program.bind f.string?, ← args.elim (some []) f.strings?,
      ← workingDir.elim (some none) (f.nullable f.string?)⟩
  | _ => none

def toJson (u : UploadSettings) : Json :=
  .record [("program", .string u.program), ("args", .strings u.args),
    ("working_dir", .ofOption .string u.workingDir)]

end UploadSettings

namespace PreviewSettings

def default : PreviewSettings := ⟨11, 5, 5, 500, 1000, 500⟩

def names : List String :=
  ["grid_size", "start_x", "start_y", "start_delay_ms", "step_delay_ms", "flip_duration_ms"]

def read? {V : Type} (f : Format V) (v : V) : Option PreviewSettings :=
  match f.members? names v with
  | some [gridSize, startX, startY, startDelay, stepDelay, flipDuration] => do
    return ⟨← gridSize.elim (some default.gridSize) f.word32?,
      ← startX.elim (some default.startX) f.word32?,
      ← startY.elim (some default.startY) f.word32?,
      ← startDelay.elim (some default.startDelay) f.word64?,
      ← stepDelay.elim (some default.stepDelay) f.word64?,
      ← flipDuration.elim (some default.flipDuration) f.word64?⟩
  | _ => none

def toJson (p : PreviewSettings) : Json :=
  .record [("grid_size", .nat p.gridSize.toNat), ("start_x", .nat p.startX.toNat),
    ("start_y", .nat p.startY.toNat), ("start_delay_ms", .nat p.startDelay.toNat),
    ("step_delay_ms", .nat p.stepDelay.toNat), ("flip_duration_ms", .nat p.flipDuration.toNat)]

def grid (p : PreviewSettings) : Grid := ⟨p.gridSize, p.startX, p.startY⟩

def course (p : PreviewSettings) : Course :=
  ⟨p.grid, p.startDelay.toNat, p.stepDelay.toNat, p.flipDuration.toNat⟩

end PreviewSettings

namespace Settings

def defaultTarget : String := "M5Stampfly/src/direction_sequence.hpp"

def baseDirVariable : String := "WRITE_BASE_DIR"

def default : Settings := ⟨"./firmware", defaultTarget, none, .default⟩

def read? {V : Type} (f : Format V) (v : V) : Option Settings :=
  match f.members? ["base_dir", "target_file", "upload", "simulator"] v with
  | some [baseDir, targetFile, upload, preview] => do
    return ⟨← baseDir.elim (some default.baseDir) f.string?,
      ← targetFile.elim (some default.targetFile) f.string?,
      ← upload.elim (some none) (f.nullable (UploadSettings.read? f)),
      ← preview.elim (some .default) (PreviewSettings.read? f)⟩
  | _ => none

def toJson (s : Settings) : Json :=
  .record [("base_dir", .string s.baseDir), ("target_file", .string s.targetFile),
    ("upload", .ofOption UploadSettings.toJson s.upload), ("simulator", s.preview.toJson)]

/-- A base directory from the environment counts unless it is blank. -/
def withBaseDir (s : Settings) (fromEnvironment : Option String) : Settings :=
  match fromEnvironment with
  | none => s
  | some dir => if Text.allBlank dir then s else { s with baseDir := dir }

def problem? (s : Settings) : Option String :=
  if Text.allBlank s.targetFile then some "target_file must not be empty"
  else if s.upload.any fun u => Text.allBlank u.program then
    some "upload.program must not be empty"
  else
    match s.preview.grid.validate with
    | .ok _ => none
    | .error fault => some fault.message

end Settings

end FlightBlocks
