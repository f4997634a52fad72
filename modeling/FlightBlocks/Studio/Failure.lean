import FlightBlocks.Blocks.Defect
import FlightBlocks.Json.Record
import FlightBlocks.Preview.Grid
import FlightBlocks.Sequence.Header
import FlightBlocks.Store.Failure
/-!
What can go wrong in a studio, and the few kinds of it that callers tell apart.
-/

namespace FlightBlocks

inductive FailureKind where
  | invalidInput
  | invalidPath
  | notFound
  | patchMismatch
  | ioError
  | upstreamCommandFailure
  deriving DecidableEq, Repr

namespace FailureKind

def all : List FailureKind :=
  [invalidInput, invalidPath, notFound, patchMismatch, ioError, upstreamCommandFailure]

def name : FailureKind → String
  | invalidInput => "InvalidInput"
  | invalidPath => "InvalidPath"
  | notFound => "NotFound"
  | patchMismatch => "PatchMismatch"
  | ioError => "IoError"
  | upstreamCommandFailure => "UpstreamCommandFailure"

def toJson (k : FailureKind) : Json := .string k.name

def ofJson? : Json → Option FailureKind := Json.variant? (all.map fun k => (k.name, k))

end FailureKind

inductive StudioFailure where
  | program (d : Defect)
  | store (failure : StoreFailure)
  | header (fault : PatchFault)
  | preview (fault : PreviewFault)
  | settings (problem : String)
  deriving DecidableEq, Repr

structure FailureReport where
  kind : FailureKind
  message : String
  deriving DecidableEq, Repr

namespace FailureReport

def toJson (r : FailureReport) : Json :=
  .record [("kind", r.kind.toJson), ("message", .string r.message)]

def ofJson? (v : Json) : Option FailureReport :=
  match v.members? ["kind", "message"] with
  | some [kind, message] => do
    return ⟨← Json.required FailureKind.ofJson? kind, ← Json.required Json.string? message⟩
  | _ => none

end FailureReport

namespace StudioFailure

def message : StudioFailure → String
  | program d => "program error: " ++ d.message
  | store failure => failure.message
  | header fault => "patch error: " ++ fault.message
  | preview fault => "simulation error: " ++ fault.message
  | settings problem => "configuration error: " ++ problem

def kind : StudioFailure → FailureKind
  | program _ => .invalidInput
  | store (.invalidInput _) => .invalidInput
  | store (.outside ..) => .invalidPath
  | store (.notFound _) => .notFound
  | store (.io ..) => .ioError
  | store (.tampered _) => .ioError
  | store (.notStarted ..) => .upstreamCommandFailure
  | store (.commandFailed ..) => .upstreamCommandFailure
  | header (.mismatch _) => .patchMismatch
  | header (.notDeclaration _) => .invalidInput
  | preview (.taskFailed _) => .ioError
  | preview _ => .invalidInput
  | settings _ => .invalidInput

def isFatal (f : StudioFailure) : Bool := f.kind == .invalidPath || f.kind == .patchMismatch

/-- Whether a target that could not be read counts as missing. -/
def allowsDefaultHeader (f : StudioFailure) : Bool := f.kind == .notFound || f.kind == .ioError

def report (f : StudioFailure) : FailureReport := ⟨f.kind, f.message⟩

end StudioFailure

end FlightBlocks
