import FlightBlocks.Preview.Snapshot
import FlightBlocks.Sequence.Snapshot
import FlightBlocks.Studio.Studio
/-!
What a studio answers, as JSON.
-/

namespace FlightBlocks

def ReadOutcome.toJson (o : ReadOutcome) : Json :=
  .record [("content", .string o.content), ("path", .string o.path)]

def WriteOutcome.toJson (o : WriteOutcome) : Json :=
  .record [("path", .string o.path), ("base_dir", .string o.base), ("bytes_written", .nat o.bytes)]

def UploadOutput.toJson (o : UploadOutput) : Json :=
  .record [("program", .string o.program), ("exit_code", .nat o.exitCode),
    ("stdout", .string o.out), ("stderr", .string o.err)]

def UploadStatus.toJson : UploadStatus → Json
  | notConfigured => .record [("status", .string "not_configured")]
  | succeeded output => .record [("status", .string "succeeded"), ("detail", output.toJson)]
  | failed report => .record [("status", .string "failed"), ("detail", report.toJson)]

def PersistReport.toJson (r : PersistReport) : Json :=
  .record [("literal", .string r.literal),
    ("directives", .array (r.directives.map Directive.toJson)), ("write", r.write.toJson),
    ("upload", r.upload.toJson)]

def RunOutcome.toJson (o : RunOutcome) : Json :=
  .record [("trace", o.trace.toJson), ("final_state", o.final.toJson),
    ("cancelled", .bool o.cancelled)]

end FlightBlocks
