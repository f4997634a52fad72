import FlightBlocks.Json.Record
import FlightBlocks.Preview.Trace
/-!
Grids, drones and frames as JSON. A grid takes what it leaves out from the default grid.
-/

namespace FlightBlocks

def readWord32? (v : Json) : Option UInt32 := (v.word? 32).map UInt32.ofNat

namespace Grid

def toJson (g : Grid) : Json :=
  .record [("size", .nat g.size.toNat), ("start_x", .nat g.startX.toNat),
    ("start_y", .nat g.startY.toNat)]

def ofJson? (v : Json) : Option Grid :=
  match v.members? ["size", "start_x", "start_y"] with
  | some [size, startX, startY] => do
    return ⟨← Json.orElse Grid.default.size readWord32? size,
      ← Json.orElse Grid.default.startX readWord32? startX,
      ← Json.orElse Grid.default.startY readWord32? startY⟩
  | _ => none

end Grid

def Altitude.toJson (a : Altitude) : Json := .string a.name

def Altitude.ofJson? : Json → Option Altitude :=
  Json.variant? ([grounded, airborne].map fun a => (a.name, a))

namespace Drone

def toJson (d : Drone) : Json :=
  .record [("x", .nat d.x.toNat), ("y", .nat d.y.toNat), ("altitude", d.altitude.toJson),
    ("heading", .nat d.heading.toNat), ("is_transitioning", .bool d.flipping)]

def ofJson? (v : Json) : Option Drone :=
  match v.members? ["x", "y", "altitude", "heading", "is_transitioning"] with
  | some [x, y, altitude, heading, flipping] => do
    return ⟨← Json.required readWord32? x, ← Json.required readWord32? y,
      ← Json.required Altitude.ofJson? altitude,
      UInt16.ofNat (← Json.required (Json.word? 16) heading),
      ← Json.required Json.bool? flipping⟩
  | _ => none

end Drone

def Frame.toJson (f : Frame) : Json :=
  .record [("step", .nat f.step), ("action", .ofOption .string f.action),
    ("state", f.drone.toJson)]

def Trace.toJson (trace : Trace) : Json := .array (trace.map Frame.toJson)

end FlightBlocks
