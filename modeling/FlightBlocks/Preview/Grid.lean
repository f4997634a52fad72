import FlightBlocks.Blocks.Kind
/-!
The square grid of the preview, the drone on it, and what one block does to the drone.
-/

namespace FlightBlocks

structure Grid where
  size : UInt32
  startX : UInt32
  startY : UInt32
  deriving DecidableEq, Repr

inductive Altitude where
  | grounded
  | airborne
  deriving DecidableEq, Repr

def Altitude.name : Altitude → String
  | grounded => "grounded"
  | airborne => "airborne"

/-- `y` grows downward. `flipping` is set while a flip is shown. -/
structure Drone where
  x : UInt32
  y : UInt32
  altitude : Altitude
  heading : UInt16
  flipping : Bool
  deriving DecidableEq, Repr

def Drone.groundedAt (x y : UInt32) : Drone := ⟨x, y, .grounded, 0, false⟩

inductive PreviewFault where
  | busy
  | emptyProgram
  | invalidGrid (problem : String)
  | taskFailed (reason : String)
  deriving DecidableEq, Repr

namespace PreviewFault

def message : PreviewFault → String
  | busy => "a simulation is already running"
  | emptyProgram => "place blocks before simulating"
  | invalidGrid problem => "invalid grid: " ++ problem
  | taskFailed reason => "simulation task failed: " ++ reason

def isBusy (fault : PreviewFault) : Bool := fault == .busy

end PreviewFault

namespace Grid

def default : Grid := ⟨11, 5, 5⟩

def square (size : UInt32) : Grid := ⟨size, size / 2, size / 2⟩

def greatest (g : Grid) : UInt32 := if g.size = 0 then 0 else g.size - 1

def start (g : Grid) : Drone := .groundedAt g.startX g.startY

def validate (g : Grid) : Except PreviewFault Unit :=
  if g.size = 0 then .error (.invalidGrid "size must be at least 1")
  else if g.startX > g.greatest ∨ g.startY > g.greatest then
    .error (.invalidGrid ("start (" ++ toString g.startX.toNat ++ ", " ++
      toString g.startY.toNat ++ ") is outside 0..=" ++ toString g.greatest.toNat))
  else .ok ()

end Grid

inductive Action where
  | takeOff
  | land
  | move (dx dy : Int8)
  | flip
  | unknown
  deriving DecidableEq, Repr

namespace Action

def ofKind : Kind → Action
  | .takeOff => takeOff
  | .land => land
  | .forward => move 0 (-1)
  | .back => move 0 1
  | .left => move (-1) 0
  | .right => move 1 0
  | .rotate => flip

def ofToken (token : String) : Action :=
  match Kind.ofToken? token with
  | none => unknown
  | some k => ofKind k

def length (delta : Int8) : UInt32 := UInt32.ofNat delta.toInt.natAbs

def lowered (value by' : UInt32) : UInt32 := if value < by' then 0 else value - by'

def raised (value by' : UInt32) : UInt32 :=
  if value + by' < value then UInt32.ofNat (UInt32.size - 1) else value + by'

/-- One coordinate after a step, kept from 0 to `greatest`. -/
def stepAxis (value : UInt32) (delta : Int8) (greatest : UInt32) : UInt32 :=
  let moved := if delta < 0 then lowered value (length delta) else raised value (length delta)
  if moved < greatest then moved else greatest

end Action

/-- Moves and flips apply at any altitude. A flip is raised here and put down elsewhere. -/
def Drone.apply (g : Grid) (d : Drone) : Action → Drone
  | .takeOff => { d with altitude := .airborne }
  | .land => { d with altitude := .grounded }
  | .move dx dy =>
    { d with x := Action.stepAxis d.x dx g.greatest, y := Action.stepAxis d.y dy g.greatest }
  | .flip => { d with flipping := true }
  | .unknown => d

end FlightBlocks
