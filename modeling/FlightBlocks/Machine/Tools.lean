import FlightBlocks.Machine.Escape
import FlightBlocks.Machine.Process
/-!
Small programs.
-/

namespace FlightBlocks.Tools

def joined (args : List String) : String := String.intercalate " " args

def isFlags (letters : List Char) (arg : String) : Bool :=
  match arg.toList with
  | '-' :: c :: cs => (c :: cs).all fun c => letters.contains c
  | _ => false

def echo : Tool := fun scene args =>
  let isOption := isFlags ['n', 'e', 'E']
  let flags := (args.takeWhile isOption).flatMap String.toList
  let line := joined (args.dropWhile isOption)
  let escapes := (flags.filter fun c => c == 'e' || c == 'E').getLast? == some 'e'
  let (text, ended) := if escapes then Escape.expandText ⟨true, true, true⟩ line else (line, false)
  scene.printing (if flags.contains 'n' || ended then text else text ++ "\n")

def succeed : Tool := fun scene _ => scene.ended 0

def fail : Tool := fun scene _ => scene.ended 1

def pwd : Tool := fun scene _ => scene.printing (Scene.placeText scene.cwd ++ "\n")

end FlightBlocks.Tools
