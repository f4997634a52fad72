import FlightBlocks.Shell.Builtin.Basic
import FlightBlocks.Shell.Condition
import FlightBlocks.Shell.Format
/-!
Commands that print a text or test a condition. All texts are byte texts.
-/

namespace FlightBlocks.Shell

namespace Builtin

open Act

def succeed : Builtin := fun _ => return 0

def fail : Builtin := fun _ => return 1

def echo : Builtin := fun args => do
  let (newline, args) := match args with
    | "-n" :: args => (false, args)
    | _ => (true, args)
  let (text, ended) := Escape.expandText ⟨true, false, true⟩ (String.intercalate " " args)
  print (if newline && !ended then text ++ "\n" else text)

def printf : Builtin := fun args => do
  match ← operands args with
  | [] => fault "usage: printf format [arg ...]"
  | format :: args =>
    let (result, w) := Format.apply format args
    w.complaints.forM complain
    match result with
    | .error problem =>
      complain problem.message
      let _ ← print w.printed
      setStatus 2
      throw .failure
    | .ok _ =>
      let status ← print w.printed
      return if w.complaints.isEmpty then status else 1

def condition (result : Except Condition.Problem Bool) : Act Nat := do
  match result with
  | .ok holds => return if holds then 0 else 1
  | .error problem =>
    complain problem.message
    return 2

def files : Act Condition.Files := return ⟨(← get).world.tree, (← get).cwd⟩

def test : Builtin := fun args => do condition (Condition.holds (← files) args)

def bracket : Builtin := fun args => do condition (Condition.bracketed (← files) args)

def times : Builtin := fun _ => print "0m0.000000s 0m0.000000s\n0m0.000000s 0m0.000000s\n"

end Builtin

end FlightBlocks.Shell
