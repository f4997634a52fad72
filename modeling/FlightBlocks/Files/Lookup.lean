import FlightBlocks.Files.Fault
import FlightBlocks.Files.Tree
/-!
Finding what a path leads to. Links are followed on the way, forty of them at most.
-/

namespace FlightBlocks

inductive Stop where
  | entry (place : Place)
  /-- Nothing stands there, in a directory that exists. -/
  | free (place : Place)
  | link (place : Place) (target : String) (rest : List Part)
  deriving DecidableEq, Repr

def longestName : Nat := 255

def longestPath : Nat := 4095

def mostLinks : Nat := 40

namespace Tree

def stride (t : Tree) (place : Place) : List Part → Except FileFault Stop
  | [] => .ok (.entry place)
  | part :: rest =>
    if !t.isDirectory place then .error .notDirectory
    else
      match part with
      | .here => stride t place rest
      | .up => stride t place.parent rest
      | .name n =>
        if n.utf8ByteSize > longestName then .error .nameTooLong
        else
          match t.entry? (place ++ [n]) with
          | none => if rest.isEmpty then .ok (.free (place ++ [n])) else .error .notFound
          | some (.link target) => .ok (.link (place ++ [n]) target rest)
          | some _ => stride t (place ++ [n]) rest

/-- Goes along `parts` and follows `hops` links at most. A link at the very end is followed only
when `through` says so. -/
def walk (t : Tree) (through : Bool) : Nat → Place → List Part → Except FileFault Stop
  | hops, place, parts =>
    match t.stride place parts with
    | .ok (.link at' target rest) =>
      if rest.isEmpty && !through then .ok (.link at' target [])
      else
        match hops with
        | 0 => .error .linkLoop
        | hops + 1 =>
          let target := Path.ofText target
          walk t through hops (if target.rooted then [] else at'.parent) (target.parts ++ rest)
    | result => result

def find (t : Tree) (through : Bool) (p : Path) : Except FileFault Stop :=
  if p.hasNul then .error .nulInName else t.walk through mostLinks [] p.parts

end Tree

end FlightBlocks
