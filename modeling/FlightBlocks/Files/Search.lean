import FlightBlocks.Files.Access
import Mathlib.Logic.Function.Iterate
/-!
The search for what exists of a path, turn by turn. It is a loop without a bound of its own, and a
call that follows a link calls the search once more for the directory of the link.
-/

namespace FlightBlocks

/-- One call of the search: the path it was asked for, what is left of it, the names that were taken
off behind that, and how many links it followed. -/
structure Search where
  asked : Place
  place : Place
  rest : Place
  followed : Nat
  deriving DecidableEq, Repr

namespace Search

inductive Outcome where
  | found (place : Place)
  | failed (fault : FileFault)
  | unresolved (asked : Place)
  deriving DecidableEq, Repr

def Outcome.result : Outcome → Except FileFault Place
  | found place => .ok place
  | failed fault => .error fault
  | unresolved asked => .ok asked

def Outcome.ofResult : Except FileFault Place → Outcome
  | .ok place => found place
  | .error fault => failed fault

/-- A call that waits for the directory of a link keeps the target of the link. -/
inductive State where
  | working (call : Search) (waiting : List (Search × String))
  | ended (outcome : Outcome)
  deriving DecidableEq, Repr

def State.nested : State → Bool
  | working _ (_ :: _) => true
  | _ => false

def fresh (asked : Place) : Search := ⟨asked, asked, [], 0⟩

/-- A call returns. The one that waits for it goes on from where its link leads, and has a fault for
its own. -/
def deliver (outcome : Outcome) : List (Search × String) → State
  | [] => .ended outcome
  | (outer, target) :: waiting =>
    match outcome.result with
    | .ok directory =>
      .working { outer with place := directory.follow (.ofText target) } waiting
    | .error _ => .ended outcome

def pop? (place : Place) : Option Place := if place.isEmpty then none else some place.parent

def step (t : Tree) : State → State
  | .ended outcome => .ended outcome
  | .working call waiting =>
    match t.realpath call.place.path with
    | .ok found => deliver (.found (found ++ call.rest)) waiting
    | .error .notFound =>
      match t.linkTarget? call.place.path with
      | some target =>
        let outer := { call with followed := call.followed + 1 }
        if outer.followed > mostLinks then deliver (.failed .endlessLinks) waiting
        else .working (fresh call.place.parent) ((outer, target) :: waiting)
      | none =>
        match call.place.getLast? with
        | none => deliver (.unresolved call.asked) waiting
        | some n =>
          match pop? call.place with
          | none => deliver (.unresolved call.asked) waiting
          | some above => .working { call with place := above, rest := n :: call.rest } waiting
    | .error fault => deliver (.failed fault) waiting

def run (t : Tree) (place : Place) (n : Nat) : State :=
  (step t)^[n] (.working (fresh place) [])

end Search

end FlightBlocks
