import FlightBlocks.Preview.Session
/-!
The calls of a simulator's user, one after another.
-/

namespace FlightBlocks.Session

inductive Call where
  | start (kinds : List String)
  | run (kinds : List String)
  | advance (ms : Nat)
  | cancel
  | detach
  | finish
  deriving DecidableEq, Repr

/-- The simulator after a call; one that is refused changes nothing. -/
def handle (s : Session) : Call → Session
  | .start kinds => (s.start kinds).toOption.getD s
  | .run kinds => ((s.run kinds).map (·.2)).toOption.getD s
  | .advance ms => s.advance ms
  | .cancel => s.cancel
  | .detach => s.detach
  | .finish => s.finish.2

def after (s : Session) (calls : List Call) : Session := calls.foldl handle s

end FlightBlocks.Session
