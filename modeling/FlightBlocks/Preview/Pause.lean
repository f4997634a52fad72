/-!
The pause between two frames of a run. The run sleeps, and listens at the same time for a request
to stop. The channel of the requests starts at the handle of the run: when the handle is gone nobody
can ask any more, and the run only sleeps.
-/

namespace FlightBlocks

structure Channel where
  asked : Bool
  /-- There is something on it that the run has not looked at. -/
  unseen : Bool
  held : Bool
  deriving DecidableEq, Repr

namespace Channel

def fresh : Channel := ⟨false, false, true⟩

def ask (c : Channel) : Channel := if c.held then ⟨true, true, true⟩ else c

def drop (c : Channel) : Channel := { c with held := false }

def look (c : Channel) : Channel := { c with unseen := false }

def stirs (c : Channel) : Bool := c.unseen || !c.held

end Channel

inductive Pause where
  | listening (time : Nat)
  | sleeping (time : Nat)
  | past (stopped : Bool)
  deriving DecidableEq, Repr

namespace Pause

/-- A request that came before the pause ends it at once, and so does no time to sleep. -/
def enter (now duration : Nat) (c : Channel) : Pause × Channel :=
  if c.asked then (past true, c.look)
  else if duration = 0 then (past false, c.look)
  else (listening (now + duration), c.look)

/-- One turn of a run that is woken at `now`. If the time has come and the channel stirs too, the
one or the other is taken up. -/
def turn (timeFirst : Bool) (now : Nat) : Pause → Channel → Pause × Channel
  | listening time, c =>
    if time ≤ now ∧ (timeFirst = true ∨ c.stirs = false) then (past c.asked, c)
    else if c.unseen then
      if c.asked then (past true, c.look) else (listening time, c.look)
    else if c.held then (listening time, c)
    else (sleeping time, c)
  | sleeping time, c => if time ≤ now then (past false, c) else (sleeping time, c)
  | past stopped, c => (past stopped, c)

def turns (ts : List (Bool × Nat)) (s : Pause × Channel) : Pause × Channel :=
  ts.foldl (fun s t => turn t.1 t.2 s.1 s.2) s

def stopped? : Pause → Option Bool
  | past stopped => some stopped
  | _ => none

end Pause

end FlightBlocks
