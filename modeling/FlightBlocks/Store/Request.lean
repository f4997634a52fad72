import FlightBlocks.Store.Store
/-!
Requests to the stores of one disk, one after another. What is done to the files behind their backs
stands among them.
-/

namespace FlightBlocks

inductive Request where
  | resolve (box : Sandbox) (requested : String)
  | read (box : Sandbox) (requested : String)
  | write (box : Sandbox) (time : Int64) (requested content : String)
  | change (tree : Tree)

inductive Reply where
  | resolved (place : Except StoreFailure Place)
  | read (outcome : Except StoreFailure ReadOutcome)
  | wrote (outcome : Except StoreFailure WriteOutcome)
  | changed

namespace Disk

/-- What a store answers, and the disk after it; only a write changes the history. -/
def ask (disk : Disk) : Request → Reply × Disk
  | .resolve box requested => (.resolved (box.resolve disk.tree requested), disk)
  | .read box requested => (.read (box.read disk.tree requested), disk)
  | .write box time requested content =>
    let (outcome, disk) := box.write time disk requested content
    (.wrote outcome, disk)
  | .change tree => (.changed, { disk with tree := tree })

def after (disk : Disk) : List Request → Disk
  | [] => disk
  | request :: later => (disk.ask request).2.after later

end Disk

end FlightBlocks
