import FlightBlocks.Digest.Sha256
import FlightBlocks.Store.Failure
import FlightBlocks.Text.Hex
/-!
The writes made so far. Each record holds the hash of the one before it and a hash of its own, so
a later change to any of them shows.
-/

namespace FlightBlocks

/-- One write. The time is in microseconds. -/
structure Record where
  sequence : UInt64
  time : Int64
  path : String
  bytes : UInt64
  contentHash : String
  previous : List UInt8
  hash : List UInt8
  deriving DecidableEq, Repr

def littleEndian (w : UInt64) : List UInt8 :=
  (List.range 8).map fun i => (w >>> UInt64.ofNat (8 * i)).toUInt8

namespace Record

/-- The bytes that the hash of a record is made from. -/
def preimage (r : Record) : List UInt8 :=
  littleEndian r.sequence ++ littleEndian r.time.toUInt64 ++ r.path.toUTF8.toList ++
    [0] ++ littleEndian r.bytes ++ r.contentHash.toUTF8.toList ++ [0] ++ r.previous

def sealHash (r : Record) : List UInt8 := Sha256.digest r.preimage

end Record

abbrev History := List Record

namespace History

def genesis : List UInt8 := List.replicate 32 0

def lastHash (history : History) : List UInt8 :=
  match history.getLast? with
  | none => genesis
  | some r => r.hash

def next (history : History) (time : Int64) (path content : String) : Record :=
  let unsealed : Record :=
    ⟨history.length.toUInt64, time, path, content.utf8ByteSize.toUInt64,
      Text.hex (Sha256.digest content.toUTF8.toList), history.lastHash, []⟩
  { unsealed with hash := unsealed.sealHash }

def append (history : History) (time : Int64) (path content : String) : History :=
  history ++ [history.next time path content]

def verifyFrom (previous : List UInt8) : History → Except StoreFailure Unit
  | [] => .ok ()
  | r :: rest =>
    if r.previous = previous ∧ r.hash = r.sealHash then verifyFrom r.hash rest
    else .error (.tampered r.sequence.toNat)

def verify (history : History) : Except StoreFailure Unit := verifyFrom genesis history

end History

end FlightBlocks
