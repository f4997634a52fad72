import FlightBlocks.Proofs.Files.Settle
import FlightBlocks.Proofs.Store.Write
import FlightBlocks.Store.Request
/-!
The history of a disk is that of the writes that succeeded on it, whichever stores they were asked
of and whatever came between them. A request adds the record of a write or nothing; every record
goes on from the hash of the one before it, so the check of a history finds nothing wrong.
-/

namespace FlightBlocks

structure Written where
  time : Int64
  content : String
  outcome : WriteOutcome

structure Record.Tells (r : Record) (i : Nat) (w : Written) : Prop where
  sequence : r.sequence = i.toUInt64
  time : r.time = w.time
  path : r.path = w.outcome.path
  bytes : r.bytes = w.outcome.bytes.toUInt64
  counted : w.outcome.bytes = w.content.utf8ByteSize
  content : r.contentHash = Text.hex (Sha256.digest w.content.toUTF8.toList)

namespace History

variable {history : History} {writes : List Written} {previous : List UInt8}

structure Tells (history : History) (writes : List Written) : Prop where
  length : history.length = writes.length
  records : ∀ (i : Nat) (r : Record) (w : Written), history[i]? = some r → writes[i]? = some w →
    r.Tells i w

/-- Each record holds its own hash and that of the record before it; `previous` is before the
first. -/
structure Chained (previous : List UInt8) (history : History) : Prop where
  first : ∀ r, history[0]? = some r → r.previous = previous
  linked : ∀ (i : Nat) (r r' : Record), history[i]? = some r → history[i + 1]? = some r' →
    r'.previous = r.hash
  hashed : ∀ r ∈ history, r.hash = r.sealHash

theorem chained_nil (previous : List UInt8) : Chained previous [] :=
  ⟨by simp, by simp, by simp⟩

theorem chained_cons_iff {r : Record} : Chained previous (r :: history) ↔
    (r.previous = previous ∧ r.hash = r.sealHash) ∧ Chained r.hash history := by
  constructor
  · intro chained
    refine ⟨⟨chained.first r rfl, chained.hashed r List.mem_cons_self⟩, ?_, ?_, ?_⟩
    · exact fun r' next => chained.linked 0 r r' rfl next
    · exact fun i => chained.linked (i + 1)
    · exact fun r' member => chained.hashed r' (List.mem_cons_of_mem _ member)
  · rintro ⟨⟨first, hashed⟩, later⟩
    refine ⟨?_, ?_, ?_⟩
    · rintro _ ⟨⟩
      exact first
    · intro i r₁ r₂ found next
      cases i with
      | zero =>
        cases found
        exact later.first r₂ next
      | succ i => exact later.linked i r₁ r₂ found next
    · exact List.forall_mem_cons.2 ⟨hashed, later.hashed⟩

theorem verifyFrom_eq_ok_iff : verifyFrom previous history = .ok () ↔ Chained previous history := by
  induction history generalizing previous with
  | nil => exact ⟨fun _ => chained_nil previous, fun _ => rfl⟩
  | cons r history ih =>
    rw [chained_cons_iff, ← ih, verifyFrom]
    split
    next intact => simp [intact]
    next broken => simp [broken]

theorem chained_concat {r : Record} (chained : Chained previous history)
    (links : r.previous = (history.getLast?.map Record.hash).getD previous)
    (hashed : r.hash = r.sealHash) : Chained previous (history ++ [r]) := by
  induction history generalizing previous with
  | nil => exact chained_cons_iff.2 ⟨⟨links, hashed⟩, chained_nil _⟩
  | cons first history ih =>
    obtain ⟨here, later⟩ := chained_cons_iff.1 chained
    refine chained_cons_iff.2 ⟨here, ih later ?_⟩
    rw [links, List.getLast?_cons]
    cases history.getLast? <;> rfl

theorem lastHash_eq (history : History) :
    history.lastHash = (history.getLast?.map Record.hash).getD genesis := by
  unfold lastHash
  cases history.getLast? <;> rfl

theorem Chained.append (chained : Chained genesis history) (time : Int64)
    (path content : String) : Chained genesis (history.append time path content) :=
  chained_concat chained (lastHash_eq history) rfl

theorem tells_next (history : History) {w : Written}
    (counted : w.outcome.bytes = w.content.utf8ByteSize) :
    (history.next w.time w.outcome.path w.content).Tells history.length w where
  sequence := rfl
  time := rfl
  path := rfl
  bytes := congrArg Nat.toUInt64 counted.symm
  counted := counted
  content := rfl

theorem Tells.append (tells : history.Tells writes) {w : Written}
    (counted : w.outcome.bytes = w.content.utf8ByteSize) :
    (history.append w.time w.outcome.path w.content).Tells (writes ++ [w]) := by
  refine ⟨by simp [History.append, tells.length], fun i r w' found written => ?_⟩
  rw [History.append] at found
  rcases Nat.lt_trichotomy i history.length with old | rfl | beyond
  · rw [List.getElem?_append_left old] at found
    rw [List.getElem?_append_left (tells.length ▸ old)] at written
    exact tells.records i r w' found written
  · rw [List.getElem?_concat_length] at found
    rw [tells.length, List.getElem?_concat_length] at written
    cases found
    cases written
    exact tells_next history counted
  · rw [List.getElem?_eq_none (by simp; omega)] at found
    cases found

end History

namespace Disk

def written? : Request → Reply → Option Written
  | .write _ time _ content, .wrote (.ok outcome) => some ⟨time, content, outcome⟩
  | _, _ => none

def writes (disk : Disk) : List Request → List Written
  | [] => []
  | request :: later =>
    (written? request (disk.ask request).1).toList ++ (disk.ask request).2.writes later

variable {disk : Disk}

theorem history_ask (disk : Disk) (request : Request) :
    written? request (disk.ask request).1 = none ∧
        (disk.ask request).2.history = disk.history ∨
      ∃ w, written? request (disk.ask request).1 = some w ∧
        w.outcome.bytes = w.content.utf8ByteSize ∧
        (disk.ask request).2.history =
          disk.history.append w.time w.outcome.path w.content := by
  cases request with
  | resolve box requested => exact .inl ⟨rfl, rfl⟩
  | read box requested => exact .inl ⟨rfl, rfl⟩
  | change tree => exact .inl ⟨rfl, rfl⟩
  | write box time requested content =>
    have wrote := box.write_wrote time disk requested content
    simp only [ask]
    generalize box.write time disk requested content = result at wrote
    cases wrote with
    | empty => exact .inl ⟨rfl, rfl⟩
    | refused => exact .inl ⟨rfl, rfl⟩
    | unreached => exact .inl ⟨rfl, rfl⟩
    | unwritten => exact .inl ⟨rfl, rfl⟩
    | written => exact .inr ⟨_, rfl, rfl, rfl⟩

theorem history_of_unwritten {request : Request}
    (unwritten : written? request (disk.ask request).1 = none) :
    (disk.ask request).2.history = disk.history := by
  rcases history_ask disk request with ⟨-, same⟩ | ⟨w, written, -⟩
  · exact same
  · cases unwritten.symm.trans written

theorem history_prefix_ask (disk : Disk) (request : Request) :
    disk.history <+: (disk.ask request).2.history := by
  rcases history_ask disk request with ⟨-, same⟩ | ⟨w, -, -, appended⟩
  · exact same ▸ List.prefix_rfl
  · exact appended ▸ List.prefix_append _ _

theorem history_prefix (disk : Disk) (requests : List Request) :
    disk.history <+: (disk.after requests).history := by
  induction requests generalizing disk with
  | nil => exact List.prefix_rfl
  | cons request later ih => exact (history_prefix_ask disk request).trans (ih _)

theorem tells_ask {earlier : List Written} (tells : disk.history.Tells earlier)
    (chained : History.Chained History.genesis disk.history) (request : Request) :
    (disk.ask request).2.history.Tells
        (earlier ++ (written? request (disk.ask request).1).toList) ∧
      History.Chained History.genesis (disk.ask request).2.history := by
  rcases history_ask disk request with ⟨unwritten, same⟩ | ⟨w, written, counted, appended⟩
  · rw [unwritten, same, Option.toList_none, List.append_nil]
    exact ⟨tells, chained⟩
  · rw [written, appended]
    exact ⟨tells.append counted, chained.append _ _ _⟩

theorem tells_after {earlier : List Written} (tells : disk.history.Tells earlier)
    (chained : History.Chained History.genesis disk.history) (requests : List Request) :
    (disk.after requests).history.Tells (earlier ++ disk.writes requests) ∧
      History.Chained History.genesis (disk.after requests).history := by
  induction requests generalizing disk earlier with
  | nil => exact ⟨(List.append_nil earlier).symm ▸ tells, chained⟩
  | cons request later ih =>
    obtain ⟨told, linked⟩ := tells_ask tells chained request
    rw [writes, ← List.append_assoc]
    exact ih told linked

/-- On a disk with no history yet, the history after any requests is that of the writes among them
that succeeded; nothing else adds to it, and what stands in it stays as it is. -/
theorem history_tells_writes (tree : Tree) (requests : List Request) :
    let start : Disk := ⟨tree, []⟩
    let disk := start.after requests
    disk.history.Tells (start.writes requests) ∧
      History.Chained History.genesis disk.history ∧
      disk.history.verify = .ok () ∧
      (∀ later, disk.history <+: (disk.after later).history) ∧
      ∀ request, written? request (disk.ask request).1 = none →
        (disk.ask request).2.history = disk.history := by
  intro start disk
  have none : start.history.Tells [] := ⟨rfl, by simp [start]⟩
  obtain ⟨tells, chained⟩ := tells_after none (History.chained_nil _) requests
  exact ⟨tells, chained, History.verifyFrom_eq_ok_iff.2 chained, history_prefix disk,
    fun _ => history_of_unwritten⟩

def sharedTree : Tree :=
  [(["a"], .directory), (["a", "h"], .file "".toUTF8), (["b"], .directory),
    (["b", "h"], .file "".toUTF8)]

def across : Request := .write ⟨["b"]⟩ 2 "../a/h" "y"

theorem ask_across (disk : Disk) :
    disk.ask across = (.wrote (.error (.outside "../a/h" "/b")), disk) := rfl

theorem ask_header {t : Tree} {history : History} {name content : String} (time : Int64)
    (nonempty : content ≠ "") (leads : Place.follow [name] (.ofText "h") = [name, "h"])
    (base : t.realpath (Place.path [name]) = .ok [name])
    (header : t.realpath (Place.path [name, "h"]) = .ok [name, "h"])
    (directory : t.isDirectory [name] = true)
    (reached : ∀ through, t.reach through (Place.path [name]) = .ok (.entry [name]))
    (written : t.write (Place.path [name, "h"]) content.toUTF8 =
      .ok (t.put [name, "h"] (.file content.toUTF8))) :
    ask ⟨t, history⟩ (.write ⟨[name]⟩ time "h" content) =
      (.wrote (.ok ⟨Place.text [name, "h"], Place.text [name], content.utf8ByteSize⟩),
        ⟨t.put [name, "h"] (.file content.toUTF8),
          history.append time (Place.text [name, "h"]) content⟩) := by
  have resolved : Sandbox.resolve ⟨[name]⟩ t "h" = .ok [name, "h"] := by
    rw [Sandbox.resolve_eq_ok_iff, leads]
    exact ⟨by decide +kernel, by simp [Place.within], _, Tree.settle_found base,
      Tree.settle_found header, by simp [Place.within]⟩
  rw [ask, Sandbox.write_of_resolved nonempty resolved
    (Tree.makeDirectories_of_directory directory reached) written]

theorem history_tells_twoStores :
    let start : Disk := ⟨sharedTree, []⟩
    let disk :=
      start.after [.write ⟨["a"]⟩ 1 "h" "x", across, .write ⟨["b"]⟩ 3 "h" "zz"]
    disk.history.Tells [⟨1, "x", "/a/h", "/a", 1⟩, ⟨3, "zz", "/b/h", "/b", 2⟩] ∧
      History.Chained History.genesis disk.history ∧ disk.history.verify = .ok () ∧
      written? across (disk.ask across).1 = none ∧
      (disk.ask across).2.history = disk.history := by
  intro start disk
  obtain ⟨tells, chained, intact, -, kept⟩ := history_tells_writes sharedTree
    [.write ⟨["a"]⟩ 1 "h" "x", across, .write ⟨["b"]⟩ 3 "h" "zz"]
  have toA : start.ask (.write ⟨["a"]⟩ 1 "h" "x") =
      (_, ⟨sharedTree.put ["a", "h"] (.file "x".toUTF8), History.append [] 1 "/a/h" "x"⟩) :=
    ask_header 1 (by decide) rfl rfl rfl rfl (fun through => by cases through <;> rfl) rfl
  have toB : ask ⟨sharedTree.put ["a", "h"] (.file "x".toUTF8), History.append [] 1 "/a/h" "x"⟩
      (.write ⟨["b"]⟩ 3 "h" "zz") = (_, _) :=
    ask_header 3 (by decide) rfl rfl rfl rfl (fun through => by cases through <;> rfl) rfl
  have written : start.writes [.write ⟨["a"]⟩ 1 "h" "x", across, .write ⟨["b"]⟩ 3 "h" "zz"] =
      [⟨1, "x", "/a/h", "/a", 1⟩, ⟨3, "zz", "/b/h", "/b", 2⟩] := by
    rw [writes, toA, writes, ask_across, writes, toB]
    rfl
  exact ⟨written ▸ tells, chained, intact, rfl, kept across rfl⟩

end Disk

end FlightBlocks
