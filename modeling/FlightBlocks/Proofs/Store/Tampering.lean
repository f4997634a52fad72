import FlightBlocks.Proofs.Store.History
import FlightBlocks.Proofs.Text.Framing
import Mathlib.Data.List.Nodup
/-!
The last hash of a history stands for all of it. The bytes that a hash is made from tell the members
of a record apart, one of them the hash of the record before; so two histories that are intact and
end with the same hash are the same, and whatever is changed before the end shows.
-/

namespace FlightBlocks

theorem Sha256.length_digest (message : List UInt8) : (digest message).length = 32 := rfl

theorem testBit_byte (w : UInt64) {i k : Nat} (inside : i < 8) (bit : k < 8) :
    (w >>> UInt64.ofNat (8 * i)).toUInt8.toNat.testBit k = w.toNat.testBit (8 * i + k) := by
  have shift : (UInt64.ofNat (8 * i)).toNat % 64 = 8 * i := by
    rw [UInt64.toNat_ofNat']
    omega
  rw [UInt64.toNat_toUInt8, UInt64.toNat_shiftRight, shift, Nat.testBit_mod_two_pow,
    Nat.testBit_shiftRight]
  simp [bit]

theorem littleEndian_injective : Function.Injective littleEndian := by
  intro v w same
  apply UInt64.toNat_inj.1
  apply Nat.eq_of_testBit_eq
  intro j
  by_cases inside : j < 64
  · have bit : j % 8 < 8 := Nat.mod_lt j (by decide)
    -- bit `j` of a word is bit `j % 8` of its byte `j / 8`
    have byte := List.map_inj_left.1 same (j / 8) (List.mem_range.2 (by omega))
    rw [← Nat.div_add_mod j 8, ← testBit_byte v (by omega) bit, ← testBit_byte w (by omega) bit,
      byte]
  · have beyond (u : UInt64) : u.toNat.testBit j = false := by
      apply Nat.testBit_lt_two_pow
      exact Nat.lt_of_lt_of_le u.toNat_lt (Nat.pow_le_pow_right (by decide) (Nat.not_lt.1 inside))
    rw [beyond, beyond]

theorem Record.eq_of_preimage {r s : Record} (clean : '\x00' ∉ r.path.toList)
    (clean' : '\x00' ∉ s.path.toList) (width : r.previous.length = s.previous.length)
    (hash : r.hash = s.hash) (same : r.preimage = s.preimage) : r = s := by
  -- the numbers and the path are found from the left, the hash before it from the right
  simp only [preimage, List.append_assoc, List.cons_append, List.nil_append] at same
  obtain ⟨sequence, same⟩ := List.append_inj same rfl
  obtain ⟨time, same⟩ := List.append_inj same rfl
  obtain ⟨path, same⟩ := Text.toUTF8_append_inj clean clean' same
  obtain ⟨bytes, same⟩ := List.append_inj same rfl
  obtain ⟨content, same⟩ := List.append_inj' same (by simp [width])
  have sequence := littleEndian_injective sequence
  have time : r.time = s.time := congrArg UInt64.toInt64 (littleEndian_injective time)
  have bytes := littleEndian_injective bytes
  have content := Text.toList_toUTF8_injective content
  have previous := (List.cons.inj same).2
  cases r
  cases s
  simp only at sequence time path bytes content previous hash
  rw [sequence, time, path, bytes, content, previous, hash]

namespace History

variable {history : History} {records : List Record} {previous : List UInt8} {r : Record}

/-- What the check relies on: of the records no two have one hash for different bytes, none has the
hash that is before the first, and no path has a NUL in it. -/
structure ToldApart (records : List Record) : Prop where
  collisionless : ∀ r ∈ records, ∀ s ∈ records, r.sealHash = s.sealHash → r.preimage = s.preimage
  later : ∀ r ∈ records, r.sealHash ≠ genesis
  clean : ∀ r ∈ records, '\x00' ∉ r.path.toList

theorem ToldApart.mono (apart : ToldApart records) {fewer : List Record} (among : fewer ⊆ records) :
    ToldApart fewer where
  collisionless r member s member' := apart.collisionless r (among member) s (among member')
  later r member := apart.later r (among member)
  clean r member := apart.clean r (among member)

def Fails (history : History) : Prop := ∃ sequence, history.verify = .error (.tampered sequence)

theorem verifyFrom_cases (previous : List UInt8) (history : History) :
    verifyFrom previous history = .ok () ∨
      ∃ sequence, verifyFrom previous history = .error (.tampered sequence) := by
  induction history generalizing previous with
  | nil => exact .inl rfl
  | cons r history ih =>
    rw [verifyFrom]
    split
    · exact ih r.hash
    · exact .inr ⟨_, rfl⟩

theorem fails_of_not_chained (broken : ¬ Chained genesis history) : history.Fails := by
  rcases verifyFrom_cases genesis history with intact | fails
  · exact absurd (verifyFrom_eq_ok_iff.1 intact) broken
  · exact fails

def endFrom (previous : List UInt8) (history : History) : List UInt8 :=
  (history.getLast?.map Record.hash).getD previous

theorem endFrom_cons (previous : List UInt8) (r : Record) (history : History) :
    endFrom previous (r :: history) = endFrom r.hash history := by
  rw [endFrom, endFrom, List.getLast?_cons]
  cases history.getLast? <;> rfl

theorem verifyFrom_append {later : History} (intact : verifyFrom previous history = .ok ()) :
    verifyFrom previous (history ++ later) = verifyFrom (endFrom previous history) later := by
  induction history generalizing previous with
  | nil => rfl
  | cons r history ih =>
    rw [verifyFrom] at intact
    split at intact
    next fits =>
      rw [List.cons_append, verifyFrom, if_pos fits, ih intact, endFrom_cons]
    next => cases intact

theorem Chained.front {later : History} (chained : Chained previous (history ++ later)) :
    Chained previous history := by
  induction history generalizing previous with
  | nil => exact chained_nil previous
  | cons r history ih =>
    obtain ⟨fits, chained⟩ := chained_cons_iff.1 chained
    exact chained_cons_iff.2 ⟨fits, ih chained⟩

theorem chained_append_iff {later : History} : Chained previous (history ++ later) ↔
    Chained previous history ∧ Chained (endFrom previous history) later := by
  constructor
  · intro chained
    refine ⟨chained.front, ?_⟩
    rw [← verifyFrom_eq_ok_iff, ← verifyFrom_append (verifyFrom_eq_ok_iff.2 chained.front)]
    exact verifyFrom_eq_ok_iff.2 chained
  · rintro ⟨front, back⟩
    rw [← verifyFrom_eq_ok_iff, verifyFrom_append (verifyFrom_eq_ok_iff.2 front)]
    exact verifyFrom_eq_ok_iff.2 back

theorem Chained.last (chained : Chained genesis (history ++ [r])) :
    Chained genesis history ∧ r.previous = history.lastHash ∧ r.hash = r.sealHash := by
  obtain ⟨front, back⟩ := chained_append_iff.1 chained
  rw [lastHash_eq]
  exact ⟨front, (chained_cons_iff.1 back).1⟩

theorem lastHash_concat (history : History) (r : Record) : lastHash (history ++ [r]) = r.hash := by
  rw [lastHash, List.getLast?_concat]

theorem Chained.length_lastHash (chained : Chained genesis history) :
    history.lastHash.length = 32 := by
  rcases List.eq_nil_or_concat history with rfl | ⟨front, r, rfl⟩
  · rfl
  · rw [List.concat_eq_append] at chained ⊢
    rw [lastHash_concat, chained.last.2.2]
    exact Sha256.length_digest _

theorem Chained.lastHash_ne (chained : Chained genesis (history ++ [r]))
    (later : r.sealHash ≠ genesis) : lastHash (history ++ [r]) ≠ genesis := by
  rw [lastHash_concat, chained.last.2.2]
  exact later

theorem Chained.eq_of_lastHash {history other : History} (chained : Chained genesis history)
    (chained' : Chained genesis other) (apart : ToldApart (history ++ other))
    (ends : history.lastHash = other.lastHash) : history = other := by
  -- from both ends: one hash makes the last records one, and these hold the hash before them
  induction history using List.reverseRecOn generalizing other with
  | nil =>
    rcases List.eq_nil_or_concat other with rfl | ⟨front, s, rfl⟩
    · rfl
    · rw [List.concat_eq_append] at chained' ends
      exact absurd ends.symm (chained'.lastHash_ne (apart.later s (by simp)))
  | append_singleton front r ih =>
    rcases List.eq_nil_or_concat other with rfl | ⟨front', s, rfl⟩
    · exact absurd ends (chained.lastHash_ne (apart.later r (by simp)))
    · rw [List.concat_eq_append] at *
      obtain ⟨before, links, hashed⟩ := chained.last
      obtain ⟨before', links', hashed'⟩ := chained'.last
      rw [lastHash_concat, lastHash_concat] at ends
      have bytes : r.preimage = s.preimage := by
        apply apart.collisionless r (by simp) s (by simp)
        rw [← hashed, ← hashed', ends]
      have width : r.previous.length = s.previous.length := by
        rw [links, links', before.length_lastHash, before'.length_lastHash]
      have same : r = s := Record.eq_of_preimage (apart.clean r (by simp)) (apart.clean s (by simp))
        width ends bytes
      have fronts : front = front' := by
        apply ih before before' (apart.mono _)
        · rw [← links, ← links', same]
        · intro q member
          grind
      rw [fronts, same]

theorem Chained.fails {other : History} (chained : Chained genesis history)
    (apart : ToldApart (history ++ other)) (ends : other.lastHash = history.lastHash)
    (changed : other ≠ history) : other.Fails := by
  apply fails_of_not_chained
  intro chained'
  exact changed (chained.eq_of_lastHash chained' apart ends.symm).symm

theorem lastHash_append {later : History} (nonempty : later ≠ []) (history : History) :
    lastHash (history ++ later) = later.lastHash := by
  rw [lastHash, List.getLast?_append_of_ne_nil _ nonempty, lastHash]

theorem Chained.ne_of_append {front between back : History} {s : Record}
    (chained : Chained genesis (front ++ r :: between ++ s :: back))
    (apart : ToldApart (front ++ r :: between ++ s :: back)) : r ≠ s := by
  rintro rfl
  have first : front ++ r :: between ++ r :: back = front ++ [r] ++ (between ++ r :: back) := by
    simp
  have second : front ++ r :: between ++ r :: back = front ++ r :: between ++ [r] ++ back := by
    simp
  have upto := (first ▸ chained).front
  have upto' := (second ▸ chained).front
  have same : front ++ [r] = front ++ r :: between ++ [r] := by
    apply upto.eq_of_lastHash upto' (apart.mono _)
    · rw [lastHash_concat, lastHash_concat]
    · intro q member
      grind
  exact absurd (congrArg List.length same) (by simp)

theorem Chained.verify_changed {front back : History} {r' : Record}
    (chained : Chained genesis (front ++ r :: back)) (apart : ToldApart [r, r'])
    (hash : r'.hash = r.hash) (changed : r' ≠ r) (rest : History) :
    verify (front ++ r' :: rest) = .error (.tampered r'.sequence.toNat) := by
  obtain ⟨before, after⟩ := chained_append_iff.1 chained
  obtain ⟨⟨links, hashed⟩, -⟩ := chained_cons_iff.1 after
  rw [verify, verifyFrom_append (verifyFrom_eq_ok_iff.2 before), verifyFrom, if_neg]
  rintro ⟨links', hashed'⟩
  apply changed
  apply Record.eq_of_preimage (apart.clean r' (by simp)) (apart.clean r (by simp))
  · rw [links, links']
  · exact hash
  · apply apart.collisionless r' (by simp) r (by simp)
    rw [← hashed, ← hashed', hash]

/-- An intact history is the only one that is intact and has its last hash. A record changed under
its hash is the one at which the check stops. Records taken out before the last one, put in before
it or exchanged before it make the check fail. -/
theorem tampering_shows (history : History) (intact : history.verify = .ok ()) :
    (∀ other : History, ToldApart (history ++ other) → other.verify = .ok () →
      other.lastHash = history.lastHash → other = history) ∧
    (∀ front r back r', history = front ++ r :: back → ToldApart [r, r'] → r'.hash = r.hash →
      r' ≠ r → front.verify = .ok () ∧
        ∀ rest, verify (front ++ r' :: rest) = .error (.tampered r'.sequence.toNat)) ∧
    (∀ front out back, history = front ++ out ++ back → ToldApart history → out ≠ [] →
      back ≠ [] → Fails (front ++ back)) ∧
    (∀ front new back, history = front ++ back → ToldApart (history ++ new) → new ≠ [] →
      back ≠ [] → Fails (front ++ new ++ back)) ∧
    (∀ front r between s back, history = front ++ r :: between ++ s :: back → ToldApart history →
      back ≠ [] → Fails (front ++ s :: between ++ r :: back)) := by
  have chained := verifyFrom_eq_ok_iff.1 intact
  refine ⟨?_, ?_, ?_, ?_, ?_⟩
  · intro other apart intact' ends
    exact (chained.eq_of_lastHash (verifyFrom_eq_ok_iff.1 intact') apart ends.symm).symm
  · rintro front r back r' rfl apart hash changed
    exact ⟨verifyFrom_eq_ok_iff.2 chained.front, chained.verify_changed apart hash changed⟩
  · rintro front out back rfl apart some behind
    apply chained.fails (apart.mono _)
    · rw [lastHash_append behind, lastHash_append behind]
    · simpa using some
    · intro q member
      grind
  · rintro front new back rfl apart some behind
    apply chained.fails (apart.mono _)
    · rw [lastHash_append behind, lastHash_append behind]
    · simpa using some
    · intro q member
      grind
  · rintro front r between s back rfl apart behind
    have ends (a b : Record) : lastHash (front ++ a :: between ++ b :: back) = lastHash back := by
      rw [lastHash_append (by simp), ← List.singleton_append, lastHash_append behind]
    have other := chained.ne_of_append apart
    apply chained.fails (apart.mono _)
    · rw [ends, ends]
    · simp [other.symm]
    · intro q member
      grind

def firstKept : Record := ⟨0, 1, "/fw/a", 1, "2d71", genesis,
  [11, 9, 13, 192, 252, 199, 6, 126, 97, 187, 80, 128, 90, 5, 207, 105, 15, 89, 139, 216, 237,
   120, 27, 48, 134, 227, 4, 17, 46, 46, 174, 76]⟩

def secondKept : Record := ⟨1, 2, "/fw/b", 1, "a1fc", firstKept.hash,
  [177, 45, 195, 90, 24, 40, 96, 6, 222, 165, 135, 0, 110, 70, 57, 136, 52, 182, 241, 218, 250,
   120, 34, 100, 124, 190, 66, 124, 186, 85, 79, 81]⟩

def thirdKept : Record := ⟨2, 3, "/fw/a", 1, "594e", secondKept.hash,
  [119, 107, 236, 180, 144, 86, 166, 5, 240, 143, 73, 135, 130, 100, 4, 105, 184, 19, 113, 92, 71,
   79, 24, 232, 229, 233, 189, 67, 198, 157, 161, 49]⟩

def secondMoved : Record := { secondKept with path := "/etc/passwd" }

theorem sealHash_kept : [firstKept, secondKept, thirdKept].map Record.sealHash =
    [firstKept.hash, secondKept.hash, thirdKept.hash] := by
  simp only [List.map, Record.sealHash, Record.preimage, Text.toList_toUTF8]
  decide +kernel

theorem sealHash_secondMoved : secondMoved.sealHash.head? = some 86 := by
  rw [Record.sealHash, Record.preimage, Text.toList_toUTF8, Text.toList_toUTF8]
  decide +kernel

theorem toldApart_of_heads (heads : (records.map fun r => r.sealHash.head?).Nodup)
    (later : some 0 ∉ records.map fun r => r.sealHash.head?)
    (clean : ∀ r ∈ records, '\x00' ∉ r.path.toList) : ToldApart records := by
  refine ⟨?_, ?_, clean⟩
  · intro r member s member' same
    rw [List.inj_on_of_nodup_map heads member member' (congrArg List.head? same)]
  · intro r member same
    exact later (List.mem_map.2 ⟨r, member, congrArg List.head? same⟩)

theorem toldApart_kept : ToldApart [firstKept, secondKept, thirdKept, secondMoved] := by
  have kept := sealHash_kept
  simp only [List.map, List.cons.injEq] at kept
  have heads : [firstKept, secondKept, thirdKept, secondMoved].map (fun r => r.sealHash.head?) =
      [some 11, some 177, some 119, some 86] := by
    simp only [List.map, kept, sealHash_secondMoved]
    rfl
  apply toldApart_of_heads
  · rw [heads]
    decide
  · rw [heads]
    decide
  · decide +kernel

theorem verify_kept : verify [firstKept, secondKept, thirdKept] = .ok () := by
  have kept := sealHash_kept
  simp only [List.map, List.cons.injEq, and_true] at kept
  obtain ⟨first, second, third⟩ := kept
  rw [verify, verifyFrom, if_pos ⟨rfl, first.symm⟩, verifyFrom, if_pos ⟨rfl, second.symm⟩,
    verifyFrom, if_pos ⟨rfl, third.symm⟩, verifyFrom]

theorem tampering_shows_kept : verify [firstKept, secondKept, thirdKept] = .ok () ∧
    ToldApart [firstKept, secondKept, thirdKept, secondMoved] ∧
    lastHash [firstKept, secondKept] ≠ lastHash [firstKept, secondKept, thirdKept] ∧
    verify [firstKept, secondMoved, thirdKept] = .error (.tampered 1) ∧
    Fails [firstKept, thirdKept] ∧ Fails [firstKept, secondMoved, secondKept, thirdKept] ∧
    Fails [secondKept, firstKept, thirdKept] := by
  obtain ⟨same, changed, out, new, swapped⟩ := tampering_shows _ verify_kept
  have whole : ToldApart [firstKept, secondKept, thirdKept] := toldApart_kept.mono (by simp)
  have pair : ToldApart [secondKept, secondMoved] := toldApart_kept.mono (by simp)
  have chained : Chained genesis ([firstKept, secondKept] ++ [thirdKept]) :=
    verifyFrom_eq_ok_iff.1 verify_kept
  have moved : secondMoved ≠ secondKept := by
    intro same
    exact absurd (congrArg Record.path same) (by decide)
  refine ⟨verify_kept, toldApart_kept, ?_, ?_, ?_, ?_, ?_⟩
  · intro ends
    have equal := same [firstKept, secondKept] (whole.mono (by simp))
      (verifyFrom_eq_ok_iff.2 chained.front) ends
    exact absurd (congrArg List.length equal) (by decide)
  · exact (changed [firstKept] secondKept [thirdKept] secondMoved rfl pair rfl moved).2 [thirdKept]
  · exact out [firstKept] [secondKept] [thirdKept] rfl whole (by simp) (by simp)
  · exact new [firstKept] [secondMoved] [secondKept, thirdKept] rfl toldApart_kept (by simp)
      (by simp)
  · exact swapped [] firstKept [] secondKept [thirdKept] rfl whole (by simp)

end History

end FlightBlocks
