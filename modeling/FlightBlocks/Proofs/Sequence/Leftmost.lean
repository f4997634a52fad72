import FlightBlocks.Proofs.Sequence.Header
/-!
Where the first declaration of a text stands, in bytes. Bytes are a declaration when they are one
written out. Such bytes begin and end between characters, no two of them begin at one place and end
at different ones, and the search gives those that begin first.
-/

namespace FlightBlocks.Declaration

def StandsAt (text : String) (start stop : Nat) : Prop :=
  stop ≤ text.utf8ByteSize ∧
    ∃ d : String, Declares d.toList ∧ text.toUTF8.extract start stop = d.toUTF8

section

variable {text before d after : String} {start stop : Nat}

theorem append_ofList {whole front : String} {cs : List Char}
    (split : whole.toList = front.toList ++ cs) : whole = front ++ String.ofList cs := by
  rw [← String.toList_inj]
  simpa using split

theorem exists_between {front back front' back' : String} (same : front ++ back = front' ++ back')
    (earlier : front.utf8ByteSize ≤ front'.utf8ByteSize) :
    ∃ middle, front' = front ++ middle ∧ back = middle ++ back' := by
  have lists : front.toList ++ back.toList = front'.toList ++ back'.toList := by
    simpa using congrArg String.toList same
  rcases List.append_eq_append_iff.1 lists with ⟨middle, whole, rest⟩ | ⟨middle, whole, rest⟩
  · refine ⟨String.ofList middle, append_ofList whole, ?_⟩
    rw [← String.toList_inj]
    simpa using rest
  · -- the cuts are at one place, as the first of them is not behind the second
    have sizes := congrArg String.utf8ByteSize (append_ofList whole)
    rw [String.utf8ByteSize_append] at sizes
    have none : String.ofList middle = "" := String.utf8ByteSize_eq_zero_iff.1 (by omega)
    obtain rfl : middle = [] := by simpa using none
    rw [List.append_nil, String.toList_inj] at whole
    rw [List.nil_append, String.toList_inj] at rest
    exact ⟨"", by simp [whole], by simp [rest]⟩

theorem utf8ByteSize_pos (nonempty : text ≠ "") : 0 < text.utf8ByteSize :=
  Nat.pos_of_ne_zero fun none => nonempty (String.utf8ByteSize_eq_zero_iff.1 none)

theorem Declares.ne_empty (declares : Declares d.toList) : d ≠ "" := by
  rintro rfl
  obtain ⟨_, _, -, -, first⟩ := declares.exists_core
  simp at first

theorem standsAt_of_parts (declares : Declares d.toList) :
    StandsAt (before ++ (d ++ after)) before.utf8ByteSize
      (before.utf8ByteSize + d.utf8ByteSize) := by
  refine ⟨?_, d, declares, extract_middle before d after⟩
  simp only [String.utf8ByteSize_append]
  omega

/-- The bytes of a declaration begin and end between characters: else they were no text. -/
theorem StandsAt.boundaries (stands : StandsAt text start stop) : start < stop ∧
    String.Pos.Raw.IsValid text ⟨start⟩ ∧ String.Pos.Raw.IsValid text ⟨stop⟩ := by
  obtain ⟨within, d, declares, bytes⟩ := stands
  have length : min stop text.utf8ByteSize - start = d.utf8ByteSize :=
    ByteArray.size_extract.symm.trans (congrArg ByteArray.size bytes)
  have some := utf8ByteSize_pos declares.ne_empty
  have order : start < stop := by omega
  have valid : (text.toByteArray.extract start stop).IsValidUTF8 := by
    rw [← String.toUTF8_eq_toByteArray, bytes]
    exact d.isValidUTF8
  have ends := (String.Pos.Raw.isValidUTF8_extract_iff (s := text) ⟨start⟩ ⟨stop⟩
    (Nat.le_of_lt order) within).1 valid
  rcases ends with same | ends
  · cases same
    exact absurd order (Nat.lt_irrefl _)
  · exact ⟨order, ends⟩

theorem StandsAt.exists_parts (stands : StandsAt text start stop) : ∃ before d after : String,
    Declares d.toList ∧ text = before ++ (d ++ after) ∧ start = before.utf8ByteSize ∧
      stop = before.utf8ByteSize + d.utf8ByteSize := by
  obtain ⟨order, validStart, validStop⟩ := stands.boundaries
  obtain ⟨-, d, declares, bytes⟩ := stands
  obtain ⟨before, rest, whole, begins⟩ := String.Pos.Raw.isValid_iff_exists_append.1 validStart
  obtain ⟨upTo, after, whole', ends⟩ := String.Pos.Raw.isValid_iff_exists_append.1 validStop
  obtain rfl : start = before.utf8ByteSize := congrArg String.Pos.Raw.byteIdx begins
  obtain rfl : stop = upTo.utf8ByteSize := congrArg String.Pos.Raw.byteIdx ends
  obtain ⟨middle, rfl, rfl⟩ := exists_between (whole.symm.trans whole') (Nat.le_of_lt order)
  rw [String.utf8ByteSize_append, whole, extract_middle] at bytes
  obtain rfl : middle = d := String.toByteArray_inj.1 bytes
  exact ⟨before, middle, after, declares, whole, rfl, String.utf8ByteSize_append⟩

theorem free_iff_first :
    Free before.toList (d.toList ++ after.toList) ↔
      ∀ start stop, StandsAt (before ++ (d ++ after)) start stop →
        before.utf8ByteSize ≤ start := by
  constructor
  · intro free start stop stands
    obtain ⟨front, d', after', declares, whole, rfl, -⟩ := stands.exists_parts
    refine Nat.le_of_not_lt fun earlier => ?_
    obtain ⟨piece, rfl, rest⟩ := exists_between whole.symm (Nat.le_of_lt earlier)
    have nonempty : piece.toList ≠ [] := by
      intro empty
      rw [String.toList_eq_nil_iff] at empty
      simp [empty] at earlier
    have none := free front.toList piece.toList (by simp) nonempty
    have found := rest?_of_declares declares after'.toList
    rw [← String.toList_append, rest] at found
    simp [none] at found
  · intro first front piece split nonempty
    cases found : rest? (piece ++ (d.toList ++ after.toList)) with
    | none => rfl
    | some rest =>
      obtain ⟨d', declares, same⟩ := declares_of_rest? found
      obtain rfl : before = String.ofList front ++ String.ofList piece := by
        rw [← String.toList_inj]
        simpa using split
      have whole : String.ofList front ++ String.ofList piece ++ (d ++ after) =
          String.ofList front ++ (String.ofList d' ++ String.ofList rest) := by
        rw [← String.toList_inj]
        simpa using same
      have declares : Declares (String.ofList d').toList := by simpa using declares
      have later := first _ _ (whole ▸ standsAt_of_parts declares)
      have some : String.ofList piece ≠ "" := by simpa using nonempty
      have := utf8ByteSize_pos some
      rw [String.utf8ByteSize_append] at later
      omega

end

variable {text : String} {start stop : Nat}

theorem range?_eq_some_iff_first :
    range? text = some (start, stop) ↔ StandsAt text start stop ∧
      ∀ start' stop', StandsAt text start' stop' → start ≤ start' := by
  rw [range?_eq_some_iff]
  constructor
  · rintro ⟨before, d, after, splits, rfl, rfl⟩
    obtain ⟨-, declares, free⟩ := cut?_splits splits.cut
    rw [splits.whole]
    exact ⟨standsAt_of_parts declares, free_iff_first.1 free⟩
  · rintro ⟨stands, first⟩
    obtain ⟨before, d, after, declares, rfl, rfl, rfl⟩ := stands.exists_parts
    refine ⟨before, d, after, ⟨rfl, ?_⟩, rfl, rfl⟩
    simpa using cut?_of_free declares (free_iff_first.2 first)

theorem range?_eq_none_iff_nowhere :
    range? text = none ↔ ∀ start stop, ¬ StandsAt text start stop := by
  constructor
  · intro nowhere start stop stands
    obtain ⟨before, d, after, declares, rfl, -, -⟩ := stands.exists_parts
    have missing : cut? (before.toList ++ (d.toList ++ after.toList)) = none := by
      simpa using range?_eq_none_iff.1 nowhere
    exact cut?_ne_none declares missing
  · intro nowhere
    cases found : range? text with
    | none => rfl
    | some range => exact absurd (range?_eq_some_iff_first.1 found).1 (nowhere _ _)

theorem StandsAt.stop_unique {stop' : Nat} (stands : StandsAt text start stop)
    (stands' : StandsAt text start stop') : stop = stop' := by
  obtain ⟨before, d, after, declares, rfl, rfl, rfl⟩ := stands.exists_parts
  obtain ⟨before', d', after', declares', whole, size, rfl⟩ := stands'.exists_parts
  obtain ⟨middle, rfl, rest⟩ := exists_between whole (Nat.le_of_eq size)
  obtain rfl : middle = "" := by
    rw [String.utf8ByteSize_append] at size
    exact String.utf8ByteSize_eq_zero_iff.1 (by omega)
  have lists : d.toList ++ after.toList = d'.toList ++ after'.toList := by
    simpa using congrArg String.toList rest
  obtain ⟨same, -⟩ := declares.unique declares' lists
  rw [String.toList_inj.1 same, size]

/-- The search gives the bytes of a declaration before whose first none begins, and nothing if the
text has none. They begin and end between characters, and where one begins only one ends. -/
theorem range?_gives_first (text : String) :
    (∀ start stop, range? text = some (start, stop) ↔ StandsAt text start stop ∧
        ∀ start' stop', StandsAt text start' stop' → start ≤ start') ∧
      (range? text = none ↔ ∀ start stop, ¬ StandsAt text start stop) ∧
      ∀ start stop, StandsAt text start stop →
        String.Pos.Raw.IsValid text ⟨start⟩ ∧ String.Pos.Raw.IsValid text ⟨stop⟩ ∧
          ∀ stop', StandsAt text start stop' → stop' = stop := by
  refine ⟨fun _ _ => range?_eq_some_iff_first, range?_eq_none_iff_nowhere, ?_⟩
  intro start stop stands
  exact ⟨stands.boundaries.2.1, stands.boundaries.2.2, fun _ again => again.stop_unique stands⟩

def nestedHeader : String :=
  "Direction_t direction_sequence[] = \x7bLEFT\x7d ;\u00e9" ++
  "Direction_t\u3000direction_sequence[]\u00a0=\u2028\x7b " ++
  "Direction_t direction_sequence[] = \x7b\x7d;"

theorem range?_nestedHeader : range? nestedHeader = some (45, 125) ∧
    StandsAt nestedHeader 45 125 ∧ StandsAt nestedHeader 87 125 ∧
    (∀ start stop, StandsAt nestedHeader start stop → 45 ≤ start) ∧
    String.Pos.Raw.IsValid nestedHeader ⟨45⟩ ∧
    ∀ stop, StandsAt nestedHeader 45 stop → stop = 125 := by
  obtain ⟨exactly, -, places⟩ := range?_gives_first nestedHeader
  have found : range? nestedHeader = some (45, 125) := by decide +kernel
  obtain ⟨stands, first⟩ := (exactly 45 125).1 found
  have inner : StandsAt nestedHeader 87 125 :=
    ⟨by decide +kernel, "Direction_t direction_sequence[] = \x7b\x7d;",
      isWhole_iff_declares.1 (by decide +kernel), by decide +kernel⟩
  obtain ⟨valid, -, unique⟩ := places 45 125 stands
  exact ⟨found, stands, inner, first, valid, unique⟩

end FlightBlocks.Declaration
