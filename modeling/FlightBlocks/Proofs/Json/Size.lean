import FlightBlocks.Json.Record
import FlightBlocks.Proofs.Json.Tokens
/-!
The size of a value is the number of its tokens. A text has at least as many characters as the
value in it has tokens, and what stands inside a value is smaller than it.
-/

namespace FlightBlocks

namespace JsonToken

def Mode.begun : Mode → Nat
  | .between => 0
  | _ => 1

variable {mode mode' : Mode} {found found' : List JsonToken} {c : Char}

theorem length_start {t : Option JsonToken} (started : start c = some (mode, t))
    (found : List JsonToken) : (push t found).length + mode.begun ≤ found.length + 1 := by
  unfold start at started
  repeat' split at started
  all_goals cases started
  all_goals simp [push, Mode.begun]

theorem length_restart (token : JsonToken)
    (stepped : (start c).bind (fun next => some (next.1, push next.2 (token :: found))) =
      some (mode', found')) : found'.length + mode'.begun ≤ found.length + 1 + 1 := by
  obtain ⟨⟨m, t⟩, started, same⟩ := Option.bind_eq_some_iff.1 stepped
  cases same
  exact length_start started (token :: found)

/-- A character ends at most the token that has begun, and is or begins one more. -/
theorem length_step (stepped : step mode found c = some (mode', found')) :
    found'.length + mode'.begun ≤ found.length + mode.begun + 1 := by
  cases mode with
  | between =>
    obtain ⟨⟨m, t⟩, started, same⟩ := Option.map_eq_some_iff.1 stepped
    cases same
    exact length_start started found
  | numeral read =>
    simp only [step] at stepped
    split at stepped
    · cases stepped
      exact Nat.le_succ _
    · obtain ⟨n, -, stepped⟩ := Option.bind_eq_some_iff.1 stepped
      exact length_restart (.number n) stepped
  | word read =>
    simp only [step] at stepped
    split at stepped
    · cases stepped
      exact Nat.le_succ _
    · obtain ⟨w, -, stepped⟩ := Option.bind_eq_some_iff.1 stepped
      exact length_restart w stepped
  | text read =>
    simp only [step] at stepped
    repeat' split at stepped
    all_goals cases stepped
    all_goals simp [Mode.begun]
  | escape read =>
    simp only [step] at stepped
    split at stepped
    · cases stepped
      exact Nat.le_succ _
    · obtain ⟨e, -, same⟩ := Option.map_eq_some_iff.1 stepped
      cases same
      exact Nat.le_succ _
  | hex read code left =>
    obtain ⟨d, -, same⟩ := Option.bind_eq_some_iff.1 stepped
    cases same
    split <;> exact Nat.le_succ _

theorem length_finish {ts : List JsonToken} (finished : finish mode found = some ts) :
    ts.length ≤ found.length + mode.begun := by
  cases mode with
  | between =>
    cases finished
    exact Nat.le_of_eq List.length_reverse
  | numeral read =>
    obtain ⟨n, -, rfl⟩ := Option.map_eq_some_iff.1 finished
    exact Nat.le_of_eq List.length_reverse
  | word read =>
    obtain ⟨w, -, rfl⟩ := Option.map_eq_some_iff.1 finished
    exact Nat.le_of_eq List.length_reverse
  | _ => cases finished

theorem length_scan {cs : List Char} {ts : List JsonToken}
    (scanned : scan mode found cs = some ts) :
    ts.length ≤ found.length + mode.begun + cs.length := by
  induction cs generalizing mode found with
  | nil => exact length_finish scanned
  | cons c cs ih =>
    rw [scan] at scanned
    split at scanned
    next => cases scanned
    next mode' found' stepped =>
      have before := length_step stepped
      have after := ih scanned
      rw [List.length_cons]
      omega

end JsonToken

namespace Json

def size (v : Json) : Nat := v.tokens.length

theorem size_le_of_parse? {s : String} {v : Json} (read : parse? s = some v) :
    v.size ≤ s.length := by
  obtain ⟨ts, scanned, gathered⟩ := Option.bind_eq_some_iff.1 read
  have all := JsonToken.length_scan scanned
  rw [ofTokens?_eq_some_iff.1 gathered, String.length_toList] at all
  simpa [JsonToken.Mode.begun, size] using all

variable {v w : Json}

theorem size_pos (v : Json) : 0 < v.size := by
  cases v with
  | array items => cases items <;> exact Nat.succ_pos _
  | object members => cases members <;> exact Nat.succ_pos _
  | _ => exact Nat.one_pos

theorem length_itemPart (v : Json) : (itemPart v).length = v.size + 1 := by
  rw [itemPart, List.length_append]
  rfl

theorem size_array {items : List Json} (nonempty : items ≠ []) :
    (array items).size = (items.flatMap itemPart).length + 1 := by
  obtain ⟨before, v, rfl⟩ := (List.eq_nil_or_concat items).resolve_left nonempty
  rw [size, List.concat_eq_append, tokens_array_concat]
  simp [itemPart]

theorem size_object {members : List (List JsonMark × Json)} (nonempty : members ≠ []) :
    (object members).size = (members.flatMap memberPart).length + 1 := by
  obtain ⟨before, ⟨key, v⟩, rfl⟩ := (List.eq_nil_or_concat members).resolve_left nonempty
  rw [size, List.concat_eq_append, tokens_object_concat]
  simp [memberPart]

theorem size_lt_of_mem_items {items : List Json} (member : v ∈ items) :
    v.size < (array items).size := by
  have part := (List.sublist_flatten_of_mem (List.mem_map_of_mem (f := itemPart) member)).length_le
  rw [length_itemPart] at part
  rw [size_array (List.ne_nil_of_mem member), List.flatMap_def]
  omega

theorem size_lt_of_mem_members {members : List (List JsonMark × Json)} {key : List JsonMark}
    (member : (key, v) ∈ members) : v.size < (object members).size := by
  have part :=
    (List.sublist_flatten_of_mem (List.mem_map_of_mem (f := memberPart) member)).length_le
  have own : (memberPart (key, v)).length = v.size + 3 := by simp [memberPart, size]
  rw [size_object (List.ne_nil_of_mem member), List.flatMap_def]
  omega

theorem size_lt_of_members? {names : List String} {members : List (Option Json)}
    (read : members? names v = some members) (member : some w ∈ members) : w.size < v.size := by
  unfold members? at read
  split at read
  next raw =>
    obtain ⟨named, hnamed, read⟩ := Option.bind_eq_some_iff.1 read
    obtain ⟨name, -, found⟩ := mem_of_mapM read member
    obtain ⟨⟨key, value⟩, inside, same⟩ := mem_of_mapM hnamed (mem_of_only? found)
    obtain ⟨_, -, same⟩ := Option.map_eq_some_iff.1 same
    cases same
    exact size_lt_of_mem_members inside
  next items =>
    split at read
    · cases read
      rcases List.mem_append.1 member with member | member
      · obtain ⟨_, inside, same⟩ := List.mem_map.1 member
        cases same
        exact size_lt_of_mem_items inside
      · simp at member
    · cases read
  next => cases read

end Json

end FlightBlocks
