import FlightBlocks.Json.Record
import FlightBlocks.Proofs.Json.Pretty
/-!
Typed data written as JSON and read back. What restores the parts restores the whole: a list from
its items, a mapping from its entries, and a record from its members.
-/

namespace FlightBlocks.Json

theorem mapM_map_eq_some {α β γ : Type} {read : β → Option γ} {write : α → β} {value : α → γ}
    {as : List α} (back : ∀ a ∈ as, read (write a) = some (value a)) :
    (as.map write).mapM read = some (as.map value) := by
  induction as with
  | nil => rfl
  | cons a as ih =>
    obtain ⟨first, others⟩ := List.forall_mem_cons.1 back
    rw [List.map_cons, List.mapM_cons, first, ih others]
    rfl

section Restores

variable {α : Type}

/-- `v` can be written, and once it has been, `read` gets `a` out of it. -/
structure Restores (read : Json → Option α) (v : Json) (a : α) : Prop where
  formed : v.WellFormed
  back : read v.reread = some a

theorem restores_string (s : String) : Restores string? (string s) s where
  formed := .text (JsonMark.wellFormed_ofString s)
  back := JsonMark.string?_reread s

theorem restores_int64 (i : Int64) : Restores int64? (int i.toInt) i where
  formed := .number (Numeral.wellFormed_ofInt _)
  back := by
    have above : Int64.minValue.toInt ≤ i.toInt := Int64.minValue_le_toInt i
    have below : i.toInt ≤ Int64.maxValue.toInt := Int64.toInt_le i
    rw [int, reread, int64?, intIn?, Numeral.intIn?_ofInt above below, Option.map_some,
      Int64.ofInt_toInt]

theorem restores_word {bits n : Nat} (small : n < 1 <<< bits) :
    Restores (word? bits) (nat n) n where
  formed := .number (Numeral.wellFormed_ofNat n)
  back := by
    have above : (0 : Int) ≤ n := Int.natCast_nonneg n
    have below : (n : Int) ≤ (1 <<< bits : Nat) - 1 := by omega
    have read := Numeral.intIn?_ofInt above below
    rw [nat, reread, word?, intIn?]
    exact congrArg (Option.map Int.toNat) read

theorem Restores.nullable {read : Json → Option α} {v : Json} {a : α} (restores : Restores read v a)
    (present : v.reread ≠ .null) : Restores (nullable read) v (some a) where
  formed := restores.formed
  back := by
    unfold Json.nullable
    split
    next absent => exact absurd absent present
    next => rw [restores.back, Option.map_some]

theorem restores_items {read : Json → Option α} {write : α → Json} {as : List α}
    (restores : ∀ a ∈ as, Restores read (write a) a) :
    Restores (items? read) (array (as.map write)) as where
  formed := by
    refine .array fun v member => ?_
    obtain ⟨a, inside, rfl⟩ := List.mem_map.1 member
    exact (restores a inside).formed
  back := by
    have read' := mapM_map_eq_some fun a member => (restores a member).back
    rw [reread, rereadItems_eq_map, items?, List.map_map]
    exact read'.trans (congrArg some (List.map_id as))

end Restores

section Cases

variable {α : Type} {read : Json → Option α} {v : Json} {a : α}

theorem orElse_cases {default : α} {member : Option Json}
    (found : orElse default read member = some a) : a = default ∨ ∃ w, read w = some a := by
  cases member with
  | none => exact .inl (Option.some.inj found).symm
  | some w => exact .inr ⟨w, found⟩

theorem nullable_cases (found : nullable read v = some (some a)) : read v = some a := by
  unfold nullable at found
  split at found
  next => cases found
  next =>
    obtain ⟨_, read, same⟩ := Option.map_eq_some_iff.1 found
    cases same
    exact read

theorem items?_cases {as : List α} (found : items? read v = some as) (member : a ∈ as) :
    ∃ w, read w = some a := by
  cases v with
  | array items =>
    obtain ⟨w, -, read⟩ := mem_of_mapM found member
    exact ⟨w, read⟩
  | _ => cases found

theorem lt_of_word? {bits n : Nat} (found : v.word? bits = some n) : n < 1 <<< bits := by
  obtain ⟨i, within, rfl⟩ := Option.map_eq_some_iff.1 found
  cases v with
  | number numeral =>
    obtain ⟨-, range⟩ := Option.filter_eq_some_iff.1 within
    simp only [Bool.and_eq_true, decide_eq_true_eq] at range
    omega
  | _ => cases within

end Cases

section Records

variable {members : List (String × Json)}

theorem wellFormed_record (formed : ∀ m ∈ members, m.2.WellFormed) :
    (record members).WellFormed := by
  refine .object (fun m member => ?_) fun m member => ?_
  · obtain ⟨⟨name, v⟩, -, rfl⟩ := List.mem_map.1 member
    exact JsonMark.wellFormed_ofString name
  · obtain ⟨⟨name, v⟩, inside, rfl⟩ := List.mem_map.1 member
    exact formed _ inside

theorem named?_reread (members : List (String × Json)) :
    named? (rereadMembers (members.map fun m => (JsonMark.ofString m.1, m.2))) =
      some (members.map fun m => (m.1, m.2.reread)) := by
  rw [rereadMembers_eq_map, List.map_map, named?]
  refine mapM_map_eq_some fun m _ => ?_
  exact congrArg (Option.map _) (JsonMark.string?_reread m.1)

theorem members?_record (names : List String) (members : List (String × Json)) :
    members? names (record members).reread =
      names.mapM fun name => only? name (members.map fun m => (m.1, m.2.reread)) := by
  have named := named?_reread members
  rw [record, reread, members?]
  exact (congrArg (Option.bind · _) named).trans (Option.bind_some _ _)

theorem restores_entries {α : Type} {read : Json → Option α} {write : α → Json}
    {entries : List (String × α)}
    (restores : ∀ entry ∈ entries, Restores read (write entry.2) entry.2) :
    Restores (entries? read) (record (entries.map fun entry => (entry.1, write entry.2)))
      entries where
  formed := by
    refine wellFormed_record fun m member => ?_
    obtain ⟨entry, inside, rfl⟩ := List.mem_map.1 member
    exact (restores entry inside).formed
  back := by
    have named := named?_reread (entries.map fun entry => (entry.1, write entry.2))
    rw [record, reread, entries?]
    refine (congrArg (Option.bind · _) named).trans ?_
    rw [Option.bind_some, List.map_map]
    refine (mapM_map_eq_some fun entry member => ?_).trans (congrArg some (List.map_id entries))
    exact congrArg (Option.map _) (restores entry member).back

end Records

end FlightBlocks.Json
