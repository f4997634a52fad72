/-!
Blocks with their numeric fields. The fields of a block are kept in the order of their names, which
is the order of the bytes of the names, so two blocks with the same fields are equal.
-/

namespace FlightBlocks

structure Field where
  value : Int64
  least : Int64
  greatest : Int64
  deriving DecidableEq, Repr

def Field.inRange (f : Field) : Bool := f.least ≤ f.value && f.value ≤ f.greatest

def Field.unbounded (value : Int64) : Field := ⟨value, Int64.minValue, Int64.maxValue⟩

abbrev Entries := List (String × Field)

def Entries.Ascending (entries : Entries) : Prop := entries.Pairwise fun a b => a.1 < b.1

def Entries.put (name : String) (f : Field) : Entries → Entries
  | [] => [(name, f)]
  | (n, g) :: rest =>
    if name < n then (name, f) :: (n, g) :: rest
    else if name = n then (name, f) :: rest
    else (n, g) :: Entries.put name f rest

theorem Entries.mem_put {name : String} {f : Field} {entries : Entries} {e : String × Field}
    (h : e ∈ Entries.put name f entries) : e = (name, f) ∨ e ∈ entries := by
  induction entries with
  | nil => simpa [put] using h
  | cons head rest ih =>
    obtain ⟨n, g⟩ := head
    simp only [put] at h
    split at h
    · simpa using h
    · split at h
      · rcases List.mem_cons.1 h with h | h
        · exact .inl h
        · exact .inr (List.mem_cons_of_mem _ h)
      · rcases List.mem_cons.1 h with h | h
        · exact .inr (h ▸ List.mem_cons_self)
        · exact (ih h).imp id (List.mem_cons_of_mem _)

theorem Entries.ascending_put (name : String) (f : Field) {entries : Entries}
    (sorted : entries.Ascending) : (Entries.put name f entries).Ascending := by
  induction entries with
  | nil => simp [put, Ascending]
  | cons head rest ih =>
    obtain ⟨n, g⟩ := head
    obtain ⟨above, below⟩ := List.pairwise_cons.1 sorted
    simp only [put]
    split
    next before =>
      refine List.pairwise_cons.2 ⟨?_, sorted⟩
      intro e member
      rcases List.mem_cons.1 member with rfl | member
      · exact before
      · exact String.lt_trans before (above e member)
    next notBefore =>
      split
      next same => subst same; exact List.pairwise_cons.2 ⟨above, below⟩
      next different =>
        refine List.pairwise_cons.2 ⟨?_, ih below⟩
        intro e member
        rcases mem_put member with rfl | member
        · have le : n ≤ name := String.not_lt.1 notBefore
          exact String.not_le.1 fun le' => different (String.le_antisymm le' le)
        · exact above e member

structure Fields where
  entries : Entries
  ascending : entries.Ascending
  deriving Repr

namespace Fields

theorem ext {a b : Fields} (h : a.entries = b.entries) : a = b := by
  cases a; cases b; simp_all

instance : DecidableEq Fields := fun a b =>
  if h : a.entries = b.entries then isTrue (ext h) else isFalse fun e => h (e ▸ rfl)

def empty : Fields := ⟨[], List.Pairwise.nil⟩

def put (fields : Fields) (name : String) (f : Field) : Fields :=
  ⟨Entries.put name f fields.entries, Entries.ascending_put name f fields.ascending⟩

def ofEntries (entries : Entries) : Fields :=
  entries.foldl (fun fields entry => fields.put entry.1 entry.2) empty

end Fields

/-- One instruction. The kind stays a bare token, so blocks of newer palettes are kept as they
are. -/
structure Block where
  kind : String
  next : Option Nat
  fields : Fields
  deriving DecidableEq, Repr

def Block.ofKind (kind : String) : Block := ⟨kind, none, .empty⟩

end FlightBlocks
