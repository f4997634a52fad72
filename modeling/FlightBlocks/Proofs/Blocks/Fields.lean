import FlightBlocks.Blocks.Block
import FlightBlocks.Json.Record
import Mathlib.Data.List.Induction
/-!
Entries gathered by their names: whatever the order, the last entry of a name counts.
-/

namespace FlightBlocks

section Final

variable {α : Type}

/-- `v` is what `entries` say last of `name`. -/
def Final (entries : List (String × α)) (name : String) (v : α) : Prop :=
  ∃ before after, entries = before ++ (name, v) :: after ∧ ∀ later ∈ after, later.1 ≠ name

theorem not_final_nil {name : String} {v : α} : ¬ Final [] name v := by
  rintro ⟨before, after, split, -⟩
  simp at split

theorem final_concat_iff {entries : List (String × α)} {n name : String} {w v : α} :
    Final (entries ++ [(n, w)]) name v ↔
      (name = n ∧ v = w) ∨ (name ≠ n ∧ Final entries name v) := by
  constructor
  · rintro ⟨before, after, split, last⟩
    rcases List.eq_nil_or_concat after with rfl | ⟨after, later, rfl⟩
    · obtain ⟨-, same⟩ := List.append_inj' split rfl
      simp only [List.cons.injEq, Prod.mk.injEq, and_true] at same
      exact .inl ⟨same.1.symm, same.2.symm⟩
    · rw [List.concat_eq_append, ← List.cons_append, ← List.append_assoc] at split
      obtain ⟨rfl, same⟩ := List.append_inj' split rfl
      simp only [List.cons.injEq, and_true] at same
      have different : later.1 ≠ name := last later (by simp)
      rw [← same] at different
      exact .inr ⟨Ne.symm different, before, after, rfl, fun e member => last e (by simp [member])⟩
  · rintro (⟨rfl, rfl⟩ | ⟨different, before, after, rfl, last⟩)
    · exact ⟨entries, [], rfl, nofun⟩
    · refine ⟨before, after ++ [(n, w)], by simp, fun later member => ?_⟩
      rcases List.mem_append.1 member with member | member
      · exact last later member
      · rw [List.mem_singleton.1 member]
        exact Ne.symm different

theorem final_cons_iff {entries : List (String × α)} {n name : String} {w v : α} :
    Final ((n, w) :: entries) name v ↔
      Final entries name v ∨ (name = n ∧ v = w ∧ ∀ later ∈ entries, later.1 ≠ name) := by
  constructor
  · rintro ⟨before, after, split, last⟩
    cases before with
    | nil =>
      simp only [List.nil_append, List.cons.injEq, Prod.mk.injEq] at split
      obtain ⟨⟨rfl, rfl⟩, rfl⟩ := split
      exact .inr ⟨rfl, rfl, last⟩
    | cons first before =>
      simp only [List.cons_append, List.cons.injEq] at split
      exact .inl ⟨before, after, split.2, last⟩
  · rintro (⟨before, after, rfl, last⟩ | ⟨rfl, rfl, last⟩)
    · exact ⟨(n, w) :: before, after, rfl, last⟩
    · exact ⟨[], entries, rfl, last⟩

theorem final_iff_mem {entries : List (String × α)}
    (distinct : entries.Pairwise fun a b => a.1 ≠ b.1) {name : String} {v : α} :
    Final entries name v ↔ (name, v) ∈ entries := by
  constructor
  · rintro ⟨before, after, rfl, -⟩
    simp
  · intro member
    obtain ⟨before, after, rfl⟩ := List.append_of_mem member
    obtain ⟨-, tail, -⟩ := List.pairwise_append.1 distinct
    refine ⟨before, after, rfl, fun later inside => ?_⟩
    exact Ne.symm ((List.pairwise_cons.1 tail).1 later inside)

theorem mem_lastOfEach {entries : List (String × α)} {name : String} {v : α} :
    (name, v) ∈ Json.lastOfEach entries ↔ Final entries name v := by
  induction entries with
  | nil => exact ⟨nofun, fun final => absurd final not_final_nil⟩
  | cons first entries ih =>
    obtain ⟨n, w⟩ := first
    rw [final_cons_iff, ← ih, Json.lastOfEach]
    split
    next again =>
      obtain ⟨later, member, same⟩ := List.any_eq_true.1 again
      refine ⟨.inl, ?_⟩
      rintro (member' | ⟨rfl, -, last⟩)
      · exact member'
      · exact absurd (beq_iff_eq.1 same) (last later member)
    next fresh =>
      have fresh' : ∀ later ∈ entries, later.1 ≠ n := fun later member same =>
        fresh (List.any_eq_true.2 ⟨later, member, beq_iff_eq.2 same⟩)
      rw [List.mem_cons, Prod.mk.injEq, or_comm]
      exact or_congr Iff.rfl ⟨fun ⟨here, same⟩ => ⟨here, same, here ▸ fresh'⟩,
        fun ⟨here, same, _⟩ => ⟨here, same⟩⟩

theorem lastOfEach_distinct (entries : List (String × α)) :
    (Json.lastOfEach entries).Pairwise fun a b => a.1 ≠ b.1 := by
  induction entries with
  | nil => exact .nil
  | cons first entries ih =>
    rw [Json.lastOfEach]
    split
    · exact ih
    next fresh =>
      refine List.pairwise_cons.2 ⟨fun later member same => fresh ?_, ih⟩
      obtain ⟨before, after, rfl, -⟩ := mem_lastOfEach.1 member
      exact List.any_eq_true.2 ⟨later, by simp, by simp [same]⟩

end Final

theorem Entries.mem_put_iff {name n : String} {f g : Field} {entries : Entries}
    (sorted : entries.Ascending) :
    (n, g) ∈ Entries.put name f entries ↔
      (n = name ∧ g = f) ∨ (n ≠ name ∧ (n, g) ∈ entries) := by
  induction entries with
  | nil => simp [put]
  | cons first entries ih =>
    obtain ⟨m, h⟩ := first
    obtain ⟨above, sorted⟩ := List.pairwise_cons.1 sorted
    have beyond : n = m → (n, g) ∉ entries := fun same member =>
      absurd (above _ member) (same ▸ String.lt_irrefl _)
    rw [put]
    split
    next before =>
      have absent : n = name → (n, g) ∉ (m, h) :: entries := by
        rintro rfl member
        rcases List.mem_cons.1 member with same | member
        · cases same
          exact String.lt_irrefl _ before
        · exact String.lt_irrefl _ (String.lt_trans before (above _ member))
      rw [List.mem_cons, Prod.mk.injEq]
      grind
    next notBefore =>
      split
      next same =>
        subst same
        rw [List.mem_cons, List.mem_cons, Prod.mk.injEq, Prod.mk.injEq]
        grind
      next different =>
        rw [List.mem_cons, ih sorted, List.mem_cons, Prod.mk.injEq]
        have apart : n = m → n ≠ name := fun same again => different (again ▸ same)
        grind

theorem Entries.put_last {entries : Entries} {name : String} (f : Field)
    (last : ∀ entry ∈ entries, entry.1 < name) :
    Entries.put name f entries = entries ++ [(name, f)] := by
  induction entries with
  | nil => rfl
  | cons first entries ih =>
    obtain ⟨n, g⟩ := first
    obtain ⟨before, others⟩ := List.forall_mem_cons.1 last
    have different : name ≠ n := (String.ne_of_lt before).symm
    rw [put, if_neg (String.lt_asymm before), if_neg different, ih others, List.cons_append]

namespace Fields

theorem mem_put_iff {fields : Fields} {name n : String} {f g : Field} :
    (n, g) ∈ (fields.put name f).entries ↔
      (n = name ∧ g = f) ∨ (n ≠ name ∧ (n, g) ∈ fields.entries) :=
  Entries.mem_put_iff fields.ascending

theorem ofEntries_concat (entries : Entries) (name : String) (f : Field) :
    ofEntries (entries ++ [(name, f)]) = (ofEntries entries).put name f := List.foldl_append

theorem mem_ofEntries_iff {entries : Entries} {name : String} {f : Field} :
    (name, f) ∈ (ofEntries entries).entries ↔ Final entries name f := by
  induction entries using List.reverseRecOn with
  | nil => exact ⟨nofun, fun final => absurd final not_final_nil⟩
  | append_singleton entries last ih =>
    rw [ofEntries_concat, mem_put_iff, final_concat_iff, ih]

theorem entries_ofEntries {entries : Entries} (ascending : entries.Ascending) :
    (ofEntries entries).entries = entries := by
  induction entries using List.reverseRecOn with
  | nil => rfl
  | append_singleton entries entry ih =>
    obtain ⟨before, -, below⟩ := List.pairwise_append.1 ascending
    have last : ∀ e ∈ entries, e.1 < entry.1 :=
      fun e member => below e member entry List.mem_cons_self
    have placed := Entries.put_last entry.2 last
    rw [ofEntries_concat]
    exact (congrArg (Entries.put entry.1 entry.2) (ih before)).trans placed

theorem ofEntries_entries (fields : Fields) : ofEntries fields.entries = fields :=
  ext (entries_ofEntries fields.ascending)

end Fields

end FlightBlocks
