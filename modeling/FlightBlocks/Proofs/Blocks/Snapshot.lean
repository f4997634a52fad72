import FlightBlocks.Blocks.Snapshot
import FlightBlocks.Proofs.Blocks.Fields
import FlightBlocks.Proofs.Json.Record
/-!
A workspace saved and loaded again. Whatever its blocks are called and wherever they lead, the
snapshot says all of it, so only the check of the workspace can refuse it.
-/

namespace FlightBlocks

open Json

theorem Field.restores (f : Field) : Restores Field.ofJson? f.toJson f where
  formed := by
    refine wellFormed_record ?_
    simp [(restores_int64 _).formed]
  back := by
    have members : f.toJson.reread.members? ["value", "min", "max"] =
        some [some (int f.value.toInt).reread, some (int f.least.toInt).reread,
          some (int f.greatest.toInt).reread] := by
      rw [toJson, members?_record]
      rfl
    have value := (restores_int64 f.value).back
    have least := (restores_int64 f.least).back
    have greatest := (restores_int64 f.greatest).back
    simp [ofJson?, members, required, value, least, greatest]

theorem Fields.restores (fields : Fields) : Restores Fields.ofJson? fields.toJson fields := by
  have entries : Restores (entries? Field.ofJson?) fields.toJson fields.entries :=
    restores_entries fun entry _ => entry.2.restores
  exact ⟨entries.formed, by rw [ofJson?, entries.back, Option.map_some, ofEntries_entries]⟩

namespace Block

variable {b : Block}

def Addressed (b : Block) : Prop := ∀ n ∈ b.next, n < UInt64.size

theorem restores_next {n : Nat} (small : n < UInt64.size) :
    Restores (nullable readIndex?) (nat n) (some n) :=
  (restores_word small).nullable nofun

theorem wellFormed_toJson (addressed : b.Addressed) : b.toJson.WellFormed := by
  refine wellFormed_record fun m member => ?_
  rcases List.mem_append.1 member with member | fields
  · rcases List.mem_append.1 member with kind | next
    · rw [List.mem_singleton.1 kind]
      exact (restores_string b.kind).formed
    · cases link : b.next with
      | none =>
        rw [link] at next
        cases next
      | some n =>
        rw [link] at next
        rw [List.mem_singleton.1 next]
        exact (restores_next (addressed n link)).formed
  · split at fields
    · cases fields
    · rw [List.mem_singleton.1 fields]
      exact b.fields.restores.formed

theorem members?_toJson (b : Block) :
    b.toJson.reread.members? ["kind", "next", "fields"] =
      some [some (string b.kind).reread, b.next.map fun n => (nat n).reread,
        if b.fields.entries.isEmpty then none else some b.fields.toJson.reread] := by
  rw [toJson, members?_record]
  by_cases none : b.fields.entries.isEmpty = true
  · rw [if_pos none, if_pos none]
    cases b.next <;> rfl
  · rw [if_neg none, if_neg none]
    cases b.next <;> rfl

theorem restores (addressed : b.Addressed) : Restores Block.ofJson? b.toJson b where
  formed := wellFormed_toJson addressed
  back := by
    have kind := (restores_string b.kind).back
    have next : orElse none (nullable readIndex?) (b.next.map fun n => (nat n).reread) =
        some b.next := by
      cases link : b.next with
      | none => rfl
      | some n => exact (restores_next (addressed n link)).back
    have fields : orElse Fields.empty Fields.ofJson?
        (if b.fields.entries.isEmpty then none else some b.fields.toJson.reread) =
        some b.fields := by
      split
      next none =>
        have empty : Fields.empty = b.fields := Fields.ext (List.isEmpty_iff.1 none).symm
        exact congrArg some empty
      next => exact b.fields.restores.back
    rw [ofJson?, members?_toJson]
    simp only [required, Option.bind_eq_bind, Option.bind_some, kind, next, fields, Option.pure_def]

end Block

namespace Workspace

variable {ws : Workspace}

/-- All indices, wherever they lead, have 64 bits. -/
structure Addressed (ws : Workspace) : Prop where
  blocks : ∀ b ∈ ws.blocks, b.Addressed
  heads : ∀ head ∈ ws.heads, head < UInt64.size

theorem restores (addressed : ws.Addressed) : Restores Workspace.ofJson? ws.toJson ws := by
  have blocks : Restores (items? Block.ofJson?) (array (ws.blocks.map Block.toJson)) ws.blocks :=
    restores_items fun b member => Block.restores (addressed.blocks b member)
  have heads : Restores (items? readIndex?) (array (ws.heads.map nat)) ws.heads :=
    restores_items fun head member => restores_word (addressed.heads head member)
  constructor
  · refine wellFormed_record ?_
    simp [blocks.formed, heads.formed]
  · have members : ws.toJson.reread.members? ["blocks", "top_blocks"] =
        some [some (array (ws.blocks.map Block.toJson)).reread,
          some (array (ws.heads.map nat)).reread] := by
      rw [toJson, members?_record]
      rfl
    simp [ofJson?, members, orElse, blocks.back, heads.back]

theorem decode_save (addressed : ws.Addressed) : decode ws.save = .ok ws := by
  have restores := restores addressed
  rw [decode, save, parse?_pretty restores.formed, Option.bind_some, restores.back]

theorem load_save (addressed : ws.Addressed) : load ws.save = ws.checked := by
  rw [load, decode_save addressed]
  rfl

end Workspace

end FlightBlocks
