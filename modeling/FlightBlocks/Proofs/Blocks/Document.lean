import FlightBlocks.Blocks.Canvas
import FlightBlocks.Proofs.Blocks.Fields
import Mathlib.Data.List.Forall2
/-!
What is read from an editor document: the blocks that it lists, each unrolled through the blocks
that it holds, and of the fields of a block those whose last entry is an integer.
-/

namespace FlightBlocks.Canvas

def Lists (doc : Json) (tops : List Json) : Prop :=
  (doc.members? ["blocks"] = some [none] ∧ tops = []) ∨
    ∃ top, doc.members? ["blocks"] = some [some top] ∧
      ((top.members? ["blocks"] = some [none] ∧ tops = []) ∨
        top.members? ["blocks"] = some [some (.array tops)])

/-- `pieces` are the block `v` and those that it holds, each inside the one before it. -/
inductive Unrolls : Json → List Piece → Prop
  | last {v : Json} {p : Piece} (is : piece? v = some p) (stands : (position? v).isSome)
      (ends : successor? v = some none) : Unrolls v [p]
  | next {v w : Json} {p : Piece} {ps : List Piece} (is : piece? v = some p)
      (stands : (position? v).isSome) (next : successor? v = some (some w))
      (rest : Unrolls w ps) : Unrolls v (p :: ps)

def SaysInteger (v : Json) (name : String) (n : Int64) : Prop :=
  ∃ kind x y fields next entries value,
    members? v = some [kind, x, y, some fields, next] ∧
      fields.entries? (fun field => if field.isSound then some field else none) = some entries ∧
      Final entries name value ∧ value.int64? = some n

section Unrolls

variable {v w : Json} {p : Piece} {ps : List Piece}

theorem pieces?_of_last (is : piece? v = some p) (stands : (position? v).isSome)
    (ends : successor? v = some none) : pieces? v = some [p] := by
  obtain ⟨position, stands⟩ := Option.isSome_iff_exists.1 stands
  rw [pieces?, is, stands]
  simp only [Option.bind_eq_bind, Option.bind_some]
  split <;> simp_all

theorem pieces?_of_next (is : piece? v = some p) (stands : (position? v).isSome)
    (next : successor? v = some (some w)) : pieces? v = (pieces? w).map (p :: ·) := by
  obtain ⟨position, stands⟩ := Option.isSome_iff_exists.1 stands
  rw [pieces?, is, stands]
  simp only [Option.bind_eq_bind, Option.bind_some]
  split
  · simp_all
  · simp_all
  next w' found =>
    cases next.symm.trans found
    cases pieces? w <;> rfl

theorem unrolls_of_pieces? {v : Json} {ps : List Piece} (read : pieces? v = some ps) :
    Unrolls v ps := by
  rw [pieces?] at read
  obtain ⟨p, is, read⟩ := Option.bind_eq_some_iff.1 read
  obtain ⟨position, stands, read⟩ := Option.bind_eq_some_iff.1 read
  have stands' : (position? v).isSome := by rw [stands]; rfl
  split at read
  next => cases read
  next ends =>
    cases read
    exact .last is stands' ends
  next w next =>
    obtain ⟨rest, readRest, same⟩ := Option.bind_eq_some_iff.1 read
    cases same
    exact .next is stands' next (unrolls_of_pieces? readRest)
termination_by sizeOf v
decreasing_by exact sizeOf_lt_of_successor? ‹_›

theorem pieces?_eq_some_iff : pieces? v = some ps ↔ Unrolls v ps := by
  refine ⟨unrolls_of_pieces?, fun unrolls => ?_⟩
  induction unrolls with
  | last is stands ends => exact pieces?_of_last is stands ends
  | next is stands next _ ih =>
    rw [pieces?_of_next is stands next, ih]
    rfl

theorem Unrolls.nonempty (unrolls : Unrolls v ps) : ps ≠ [] := by
  cases unrolls <;> exact List.cons_ne_nil _ _

theorem Unrolls.read (unrolls : Unrolls v ps) : ∀ p ∈ ps, ∃ w, piece? w = some p := by
  induction unrolls with
  | last is =>
    intro p member
    cases List.mem_singleton.1 member
    exact ⟨_, is⟩
  | next is _ _ _ ih =>
    intro p member
    rcases List.mem_cons.1 member with rfl | member
    · exact ⟨_, is⟩
    · exact ih p member

end Unrolls

section Fields

variable {v : Json} {p : Piece} {name : String} {f : Field}

theorem mem_ofEntries_integers {entries : List (String × Json)} :
    (name, f) ∈ (Fields.ofEntries ((Json.lastOfEach entries).filterMap fun (name, field) =>
        field.int64?.map fun value => (name, Field.unbounded value))).entries ↔
      ∃ n value, Final entries name value ∧ value.int64? = some n ∧ f = .unbounded n := by
  have distinct : ((Json.lastOfEach entries).filterMap fun (name, field) =>
      field.int64?.map fun value => (name, Field.unbounded value)).Pairwise
        fun a b => a.1 ≠ b.1 := by
    refine (lastOfEach_distinct entries).filterMap _ ?_
    rintro ⟨n, a⟩ ⟨m, b⟩ different e readE e' readE'
    obtain ⟨_, -, rfl⟩ := Option.map_eq_some_iff.1 readE
    obtain ⟨_, -, rfl⟩ := Option.map_eq_some_iff.1 readE'
    exact different
  rw [Fields.mem_ofEntries_iff, final_iff_mem distinct, List.mem_filterMap]
  constructor
  · rintro ⟨⟨m, value⟩, member, read⟩
    obtain ⟨n, integer, same⟩ := Option.map_eq_some_iff.1 read
    cases same
    exact ⟨n, value, mem_lastOfEach.1 member, integer, rfl⟩
  · rintro ⟨n, value, final, integer, rfl⟩
    exact ⟨(name, value), mem_lastOfEach.2 final, by simp only [integer, Option.map_some]⟩

theorem mem_fields_iff (is : piece? v = some p) :
    (name, f) ∈ p.fields.entries ↔ ∃ n, SaysInteger v name n ∧ f = .unbounded n := by
  unfold piece? at is
  split at is
  next kind x y fields next found =>
    obtain ⟨token, -, is⟩ := Option.bind_eq_some_iff.1 is
    obtain ⟨read, readFields, same⟩ := Option.bind_eq_some_iff.1 is
    cases same
    cases fields with
    | none =>
      cases readFields
      refine ⟨nofun, ?_⟩
      rintro ⟨n, ⟨_, _, _, _, _, _, _, found', -⟩, -⟩
      rw [found] at found'
      simp at found'
    | some fields =>
      obtain ⟨entries, readEntries, same⟩ := Option.bind_eq_some_iff.1 readFields
      cases same
      refine mem_ofEntries_integers.trans ⟨?_, ?_⟩
      · rintro ⟨n, value, final, integer, rfl⟩
        exact ⟨n, ⟨_, _, _, _, _, entries, value, found, readEntries, final, integer⟩, rfl⟩
      · rintro ⟨n, ⟨_, _, _, _, _, _, value, found', read', final, integer⟩, rfl⟩
        rw [found] at found'
        cases found'
        rw [readEntries] at read'
        cases read'
        exact ⟨n, value, final, integer, rfl⟩
  next => cases is

end Fields

section Chains

theorem mapM_eq_some_iff {α β : Type} {f : α → Option β} {as : List α} {bs : List β} :
    as.mapM f = some bs ↔ List.Forall₂ (fun a b => f a = some b) as bs := by
  induction as generalizing bs with
  | nil => simp [eq_comm]
  | cons a as ih =>
    simp only [List.mapM_cons, Option.bind_eq_bind, Option.bind_eq_some_iff, Option.pure_def,
      Option.some.injEq, List.forall₂_cons_left_iff, ih]
    constructor
    · rintro ⟨b, here, bs, rest, rfl⟩
      exact ⟨b, bs, here, rest, rfl⟩
    · rintro ⟨b, bs, here, rest, rfl⟩
      exact ⟨b, here, bs, rest, rfl⟩

theorem chain?_eq_some_iff {v : Json} {c : Chain} :
    chain? v = some c ↔ position? v = some (c.x, c.y) ∧ Unrolls v c.pieces := by
  rw [← pieces?_eq_some_iff, chain?]
  constructor
  · intro read
    obtain ⟨⟨x, y⟩, stands, read⟩ := Option.bind_eq_some_iff.1 read
    obtain ⟨pieces, unrolls, same⟩ := Option.bind_eq_some_iff.1 read
    cases same
    exact ⟨stands, unrolls⟩
  · rintro ⟨stands, unrolls⟩
    rw [stands, unrolls]
    rfl

/-- The document lists `tops`, and each of them is the head of one of `chains`. -/
def Draws (doc : Json) (chains : List Chain) : Prop :=
  ∃ tops, Lists doc tops ∧ List.Forall₂
    (fun v (c : Chain) => position? v = some (c.x, c.y) ∧ Unrolls v c.pieces) tops chains

theorem draws_of_chains? {doc : Json} {chains : List Chain} (decodes : chains? doc = some chains) :
    Draws doc chains := by
  unfold chains? at decodes
  split at decodes
  next none =>
    cases decodes
    exact ⟨[], .inl ⟨none, rfl⟩, .nil⟩
  next top found =>
    split at decodes
    next blocks listed =>
      cases blocks with
      | none =>
        cases decodes
        exact ⟨[], .inr ⟨top, found, .inl ⟨listed, rfl⟩⟩, .nil⟩
      | some v =>
        cases v with
        | array tops =>
          refine ⟨tops, .inr ⟨top, found, .inr listed⟩, ?_⟩
          exact (mapM_eq_some_iff.1 decodes).imp fun v c => chain?_eq_some_iff.1
        | _ => cases decodes
    next => cases decodes
  next => cases decodes

theorem Draws.unrolled {doc : Json} {chains : List Chain} (draws : Draws doc chains) :
    ∀ c ∈ chains, ∃ v, Unrolls v c.pieces := by
  obtain ⟨tops, -, are⟩ := draws
  clear * - are
  induction are with
  | nil => nofun
  | cons is _ ih =>
    intro c member
    rcases List.mem_cons.1 member with rfl | member
    · exact ⟨_, is.2⟩
    · exact ih c member

end Chains

end FlightBlocks.Canvas
