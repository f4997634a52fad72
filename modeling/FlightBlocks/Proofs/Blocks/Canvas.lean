import FlightBlocks.Proofs.Blocks.Chains
import FlightBlocks.Proofs.Blocks.Document
/-!
What an editor document gives. Its chains, from the top of the canvas to the bottom, become the
chains of a workspace one after another, with the same blocks in the same order and with their
fields. Only a blank kind stands against it.
-/

namespace FlightBlocks

def Block.carrying (b : Block) (fields : Fields) : Block := { b with fields := fields }

namespace Workspace

def carrying (ws : Workspace) (fields : List Fields) : Workspace :=
  { ws with blocks := List.zipWith Block.carrying ws.blocks fields }

variable {ws : Workspace} {fields : List Fields} (same : fields.length = ws.blocks.length)

theorem blocks_carrying (ws : Workspace) (fields : List Fields) :
    (ws.carrying fields).blocks =
      (ws.blocks.zip fields).map fun entry => entry.1.carrying entry.2 :=
  List.map_uncurry_zip_eq_zipWith.symm

include same

theorem length_carrying : (ws.carrying fields).blocks.length = ws.blocks.length := by
  rw [carrying, List.length_zipWith, same, Nat.min_self]

theorem map_carrying {α : Type} {read : Block → α} (blind : ∀ b f, read (b.carrying f) = read b) :
    (ws.carrying fields).blocks.map read = ws.blocks.map read := by
  have first : (read ∘ fun entry : Block × Fields => entry.1.carrying entry.2) =
      read ∘ Prod.fst := funext fun entry => blind entry.1 entry.2
  rw [blocks_carrying, List.map_map, first, ← List.map_map,
    List.map_fst_zip (Nat.le_of_eq same.symm)]

theorem fields_carrying : (ws.carrying fields).blocks.map Block.fields = fields := by
  rw [blocks_carrying, List.map_map]
  exact List.map_snd_zip (Nat.le_of_eq same)

theorem source_carrying : (ws.carrying fields).source = ws.source := by
  have nodes (ws : Workspace) :
      ws.source.nodes = (ws.blocks.map node).zipIdx.map fun entry => (entry.2, entry.1) := by
    rw [List.zipIdx_map, List.map_map]
    rfl
  have same' : (ws.carrying fields).source.nodes = ws.source.nodes := by
    rw [nodes, nodes, map_carrying same fun _ _ => rfl]
  rw [source, length_carrying same]
  exact congrArg (BlockSource.mk ws.heads · ws.blocks.length) same'

theorem chained_carrying {chains : List (List String)} (chained : Chained ws chains) :
    Chained (ws.carrying fields) chains := by
  rw [Chained, source_carrying same, length_carrying same]
  exact chained

theorem bounded_carrying (bounded : Bounded ws) : Bounded (ws.carrying fields) := by
  constructor
  · rw [length_carrying same]
    exact bounded.heads
  · rw [length_carrying same]
    intro b member n next
    have links := List.mem_map_of_mem (f := Block.next) member
    rw [map_carrying same fun _ _ => rfl] at links
    obtain ⟨b', member', same'⟩ := List.mem_map.1 links
    exact bounded.links b' member' n (same'.trans next)

end Workspace

namespace Canvas

def Chain.kinds (chain : Chain) : List String := chain.pieces.map Piece.kind

/-- `arranged` are `chains` in the order of their keys; chains of one key keep their order. -/
structure Arranged (key : Chain → Int) (chains arranged : List Chain) : Prop where
  perm : arranged.Perm chains
  ordered : arranged.Pairwise fun a b => key a ≤ key b
  stable : ∀ k, (arranged.filter fun c => key c == k) = chains.filter fun c => key c == k

section Arrange

variable (key : Chain → Int)

theorem key_trans (a b c : Chain) (first : decide (key a ≤ key b) = true)
    (second : decide (key b ≤ key c) = true) : decide (key a ≤ key c) = true :=
  decide_eq_true (Int.le_trans (of_decide_eq_true first) (of_decide_eq_true second))

theorem key_total (a b : Chain) : (decide (key a ≤ key b) || decide (key b ≤ key a)) = true := by
  simpa using Int.le_total (key a) (key b)

theorem arranged_arrange (chains : List Chain) : Arranged key chains (arrange key chains) where
  perm := List.mergeSort_perm _ _
  ordered :=
    (List.pairwise_mergeSort (key_trans key) (key_total key) chains).imp of_decide_eq_true
  stable := by
    intro k
    have level : (chains.filter fun c => key c == k).Pairwise
        fun a b => decide (key a ≤ key b) := by
      refine List.pairwise_of_forall_mem_list fun a inA b inB => ?_
      have sameA := beq_iff_eq.1 (List.mem_filter.1 inA).2
      have sameB := beq_iff_eq.1 (List.mem_filter.1 inB).2
      exact decide_eq_true (by omega)
    have part : (chains.filter fun c => key c == k).Sublist (arrange key chains) :=
      List.sublist_mergeSort (key_trans key) (key_total key) level List.filter_sublist
    have part' := part.filter fun c => key c == k
    rw [List.filter_filter] at part'
    simp only [Bool.and_self] at part'
    exact (part'.eq_of_length ((List.mergeSort_perm _ _).symm.filter _).length_eq).symm

end Arrange

section Assemble

def flatten (start : Nat) : List Piece → List Block
  | [] => []
  | [p] => [⟨p.kind, none, p.fields⟩]
  | p :: ps => ⟨p.kind, some (start + 1), p.fields⟩ :: flatten (start + 1) ps

theorem flatten_cons (start : Nat) (p : Piece) (ps : List Piece) :
    flatten start (p :: ps) =
      ⟨p.kind, if ps = [] then none else some (start + 1), p.fields⟩ :: flatten (start + 1) ps := by
  cases ps with
  | nil => rfl
  | cons next ps => rfl

theorem foldl_appendPiece (old : List Block) (heads : List Nat) (p : Piece) (ps : List Piece) :
    (ps.foldl (fun s p => appendPiece s.1 s.2 p)
      (⟨old ++ [⟨p.kind, none, p.fields⟩], heads⟩, some old.length)).1 =
        ⟨old ++ flatten old.length (p :: ps), heads⟩ := by
  induction ps generalizing old p with
  | nil => rfl
  | cons next ps ih =>
    let b : Block := ⟨p.kind, some (old.length + 1), p.fields⟩
    have turn : appendPiece ⟨old ++ [⟨p.kind, none, p.fields⟩], heads⟩ (some old.length) next =
        (⟨(old ++ [b]) ++ [⟨next.kind, none, next.fields⟩], heads⟩, some (old ++ [b]).length) := by
      simp only [appendPiece, Workspace.push, List.append_assoc, List.singleton_append,
        Workspace.modify_append_cons, List.length_append, List.length_singleton]
      rfl
    rw [List.foldl_cons, turn, ih]
    simp [flatten, b]

theorem append_eq {ws : Workspace} {chain : Chain} (nonempty : chain.pieces ≠ []) :
    append ws chain =
      ⟨ws.blocks ++ flatten ws.blocks.length chain.pieces, ws.heads ++ [ws.blocks.length]⟩ := by
  rw [append]
  cases pieces : chain.pieces with
  | nil => exact absurd pieces nonempty
  | cons p ps => exact foldl_appendPiece ws.blocks (ws.heads ++ [ws.blocks.length]) p ps

theorem flatten_eq (start : Nat) (ps : List Piece) :
    flatten start ps = List.zipWith Block.carrying
      (Workspace.linked start (ps.map Piece.kind)) (ps.map Piece.fields) := by
  induction ps generalizing start with
  | nil => rfl
  | cons p ps ih =>
    rw [flatten_cons, ih, List.map_cons, Workspace.linked_cons, List.map_cons,
      List.zipWith_cons_cons]
    simp only [List.map_eq_nil_iff]
    rfl

variable {chains : List Chain}

def drawn (chains : List Chain) : Workspace :=
  (Workspace.ofChains (chains.map Chain.kinds)).carrying
    ((chains.flatMap Chain.pieces).map Piece.fields)

theorem flatten_kinds (chains : List Chain) :
    (chains.map Chain.kinds).flatten = (chains.flatMap Chain.pieces).map Piece.kind := by
  rw [List.map_flatMap, List.flatMap_def]
  rfl

theorem length_fields (chains : List Chain) :
    ((chains.flatMap Chain.pieces).map Piece.fields).length =
      (Workspace.ofChains (chains.map Chain.kinds)).blocks.length := by
  have kinds := congrArg List.length (Workspace.kinds_ofChains (chains.map Chain.kinds))
  rw [flatten_kinds, List.length_map, List.length_map] at kinds
  rw [List.length_map, kinds]

theorem append_carrying {ws : Workspace} {fields : List Fields} {chain : Chain}
    (same : fields.length = ws.blocks.length) (nonempty : chain.pieces ≠ []) :
    append (ws.carrying fields) chain =
      (ws.pushChain chain.kinds).2.carrying (fields ++ chain.pieces.map Piece.fields) := by
  have nonempty' : chain.kinds ≠ [] := by simpa [Chain.kinds] using nonempty
  rw [append_eq nonempty, Workspace.length_carrying same, flatten_eq, Workspace.carrying,
    Workspace.carrying, Workspace.blocks_pushChain, Workspace.heads_pushChain nonempty',
    List.zipWith_append same.symm]
  rfl

theorem assemble_eq (nonempty : ∀ c ∈ chains, c.pieces ≠ []) : assemble chains = drawn chains := by
  induction chains using List.reverseRecOn with
  | nil => rfl
  | append_singleton chains c ih =>
    have before := ih fun c member => nonempty c (List.mem_append_left _ member)
    rw [assemble, List.foldl_append]
    change append (assemble chains) c = _
    rw [before, drawn, append_carrying (length_fields chains) (nonempty c (by simp)), drawn]
    simp [Workspace.ofChains_concat]

end Assemble

section Load

variable {chains : List Chain}

theorem inRange_unbounded (n : Int64) : (Field.unbounded n).inRange = true := by
  simp [Field.inRange, Field.unbounded]

structure Readable (chains : List Chain) : Prop where
  nonempty : ∀ c ∈ chains, c.pieces ≠ []
  fields : ∀ c ∈ chains, ∀ p ∈ c.pieces, ∀ entry ∈ p.fields.entries, entry.2.inRange = true

theorem Draws.readable {doc : Json} (draws : Draws doc chains) : Readable chains := by
  constructor
  · intro c member
    obtain ⟨v, unrolls⟩ := draws.unrolled c member
    exact unrolls.nonempty
  · rintro c member p inside ⟨name, f⟩ entry
    obtain ⟨v, unrolls⟩ := draws.unrolled c member
    obtain ⟨w, is⟩ := unrolls.read p inside
    obtain ⟨n, -, rfl⟩ := (mem_fields_iff is).1 entry
    exact inRange_unbounded n

theorem Readable.of_perm {arranged : List Chain} (readable : Readable chains)
    (perm : arranged.Perm chains) : Readable arranged :=
  ⟨fun c member => readable.nonempty c (perm.mem_iff.1 member),
    fun c member => readable.fields c (perm.mem_iff.1 member)⟩

def FirstBlank (pieces : List Piece) (i : Nat) : Prop :=
  (∃ p, pieces[i]? = some p ∧ Text.allBlank p.kind = true) ∧
    ∀ j < i, ∀ p, pieces[j]? = some p → Text.allBlank p.kind = false

/-- Loading chains in this order gives the workspace they draw, or refuses the first blank kind. The
workspace has the blocks of the chains one after another, and a walk goes through all of them. -/
structure Flattens (chains : List Chain) (result : Except Defect Workspace) : Prop where
  accepts : ∀ ws, result = .ok ws ↔
    ws = drawn chains ∧ ∀ p ∈ chains.flatMap Chain.pieces, Text.allBlank p.kind = false
  refuses : ∀ d, result = .error d ↔
    ∃ i, d = .blankKind i ∧ FirstBlank (chains.flatMap Chain.pieces) i
  kinds : (drawn chains).blocks.map Block.kind = (chains.flatMap Chain.pieces).map Piece.kind
  fields : (drawn chains).blocks.map Block.fields = (chains.flatMap Chain.pieces).map Piece.fields
  walks : (drawn chains).walk = .ok (chains.map Chain.kinds).flatten
  routes : (drawn chains).Chained (chains.map Chain.kinds)

theorem firstBlank_iff {pieces : List Piece} {i : Nat} :
    (pieces.findIdx? fun p => Text.allBlank p.kind) = some i ↔ FirstBlank pieces i := by
  rw [List.findIdx?_eq_some_iff_getElem]
  constructor
  · rintro ⟨inside, blank, before⟩
    refine ⟨⟨_, List.getElem?_eq_getElem inside, blank⟩, fun j lt p here => ?_⟩
    obtain ⟨_, rfl⟩ := List.getElem?_eq_some_iff.1 here
    simpa using before j lt
  · rintro ⟨⟨p, here, blank⟩, before⟩
    obtain ⟨inside, rfl⟩ := List.getElem?_eq_some_iff.1 here
    refine ⟨inside, blank, fun j lt => ?_⟩
    simpa using before j lt _ (List.getElem?_eq_getElem (Nat.lt_trans lt inside))

theorem kinds_drawn (chains : List Chain) :
    (drawn chains).blocks.map Block.kind = (chains.flatMap Chain.pieces).map Piece.kind := by
  rw [drawn, Workspace.map_carrying (length_fields chains) fun _ _ => rfl,
    Workspace.kinds_ofChains, flatten_kinds]

theorem fields_drawn (chains : List Chain) :
    (drawn chains).blocks.map Block.fields = (chains.flatMap Chain.pieces).map Piece.fields :=
  Workspace.fields_carrying (length_fields chains)

theorem Readable.kinds_nonempty (readable : Readable chains) :
    ∀ kinds ∈ chains.map Chain.kinds, kinds ≠ [] := by
  intro kinds member
  obtain ⟨c, inside, rfl⟩ := List.mem_map.1 member
  simpa [Chain.kinds] using readable.nonempty c inside

theorem Readable.inRange (readable : Readable chains) :
    ∀ b ∈ (drawn chains).blocks, ∀ entry ∈ b.fields.entries, entry.2.inRange = true := by
  intro b member
  have carried := List.mem_map_of_mem (f := Block.fields) member
  rw [fields_drawn] at carried
  obtain ⟨p, inside, same⟩ := List.mem_map.1 carried
  obtain ⟨c, inside, member⟩ := List.mem_flatMap.1 inside
  rw [← same]
  exact readable.fields c inside p member

theorem checked_drawn (readable : Readable chains) :
    (drawn chains).checked =
      match (chains.flatMap Chain.pieces).findIdx? fun p => Text.allBlank p.kind with
      | none => .ok (drawn chains)
      | some i => .error (.blankKind i) := by
  have bounded : (drawn chains).Bounded :=
    Workspace.bounded_carrying (length_fields chains)
      (Workspace.bounded_ofChains readable.kinds_nonempty)
  have kinds : ((drawn chains).blocks.findIdx? fun b => Text.allBlank b.kind) =
      (chains.flatMap Chain.pieces).findIdx? fun p => Text.allBlank p.kind := by
    have same := congrArg (List.findIdx? Text.allBlank) (kinds_drawn chains)
    rwa [List.findIdx?_map, List.findIdx?_map] at same
  rw [Workspace.checked, Workspace.validate_of_bounded bounded readable.inRange, kinds]
  cases (chains.flatMap Chain.pieces).findIdx? fun p => Text.allBlank p.kind <;> rfl

theorem flattens_checked (readable : Readable chains) :
    Flattens chains (assemble chains).checked := by
  have routes : (drawn chains).Chained (chains.map Chain.kinds) :=
    Workspace.chained_carrying (length_fields chains)
      (Workspace.chained_ofChains readable.kinds_nonempty)
  rw [assemble_eq readable.nonempty, checked_drawn readable]
  refine ⟨fun ws => ?_, fun d => ?_, kinds_drawn chains, fields_drawn chains, routes.walk, routes⟩
  · cases first : (chains.flatMap Chain.pieces).findIdx? fun p => Text.allBlank p.kind with
    | none =>
      have named := List.findIdx?_eq_none_iff.1 first
      exact ⟨fun same => ⟨(Except.ok.inj same).symm, named⟩, fun same => by rw [same.1]⟩
    | some i =>
      obtain ⟨⟨p, here, blank⟩, -⟩ := firstBlank_iff.1 first
      refine ⟨nofun, fun ⟨_, named⟩ => ?_⟩
      rw [named p (List.mem_of_getElem? here)] at blank
      cases blank
  · simp only [← firstBlank_iff]
    cases (chains.flatMap Chain.pieces).findIdx? fun p => Text.allBlank p.kind with
    | none => simp
    | some i => simp [eq_comm]

/-- An editor document that can be read gives its chains one after another. -/
theorem load_flattens {text : String} {doc : Json} (reads : Json.parse? text = some doc)
    (decodes : chains? doc = some chains) :
    Draws doc chains ∧
      (∀ v p, piece? v = some p → ∀ name f, (name, f) ∈ p.fields.entries ↔
        ∃ n, SaysInteger v name n ∧ f = .unbounded n) ∧
      Flattens (arrange Chain.scanKey chains) (load text) ∧
      ∀ key : Chain → Int, Arranged key chains (arrange key chains) ∧
        Flattens (arrange key chains) (assemble (arrange key chains)).checked := by
  have draws := draws_of_chains? decodes
  have flattens (key : Chain → Int) :
      Flattens (arrange key chains) (assemble (arrange key chains)).checked :=
    flattens_checked (draws.readable.of_perm (arranged_arrange key chains).perm)
  refine ⟨draws, fun v p is name f => mem_fields_iff is, ?_, fun key =>
    ⟨arranged_arrange key chains, flattens key⟩⟩
  rw [load, reads, Option.bind_some, decodes]
  exact flattens Chain.scanKey

def sketch : String :=
  "\x7b\"blocks\":\x7b\"blocks\":[\x7b\"type\":\"rotate\"," ++
    "\"fields\":\x7b\"n\":3,\"s\":\"x\"\x7d," ++
    "\"next\":\x7b\"block\":\x7b\"type\":\"land\"\x7d\x7d\x7d]\x7d\x7d"

def landing : Json := .record [("type", .string "land")]

def flip : Json :=
  .record [("type", .string "rotate"), ("fields", .record [("n", .nat 3), ("s", .string "x")]),
    ("next", .record [("block", landing)])]

def flipPiece : Piece := ⟨"rotate", Fields.ofEntries [("n", .unbounded 3)]⟩

def sketched : List Chain := [⟨none, none, [flipPiece, ⟨"land", .empty⟩]⟩]

theorem load_sketch :
    ∃ doc, Json.parse? sketch = some doc ∧ chains? doc = some sketched ∧
      load sketch = .ok (drawn sketched) ∧ (drawn sketched).walk = .ok ["rotate", "land"] := by
  have reads : Json.parse? sketch =
      some (.record [("blocks", .record [("blocks", .array [flip])])]) := rfl
  have landed : Unrolls landing [⟨"land", .empty⟩] := .last rfl rfl rfl
  have flipped : Unrolls flip [flipPiece, ⟨"land", .empty⟩] := .next rfl rfl rfl landed
  have head : chain? flip = some ⟨none, none, [flipPiece, ⟨"land", .empty⟩]⟩ :=
    chain?_eq_some_iff.2 ⟨rfl, flipped⟩
  have decodes : chains? (.record [("blocks", .record [("blocks", .array [flip])])]) =
      some sketched := by
    change [flip].mapM chain? = _
    rw [List.mapM_cons, head]
    rfl
  have alone : arrange Chain.scanKey sketched = sketched := List.mergeSort_singleton _
  obtain ⟨-, -, loads, -⟩ := load_flattens reads decodes
  rw [alone] at loads
  exact ⟨_, reads, decodes, (loads.accepts _).2 ⟨rfl, by decide⟩, loads.walks⟩

end Load

end Canvas

end FlightBlocks
