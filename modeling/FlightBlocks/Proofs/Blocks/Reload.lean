import FlightBlocks.Proofs.Blocks.Canvas
import FlightBlocks.Proofs.Blocks.Snapshot
import FlightBlocks.Proofs.Json.Size
/-!
Every workspace that is accepted can be saved and loaded again. What is read from a snapshot has
indices of 64 bits because they are read as such, and what is read from an editor document because
a document has no more blocks than characters.
-/

namespace FlightBlocks

theorem Block.addressed_of_ofJson? {v : Json} {b : Block} (read : Block.ofJson? v = some b) :
    b.Addressed := by
  unfold ofJson? at read
  split at read
  next kind next fields members =>
    simp only [Option.bind_eq_bind, Option.bind_eq_some_iff, Option.pure_def,
      Option.some.injEq] at read
    obtain ⟨kind', -, link, linked, fields', -, rfl⟩ := read
    rintro n ⟨⟩
    rcases Json.orElse_cases linked with absent | ⟨w, linked⟩
    · cases absent
    · exact Json.lt_of_word? (Json.nullable_cases linked)
  next => cases read

namespace Workspace

variable {text : String} {ws : Workspace}

theorem addressed_of_ofJson? {v : Json} (read : Workspace.ofJson? v = some ws) : ws.Addressed := by
  unfold ofJson? at read
  split at read
  next blocks heads members =>
    simp only [Option.bind_eq_bind, Option.bind_eq_some_iff, Option.pure_def,
      Option.some.injEq] at read
    obtain ⟨blocks', readBlocks, heads', readHeads, rfl⟩ := read
    constructor
    · intro b member
      rcases Json.orElse_cases readBlocks with rfl | ⟨w, readBlocks⟩
      · cases member
      · obtain ⟨_, read⟩ := Json.items?_cases readBlocks member
        exact Block.addressed_of_ofJson? read
    · intro head member
      rcases Json.orElse_cases readHeads with rfl | ⟨w, readHeads⟩
      · cases member
      · obtain ⟨_, read⟩ := Json.items?_cases readHeads member
        exact Json.lt_of_word? read
  next => cases read

theorem checked_eq_ok_iff {ws' : Workspace} :
    ws.checked = .ok ws' ↔ ws.validate = .ok () ∧ ws' = ws := by
  rw [checked]
  cases ws.validate with
  | error d => simp [Except.map]
  | ok u => simp [Except.map, eq_comm]

theorem load_eq_ok (loads : load text = .ok ws) :
    decode text = .ok ws ∧ ws.validate = .ok () := by
  rw [load] at loads
  cases decoded : decode text with
  | error d =>
    rw [decoded] at loads
    cases loads
  | ok ws' =>
    rw [decoded] at loads
    obtain ⟨valid, rfl⟩ := checked_eq_ok_iff.1 loads
    exact ⟨rfl, valid⟩

theorem addressed_of_decode (decodes : decode text = .ok ws) : ws.Addressed := by
  unfold decode at decodes
  split at decodes
  next => cases decodes
  next ws' read =>
    cases decodes
    obtain ⟨v, -, read⟩ := Option.bind_eq_some_iff.1 read
    exact addressed_of_ofJson? read

theorem Bounded.addressed (bounded : ws.Bounded) (fits : ws.blocks.length ≤ UInt64.size) :
    ws.Addressed :=
  ⟨fun b member n link => Nat.lt_of_lt_of_le (bounded.links b member n link) fits,
    fun head member => Nat.lt_of_lt_of_le (bounded.heads head member) fits⟩

end Workspace

namespace Canvas

variable {v w : Json} {ps : List Piece}

theorem size_lt_of_linkTarget? {link : Json} (target : linkTarget? link = some (some v)) :
    v.size < link.size := by
  unfold linkTarget? at target
  split at target
  · cases target
  · split at target
    all_goals simp at target
    next found => exact Json.size_lt_of_members? found (by simp [target])

theorem size_lt_of_successor? (next : successor? v = some (some w)) : w.size < v.size := by
  unfold successor? at next
  split at next
  · cases next
  next found =>
    exact Nat.lt_trans (size_lt_of_linkTarget? next) (Json.size_lt_of_members? found (by simp))
  · cases next

theorem Unrolls.length_le_size (unrolls : Unrolls v ps) : ps.length ≤ v.size := by
  induction unrolls with
  | last => exact Json.size_pos _
  | next is stands next rest ih =>
    have inside := size_lt_of_successor? next
    rw [List.length_cons]
    omega

theorem Lists.length_le_size {doc : Json} {tops : List Json} (lists : Lists doc tops) :
    (tops.flatMap Json.itemPart).length ≤ doc.size := by
  obtain ⟨-, rfl⟩ | ⟨top, found, ⟨-, rfl⟩ | listed⟩ := lists
  · exact Nat.zero_le _
  · exact Nat.zero_le _
  · by_cases none : tops = []
    · rw [none]
      exact Nat.zero_le _
    · have blocks := Json.size_array none
      have inTop : (Json.array tops).size < top.size :=
        Json.size_lt_of_members? listed List.mem_cons_self
      have inDoc : top.size < doc.size := Json.size_lt_of_members? found List.mem_cons_self
      omega

theorem Draws.length_le_size {doc : Json} {chains : List Chain} (draws : Draws doc chains) :
    (chains.flatMap Chain.pieces).length ≤ doc.size := by
  obtain ⟨tops, lists, are⟩ := draws
  have part : (chains.flatMap Chain.pieces).length ≤ (tops.flatMap Json.itemPart).length := by
    clear lists
    induction are with
    | nil => exact Nat.le_refl 0
    | @cons v c tops chains is _ ih =>
      have head : c.pieces.length ≤ v.size := is.2.length_le_size
      rw [List.flatMap_cons, List.length_append, List.flatMap_cons, List.length_append,
        Json.length_itemPart]
      omega
  exact Nat.le_trans part lists.length_le_size

theorem valid_of_load {text : String} {ws : Workspace} (loads : load text = .ok ws) :
    ws.validate = .ok () := by
  unfold load at loads
  split at loads
  next => cases loads
  next =>
    obtain ⟨valid, rfl⟩ := Workspace.checked_eq_ok_iff.1 loads
    exact valid

/-- A document of fewer characters than there are indices draws no block without one. -/
theorem addressed_of_load {text : String} {ws : Workspace} (short : text.length ≤ UInt64.size)
    (loads : load text = .ok ws) : ws.Addressed := by
  unfold load at loads
  split at loads
  next => cases loads
  next chains read =>
    obtain ⟨doc, parsed, decodes⟩ := Option.bind_eq_some_iff.1 read
    obtain ⟨-, rfl⟩ := Workspace.checked_eq_ok_iff.1 loads
    have arranged := (arranged_arrange Chain.scanKey chains).perm
    have draws := draws_of_chains? decodes
    have readable := draws.readable.of_perm arranged
    rw [assemble_eq readable.nonempty]
    have bounded : (drawn (arrange Chain.scanKey chains)).Bounded :=
      Workspace.bounded_carrying (length_fields _)
        (Workspace.bounded_ofChains readable.kinds_nonempty)
    refine bounded.addressed ?_
    have blocks := congrArg List.length (kinds_drawn (arrange Chain.scanKey chains))
    have same := (arranged.flatMap_right Chain.pieces).length_eq
    have pieces := draws.length_le_size
    have characters := Json.size_le_of_parse? parsed
    rw [List.length_map, List.length_map] at blocks
    omega

end Canvas

namespace Workspace

theorem checked_of_valid {ws : Workspace} (valid : ws.validate = .ok ()) : ws.checked = .ok ws :=
  checked_eq_ok_iff.2 ⟨valid, rfl⟩

/-- A workspace comes back from its snapshot as it is, and is refused only for what its check
finds. So what has been accepted, from a snapshot or from an editor document, is accepted again.
An editor document is held in memory, so it has no more characters than there are indices. -/
theorem snapshot_restores :
    (∀ ws : Workspace, ws.Addressed →
      decode ws.save = .ok ws ∧
        (ws.validate = .ok () → load ws.save = .ok ws) ∧
        ∀ d, ws.validate = .error d → load ws.save = .error d) ∧
      (∀ text ws, load text = .ok ws → decode ws.save = .ok ws ∧ load ws.save = .ok ws) ∧
      ∀ (text : String) ws, text.length ≤ UInt64.size → Canvas.load text = .ok ws →
        decode ws.save = .ok ws ∧ load ws.save = .ok ws := by
  have restored {ws : Workspace} (addressed : ws.Addressed) (valid : ws.validate = .ok ()) :
      decode ws.save = .ok ws ∧ load ws.save = .ok ws :=
    ⟨decode_save addressed, (load_save addressed).trans (checked_of_valid valid)⟩
  refine ⟨fun ws addressed => ⟨decode_save addressed, fun valid => ?_, fun d invalid => ?_⟩,
    fun text ws loads => ?_, fun text ws short loads => ?_⟩
  · exact (restored addressed valid).2
  · rw [load_save addressed, checked, invalid]
    rfl
  · obtain ⟨decodes, valid⟩ := load_eq_ok loads
    exact restored (addressed_of_decode decodes) valid
  · exact restored (Canvas.addressed_of_load short loads) (Canvas.valid_of_load loads)

def awkward : Workspace :=
  ⟨[⟨"\"\\\n\x01é𝄞", some (UInt64.size - 1),
      Fields.ofEntries [("\t\x7f", ⟨0, Int64.minValue, Int64.maxValue⟩)]⟩], [0]⟩

def landingSketch : String :=
  "\x7b\"blocks\":\x7b\"blocks\":[\x7b\"type\":\"land\"\x7d]\x7d\x7d"

theorem load_landingSketch : Canvas.load landingSketch = .ok (chain ["land"]) := by
  have parsed : Json.parse? landingSketch = some (.record [("blocks", .record [("blocks",
      .array [.record [("type", .string "land")]])])]) := rfl
  have landed : Canvas.chain? (.record [("type", .string "land")]) =
      some ⟨none, none, [⟨"land", .empty⟩]⟩ :=
    Canvas.chain?_eq_some_iff.2 ⟨rfl, .last rfl rfl rfl⟩
  have decodes : Canvas.chains? (.record [("blocks", .record [("blocks",
      .array [.record [("type", .string "land")]])])]) =
        some [⟨none, none, [⟨"land", .empty⟩]⟩] := by
    change [Json.record [("type", .string "land")]].mapM Canvas.chain? = _
    rw [List.mapM_cons, landed]
    rfl
  have alone : Canvas.arrange Canvas.Chain.scanKey [⟨none, none, [⟨"land", .empty⟩]⟩] =
      [⟨none, none, [⟨"land", .empty⟩]⟩] := List.mergeSort_singleton _
  rw [Canvas.load, parsed, Option.bind_some, decodes]
  change (Canvas.assemble (Canvas.arrange _ _)).checked = _
  rw [alone]
  rfl

theorem addressed_awkward : awkward.Addressed := by
  constructor
  · intro b member n link
    cases List.mem_singleton.1 member
    cases link
    decide
  · intro head member
    cases List.mem_singleton.1 member
    decide

theorem snapshot_restores_awkward :
    decode awkward.save = .ok awkward ∧
      load awkward.save = .error (.dangling (UInt64.size - 1) 1) ∧
      decode (chain ["land"]).save = .ok (chain ["land"]) ∧
      load (chain ["land"]).save = .ok (chain ["land"]) := by
  obtain ⟨saves, again, draws⟩ := snapshot_restores
  have dangles : awkward.validate = .error (.dangling (UInt64.size - 1) 1) := rfl
  obtain ⟨decodes, -, refused⟩ := saves awkward addressed_awkward
  obtain ⟨-, accepted⟩ := draws landingSketch _ (by decide) load_landingSketch
  obtain ⟨restored, accepted'⟩ := again _ _ accepted
  exact ⟨decodes, refused _ dangles, restored, accepted'⟩

end Workspace

end FlightBlocks
