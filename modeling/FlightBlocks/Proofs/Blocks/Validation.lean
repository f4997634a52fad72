import FlightBlocks.Blocks.Workspace
/-!
What a check of a workspace finds. It accepts a workspace when no head and no link leads astray,
every kind is named and every field is in its range. Where only the kinds are in doubt, the first
blank one is found.
-/

namespace FlightBlocks.Workspace

/-- Neither a head nor a link leads to an index without a block. -/
structure Bounded (ws : Workspace) : Prop where
  heads : ∀ head ∈ ws.heads, head < ws.blocks.length
  links : ∀ b ∈ ws.blocks, ∀ n, b.next = some n → n < ws.blocks.length

theorem forM_cons {α ε : Type} (check : α → Except ε Unit) (a : α) (as : List α) :
    (a :: as).forM check = (check a).bind fun _ => as.forM check := rfl

theorem forM_of_ok {α ε : Type} {check : α → Except ε Unit} {as : List α}
    (passes : ∀ a ∈ as, check a = .ok ()) : as.forM check = .ok () := by
  induction as with
  | nil => rfl
  | cons a as ih =>
    rw [forM_cons, passes a List.mem_cons_self]
    exact ih fun b member => passes b (List.mem_cons_of_mem _ member)

theorem forM_eq_ok_iff {α ε : Type} {check : α → Except ε Unit} {as : List α} :
    as.forM check = .ok () ↔ ∀ a ∈ as, check a = .ok () := by
  refine ⟨fun passes => ?_, forM_of_ok⟩
  induction as with
  | nil => nofun
  | cons a as ih =>
    rw [forM_cons] at passes
    cases first : check a with
    | error d =>
      rw [first] at passes
      cases passes
    | ok u =>
      rw [first] at passes
      exact List.forall_mem_cons.2 ⟨first, ih passes⟩

theorem check_of_true {ok : Bool} (holds : ok = true) (d : Defect) : check ok d = .ok () := by
  rw [check, if_pos holds]

theorem check_eq_ok_iff {ok : Bool} {d : Defect} : check ok d = .ok () ↔ ok = true := by
  cases ok <;> simp [check]

theorem bind_eq_ok_iff {ε : Type} {first next : Except ε Unit} :
    (first.bind fun _ => next) = .ok () ↔ first = .ok () ∧ next = .ok () := by
  cases first <;> simp [Except.bind]

theorem checkBlock_eq_ok_iff {count i : Nat} {b : Block} :
    checkBlock count i b = .ok () ↔ Text.allBlank b.kind = false ∧
      (∀ n, b.next = some n → n < count) ∧
      ∀ entry ∈ b.fields.entries, entry.2.inRange = true := by
  have fields {d : String × Field → Defect} :
      (b.fields.entries.forM fun entry => check entry.2.inRange (d entry)) = .ok () ↔
        ∀ entry ∈ b.fields.entries, entry.2.inRange = true := by
    simp only [forM_eq_ok_iff, check_eq_ok_iff]
  unfold checkBlock
  simp only [bind, bind_eq_ok_iff, check_eq_ok_iff, Bool.not_eq_true']
  cases b.next with
  | none => simp only [fields, reduceCtorEq, false_implies, implies_true, true_and]
  | some n =>
    simp only [bind_eq_ok_iff, fields, check_eq_ok_iff, decide_eq_true_eq, Option.some.injEq,
      forall_eq']

theorem checkBlock_eq {count i : Nat} {b : Block} (link : ∀ n, b.next = some n → n < count)
    (fields : ∀ entry ∈ b.fields.entries, entry.2.inRange = true) :
    checkBlock count i b = check (!Text.allBlank b.kind) (.blankKind i) := by
  have within {d : String × Field → Defect} :
      ∀ entry ∈ b.fields.entries, check entry.2.inRange (d entry) = .ok () :=
    fun entry member => check_of_true (fields entry member) _
  unfold checkBlock
  rw [forM_of_ok within]
  cases next : b.next with
  | none => cases check (!Text.allBlank b.kind) (.blankKind i) <;> rfl
  | some n =>
    have lands : check (decide (n < count)) (.dangling n count) = .ok () :=
      check_of_true (decide_eq_true (link n next)) _
    simp only [lands]
    cases check (!Text.allBlank b.kind) (.blankKind i) <;> rfl

theorem forM_checkBlock {count : Nat} (blocks : List Block) (start : Nat)
    (links : ∀ b ∈ blocks, ∀ n, b.next = some n → n < count)
    (fields : ∀ b ∈ blocks, ∀ entry ∈ b.fields.entries, entry.2.inRange = true) :
    ((blocks.zipIdx start).forM fun (b, i) => checkBlock count i b) =
      match blocks.findIdx? fun b => Text.allBlank b.kind with
      | none => .ok ()
      | some i => .error (.blankKind (start + i)) := by
  induction blocks generalizing start with
  | nil => rfl
  | cons b blocks ih =>
    have rest := ih (start + 1) (fun b' member => links b' (List.mem_cons_of_mem _ member))
      fun b' member => fields b' (List.mem_cons_of_mem _ member)
    have first : checkBlock count start b = check (!Text.allBlank b.kind) (.blankKind start) :=
      checkBlock_eq (links b List.mem_cons_self) (fields b List.mem_cons_self)
    simp only [List.zipIdx_cons, forM_cons, first, rest, List.findIdx?_cons]
    cases blank : Text.allBlank b.kind with
    | true => rfl
    | false =>
      cases blocks.findIdx? fun b => Text.allBlank b.kind with
      | none => rfl
      | some i => simp [check, Except.bind, Nat.add_assoc, Nat.add_comm 1]

theorem validate_of_bounded {ws : Workspace} (bounded : Bounded ws)
    (fields : ∀ b ∈ ws.blocks, ∀ entry ∈ b.fields.entries, entry.2.inRange = true) :
    ws.validate =
      match ws.blocks.findIdx? fun b => Text.allBlank b.kind with
      | none => .ok ()
      | some i => .error (.blankKind i) := by
  have heads : (ws.heads.forM fun head =>
      check (head < ws.blocks.length) (.dangling head ws.blocks.length)) = .ok () :=
    forM_of_ok fun head member => check_of_true (decide_eq_true (bounded.heads head member)) _
  have blocks := forM_checkBlock ws.blocks 0 bounded.links fields
  simp only [Nat.zero_add] at blocks
  unfold validate
  simp only [heads, blocks]
  rfl

theorem forM_checkBlock_eq_ok_iff {count : Nat} (blocks : List Block) (start : Nat) :
    ((blocks.zipIdx start).forM fun (b, i) => checkBlock count i b) = .ok () ↔
      ∀ b ∈ blocks, Text.allBlank b.kind = false ∧ (∀ n, b.next = some n → n < count) ∧
        ∀ entry ∈ b.fields.entries, entry.2.inRange = true := by
  induction blocks generalizing start with
  | nil => exact ⟨nofun, fun _ => rfl⟩
  | cons b blocks ih =>
    rw [List.zipIdx_cons, forM_cons, bind_eq_ok_iff, ih, checkBlock_eq_ok_iff,
      List.forall_mem_cons]

/-- What a check accepts. Cycles are not looked for. -/
theorem validate_eq_ok_iff {ws : Workspace} :
    ws.validate = .ok () ↔ Bounded ws ∧ ∀ b ∈ ws.blocks, Text.allBlank b.kind = false ∧
      ∀ entry ∈ b.fields.entries, entry.2.inRange = true := by
  have heads : (ws.heads.forM fun head =>
      check (head < ws.blocks.length) (.dangling head ws.blocks.length)) = .ok () ↔
        ∀ head ∈ ws.heads, head < ws.blocks.length := by
    simp only [forM_eq_ok_iff, check_eq_ok_iff, decide_eq_true_eq]
  unfold validate
  simp only [bind, bind_eq_ok_iff, heads, forM_checkBlock_eq_ok_iff]
  constructor
  · rintro ⟨heads, blocks⟩
    exact ⟨⟨heads, fun b member => (blocks b member).2.1⟩,
      fun b member => ⟨(blocks b member).1, (blocks b member).2.2⟩⟩
  · rintro ⟨bounded, blocks⟩
    exact ⟨bounded.heads, fun b member =>
      ⟨(blocks b member).1, bounded.links b member, (blocks b member).2⟩⟩

end FlightBlocks.Workspace
