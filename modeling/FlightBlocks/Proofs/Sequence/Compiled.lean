import FlightBlocks.Proofs.Blocks.Chains
import FlightBlocks.Proofs.Sequence.Header
import FlightBlocks.Proofs.Sequence.Literal
import Mathlib.Data.List.Basic
/-!
What is compiled can be read back, and fits where it is put. The literal of a program has one pair
of braces, with the directives in between, and is one declaration whatever its blocks are called,
since nothing of their names gets into it but directives. So a header takes it in the place of its
first declaration and holds as many declarations afterwards as before.
-/

namespace FlightBlocks

open Declaration

theorem not_mem_body {c : Char} (absent : ∀ d : Directive, c ∉ d.token.toList) (comma : c ≠ ',')
    (blank : c ≠ ' ') (ds : List Directive) : c ∉ (body ds).toList := by
  induction ds with
  | nil => simp [body]
  | cons d ds ih =>
    cases ds with
    | nil => simpa [body] using absent d
    | cons d' ds => simp [toList_body_cons_cons, absent d, comma, blank, ih]

theorem opening_not_mem_body (ds : List Directive) : '{' ∉ (body ds).toList := by
  apply not_mem_body _ (by decide) (by decide)
  intro d
  cases d <;> decide

theorem closing_not_mem_body (ds : List Directive) : '}' ∉ (body ds).toList := by
  apply not_mem_body _ (by decide) (by decide)
  intro d
  cases d <;> decide

def Braced (text inner : List Char) : Prop :=
  ∃ before after, text = before ++ '{' :: (inner ++ '}' :: after)

def beforeBody : List Char := (sequenceType ++ " " ++ sequenceName ++ "[] = ").toList

theorem toList_literal (ds : List Directive) :
    (literal ds).toList = beforeBody ++ '{' :: ((body ds).toList ++ '}' :: [';']) := by
  simp [literal, beforeBody]

theorem braced_literal_iff {ds : List Directive} {inner : List Char} :
    Braced (literal ds).toList inner ↔ inner = (body ds).toList := by
  constructor
  · rintro ⟨before, after, same⟩
    rw [toList_literal] at same
    have first : '{' ∉ beforeBody := by decide
    have only : '{' ∉ (body ds).toList ++ '}' :: [';'] := by simp [opening_not_mem_body]
    have last : '}' ∉ [';'] := by decide
    obtain ⟨-, -, rest⟩ := (List.append_cons_inj_of_notMem first only).1 same
    obtain ⟨inside, -, -⟩ :=
      (List.append_cons_inj_of_notMem (closing_not_mem_body ds) last).1 rest
    exact inside.symm
  · rintro rfl
    exact ⟨beforeBody, [';'], toList_literal ds⟩

theorem declares_literal (ds : List Directive) : Declares (literal ds).toList := by
  have blank : Blank [' '] := by
    intro c member
    rw [List.mem_singleton.1 member]
    decide
  have headed := Heading.mk blank (List.cons_ne_nil _ _) blank blank
  have declares := Declares.mk headed (closing_not_mem_body ds)
  have same : (literal ds).toList =
      opening ++ ([' '] ++ (arrayName ++ ([' '] ++ ('=' :: ([' '] ++ ['{']))))) ++
        ((body ds).toList ++ ['}', ';']) := by
    simp [literal, opening, arrayName]
  rwa [same]

theorem single_literal (ds : List Directive) : Single (literal ds) :=
  single_iff_declares.2 (declares_literal ds)

theorem Program.literal_of_source {source : Option BlockSource} {program : Program}
    (compiled : ofSource source = .ok program) :
    program.literal = FlightBlocks.literal program.directives := by
  cases source with
  | none =>
    cases compiled
    rfl
  | some source =>
    unfold ofSource at compiled
    cases walked : source.walk with
    | error defect => simp [walked, Except.map] at compiled
    | ok kinds =>
      simp only [walked, Except.map, Except.ok.injEq] at compiled
      rw [← compiled]
      rfl

theorem Program.ofWorkspace_chain {kinds : List String} (nonempty : kinds ≠ []) :
    ofWorkspace (some (Workspace.chain kinds)) = .ok (ofKinds kinds) := by
  have chained := Workspace.chained_empty.pushChain nonempty
  have walked : (Workspace.chain kinds).walk = .ok kinds := chained.walk.trans (by simp)
  unfold Workspace.walk at walked
  simp only [ofWorkspace, ofSource, Option.map_some, walked, Except.map]

/-- What a literal has between its braces reads back as the directives that it was made of. So two
programs have the same literal exactly when they fly the same directives. -/
theorem literal_reads_back :
    (∀ ds : List Directive, (∃ inner, Braced (literal ds).toList inner) ∧
      ∀ inner, Braced (literal ds).toList inner → readBody inner = some ds) ∧
    Function.Injective literal ∧
    (∀ kinds kinds' : List String,
      (Program.ofKinds kinds).literal = (Program.ofKinds kinds').literal ↔
        (Program.ofKinds kinds).directives = (Program.ofKinds kinds').directives) ∧
    ∀ (source source' : Option BlockSource) (program program' : Program),
      Program.ofSource source = .ok program → Program.ofSource source' = .ok program' →
        (program.literal = program'.literal ↔ program.directives = program'.directives) := by
  have injective : Function.Injective literal := fun _ _ => literal_injective
  refine ⟨fun ds => ⟨⟨_, braced_literal_iff.2 rfl⟩, ?_⟩, injective, ?_, ?_⟩
  · intro inner braced
    rw [braced_literal_iff.1 braced]
    exact readBody_body ds
  · intro kinds kinds'
    exact injective.eq_iff
  · intro source source' program program' compiled compiled'
    rw [Program.literal_of_source compiled, Program.literal_of_source compiled']
    exact injective.eq_iff

theorem flips_read_alike :
    Program.ofSource (some (Workspace.chain ["take_off", "rotate"]).source) =
        .ok (Program.ofKinds ["take_off", "rotate"]) ∧
      Program.ofSource (some (Workspace.chain ["rotate", "hover"]).source) =
        .ok (Program.ofKinds ["rotate", "hover"]) ∧
      (Program.ofKinds ["take_off", "rotate"]).literal =
        (Program.ofKinds ["rotate", "hover"]).literal ∧
      ∃ inner, Braced (literal [.normal, .flip]).toList inner ∧
        readBody inner = some [.normal, .flip] := by
  have first := Program.ofWorkspace_chain (List.cons_ne_nil "take_off" ["rotate"])
  have second := Program.ofWorkspace_chain (List.cons_ne_nil "rotate" ["hover"])
  obtain ⟨reads, -, -, alike⟩ := literal_reads_back
  obtain ⟨⟨inner, braced⟩, back⟩ := reads [.normal, .flip]
  exact ⟨first, second, (alike _ _ _ _ first second).2 (by decide), inner, braced,
    back inner braced⟩

namespace Header

def Undeclared (existing : Option String) : Prop :=
  ∃ text, existing = some text ∧ text ≠ "" ∧ range? text = none

variable {existing : Option String}

theorem patch_of_undeclared (undeclared : Undeclared existing) (ds : List Directive) :
    patch existing (literal ds) = .error (.mismatch pattern) :=
  patch_of_none (single_literal ds) (range?_orDefault_eq_none_iff.2 undeclared)

theorem patch_of_declared (declared : ¬ Undeclared existing) (ds : List Directive) :
    ∃ patched, patch existing (literal ds) = .ok patched ∧
      all patched.toList = literal ds :: (all (orDefault existing).toList).tail ∧
      (all patched.toList).length = (all (orDefault existing).toList).length := by
  have found : range? (orDefault existing) ≠ none := mt range?_orDefault_eq_none_iff.1 declared
  obtain ⟨⟨start, stop⟩, found⟩ := Option.ne_none_iff_exists'.1 found
  obtain ⟨before, declaration, after, splits, -, -⟩ := range?_eq_some_iff.1 found
  have patched := splits.replace (declares_literal ds)
  refine ⟨_, patch_of_splits (single_literal ds) splits, ?_, ?_⟩
  · rw [patched.all_eq, splits.all_eq]
    rfl
  · rw [patched.all_eq, splits.all_eq]
    rfl

end Header

open Header in
/-- No blocks break out of the declaration that they are compiled to, and a header with a
declaration takes it for that one. -/
theorem compiled_is_one_declaration :
    (∀ kinds : List String, let literal := (Program.ofKinds kinds).literal
      range? literal = some (0, literal.utf8ByteSize)) ∧
    ∀ (source : Option BlockSource) (program : Program), Program.ofSource source = .ok program →
      ∀ existing : Option String,
        (∀ text, patch existing program.literal ≠ .error (.notDeclaration text)) ∧
        ((∃ form, patch existing program.literal = .error (.mismatch form)) ↔
          Undeclared existing) ∧
        (¬ Undeclared existing → ∃ patched, patch existing program.literal = .ok patched ∧
          all patched.toList = program.literal :: (all (orDefault existing).toList).tail ∧
          (all patched.toList).length = (all (orDefault existing).toList).length) := by
  refine ⟨fun kinds => single_literal _, ?_⟩
  intro source program compiled existing
  rw [Program.literal_of_source compiled]
  by_cases undeclared : Undeclared existing
  · have refused := patch_of_undeclared undeclared program.directives
    refine ⟨?_, ⟨fun _ => undeclared, fun _ => ⟨_, refused⟩⟩, fun declared => ?_⟩
    · intro text
      rw [refused]
      simp
    · exact absurd undeclared declared
  · have taken := patch_of_declared undeclared program.directives
    have ⟨patched, ok, _⟩ := taken
    refine ⟨?_, ⟨?_, fun given => absurd given undeclared⟩, fun _ => taken⟩
    · intro text
      rw [ok]
      simp
    · rintro ⟨form, refused⟩
      rw [ok] at refused
      cases refused

def hostileKinds : List String :=
  ["rotate", "\x7d;\nDirection_t direction_sequence[] = \x7bLEFT\x7d;", "forward_1s"]

open Header in
theorem hostileKinds_stay_inside :
    Program.ofSource (some (Workspace.chain hostileKinds).source) =
        .ok (Program.ofKinds hostileKinds) ∧
      ¬ Undeclared (some halfHeader) ∧
      ∃ patched, patch (some halfHeader) (Program.ofKinds hostileKinds).literal = .ok patched ∧
        (all patched.toList).length = (all halfHeader.toList).length := by
  have compiled : Program.ofSource (some (Workspace.chain hostileKinds).source) =
      .ok (Program.ofKinds hostileKinds) := Program.ofWorkspace_chain (by decide)
  have declared : ¬ Undeclared (some halfHeader) := by
    rintro ⟨text, same, -, none⟩
    cases same
    revert none
    decide +kernel
  obtain ⟨-, -, taken⟩ := compiled_is_one_declaration.2 _ _ compiled (some halfHeader)
  obtain ⟨patched, ok, -, number⟩ := taken declared
  exact ⟨compiled, declared, patched, ok, number⟩

end FlightBlocks
