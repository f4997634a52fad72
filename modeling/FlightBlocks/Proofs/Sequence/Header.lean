import FlightBlocks.Proofs.Sequence.Declaration
import FlightBlocks.Sequence.Header
/-!
Patching a header is a lens on its first declaration. The declaration put in is the one found
again, the one found can be put back, the last one put in counts, and the rest of the header
stays as it is.
-/

namespace FlightBlocks.Declaration

def Single (text : String) : Prop := range? text = some (0, text.utf8ByteSize)

def all (cs : List Char) : List String :=
  match _h : cut? cs with
  | none => []
  | some cut => String.ofList cut.declaration :: all cut.after
termination_by cs.length
decreasing_by
  obtain ⟨split, declares, -⟩ := cut?_splits ‹_›
  obtain ⟨_, tail, -, -, first⟩ := declares.exists_core
  rw [split, first]
  simp only [List.length_append, List.length_cons]
  omega

theorem utf8Length_toList (s : String) : utf8Length s.toList = s.utf8ByteSize := by
  obtain ⟨cs, rfl⟩ : ∃ cs, s = String.ofList cs := ⟨s.toList, String.ofList_toList.symm⟩
  rw [String.toList_ofList]
  induction cs with
  | nil => rfl
  | cons c cs ih =>
    have split : String.ofList (c :: cs) = String.singleton c ++ String.ofList cs := by
      rw [← String.toList_inj]
      simp
    rw [split, String.utf8ByteSize_append, String.utf8ByteSize_singleton, ← ih]
    simp [utf8Length]

theorem extract_middle (before middle after : String) :
    (before ++ (middle ++ after)).toUTF8.extract before.utf8ByteSize
      (before.utf8ByteSize + middle.utf8ByteSize) = middle.toUTF8 := by
  simp only [String.toUTF8_eq_toByteArray, String.toByteArray_append]
  have later := ByteArray.extract_append_size_add (a := before.toByteArray)
    (b := middle.toByteArray ++ after.toByteArray) (i := 0) (j := middle.utf8ByteSize)
  rw [Nat.add_zero] at later
  exact later.trans (ByteArray.extract_append_eq_left rfl)

/-- A text cut at its first declaration, as texts. -/
structure Splits (text before declaration after : String) : Prop where
  whole : text = before ++ (declaration ++ after)
  cut : cut? text.toList = some ⟨before.toList, declaration.toList, after.toList⟩

theorem exists_splits {text : String} {cut : Cut} (found : cut? text.toList = some cut) :
    Splits text (String.ofList cut.before) (String.ofList cut.declaration)
      (String.ofList cut.after) := by
  refine ⟨?_, by simp [found]⟩
  rw [← String.toList_inj]
  simpa using (cut?_splits found).1

theorem range?_eq_some_iff {text : String} {start stop : Nat} :
    range? text = some (start, stop) ↔ ∃ before declaration after,
      Splits text before declaration after ∧ start = before.utf8ByteSize ∧
        stop = before.utf8ByteSize + declaration.utf8ByteSize := by
  unfold range?
  constructor
  · intro found
    obtain ⟨cut, cutAt, ends⟩ := Option.map_eq_some_iff.1 found
    obtain ⟨rfl, rfl⟩ := Prod.mk.inj ends
    refine ⟨_, _, _, exists_splits cutAt, ?_, ?_⟩ <;> simp [← utf8Length_toList]
  · rintro ⟨before, declaration, after, splits, rfl, rfl⟩
    simp [splits.cut, utf8Length_toList]

theorem range?_eq_none_iff {text : String} : range? text = none ↔ cut? text.toList = none := by
  simp [range?]

section

variable {text before declaration after : String}

theorem Splits.declares (splits : Splits text before declaration after) :
    Declares declaration.toList := (cut?_splits splits.cut).2.1

theorem Splits.range? (splits : Splits text before declaration after) :
    range? text =
      some (before.utf8ByteSize, before.utf8ByteSize + declaration.utf8ByteSize) :=
  range?_eq_some_iff.2 ⟨before, declaration, after, splits, rfl, rfl⟩

theorem Splits.extract_before (splits : Splits text before declaration after) :
    text.toUTF8.extract 0 before.utf8ByteSize = before.toUTF8 := by
  rw [splits.whole]
  exact ByteArray.extract_append_eq_left rfl

theorem Splits.extract_declaration (splits : Splits text before declaration after) :
    text.toUTF8.extract before.utf8ByteSize
      (before.utf8ByteSize + declaration.utf8ByteSize) = declaration.toUTF8 := by
  rw [splits.whole]
  exact extract_middle before declaration after

theorem Splits.extract_after (splits : Splits text before declaration after) :
    text.toUTF8.extract (before.utf8ByteSize + declaration.utf8ByteSize) text.utf8ByteSize =
      after.toUTF8 := by
  rw [splits.whole, ← String.append_assoc, ← String.utf8ByteSize_append]
  exact ByteArray.extract_append_eq_right rfl (String.utf8ByteSize_append)

theorem Splits.replace (splits : Splits text before declaration after) {literal : String}
    (declares : Declares literal.toList) :
    Splits (before ++ (literal ++ after)) before literal after := by
  obtain ⟨-, first, free⟩ := cut?_splits splits.cut
  refine ⟨rfl, ?_⟩
  simpa using cut?_of_free declares (free.replace first declares)

theorem Splits.ne_empty (splits : Splits text before declaration after) : text ≠ "" := by
  rintro rfl
  cases splits.cut

theorem Splits.of_declares (declares : Declares text.toList) : Splits text "" text "" := by
  refine ⟨by simp, ?_⟩
  simpa using cut?_of_free declares (Free.nil (text.toList ++ []))

theorem single_iff_declares : Single text ↔ Declares text.toList := by
  constructor
  · intro single
    obtain ⟨before, declaration, after, splits, none, all⟩ := range?_eq_some_iff.1 single
    obtain rfl : before = "" := String.utf8ByteSize_eq_zero_iff.1 none.symm
    have sizes := congrArg String.utf8ByteSize splits.whole
    simp only [String.utf8ByteSize_append] at sizes
    obtain rfl : after = "" := String.utf8ByteSize_eq_zero_iff.1 (by omega)
    simpa [splits.whole] using splits.declares
  · intro declares
    simpa [Single] using (Splits.of_declares declares).range?

theorem isWhole_iff_declares {cs : List Char} : isWhole cs = true ↔ Declares cs := by
  unfold isWhole
  constructor
  · intro whole
    split at whole
    · cases whole
    next cut found =>
      obtain ⟨split, declares, -⟩ := cut?_splits found
      obtain ⟨before, after⟩ := Bool.and_eq_true_iff.1 whole
      rw [List.isEmpty_iff.1 before, List.isEmpty_iff.1 after] at split
      simpa [split] using declares
  · intro declares
    have found := cut?_of_free declares (Free.nil (cs ++ []))
    simp only [List.nil_append, List.append_nil] at found
    simp [found]

theorem Splits.all_eq (splits : Splits text before declaration after) :
    all text.toList = declaration :: all after.toList := by
  rw [all]
  split
  next missing => cases splits.cut.symm.trans missing
  next cut found =>
    obtain rfl := Option.some.inj (splits.cut.symm.trans found)
    simp

end

end FlightBlocks.Declaration

namespace FlightBlocks.Header

open Declaration

theorem range?_default : range? default ≠ none := by
  -- one line of the header alone is searched: the whole of it takes seconds
  obtain ⟨front, line, rest, whole, begins⟩ : ∃ front line rest, default = front ++ line ++ rest ∧
      (rest? (line.toList.drop 38)).isSome = true := ⟨_, _, _, rfl, by decide +kernel⟩
  obtain ⟨after, found⟩ := Option.isSome_iff_exists.1 begins
  obtain ⟨d, declares, split⟩ := declares_of_rest? found
  have around : default.toList =
      front.toList ++ line.toList.take 38 ++ (d ++ (after ++ rest.toList)) := by
    rw [← List.append_assoc d, ← split, whole]
    simp only [String.toList_append, List.append_assoc]
    rw [← List.append_assoc (line.toList.take 38), List.take_append_drop]
  rw [Ne, range?_eq_none_iff, around]
  exact cut?_ne_none declares

theorem orDefault_of_ne_empty {text : String} (nonempty : text ≠ "") :
    orDefault (some text) = text := by
  rw [orDefault, if_neg (by simpa using nonempty)]

theorem orDefault_eq_default_or (existing : Option String) :
    orDefault existing = default ∨ ∃ text, existing = some text ∧ text ≠ "" ∧
      orDefault existing = text := by
  cases existing with
  | none => exact .inl rfl
  | some text =>
    by_cases empty : text = ""
    · exact .inl (by simp [orDefault, empty])
    · exact .inr ⟨text, rfl, empty, orDefault_of_ne_empty empty⟩

theorem range?_orDefault_eq_none_iff {existing : Option String} :
    range? (orDefault existing) = none ↔
      ∃ text, existing = some text ∧ text ≠ "" ∧ range? text = none := by
  constructor
  · intro none
    rcases orDefault_eq_default_or existing with eq | ⟨text, is, nonempty, eq⟩
    · exact absurd (eq ▸ none) range?_default
    · exact ⟨text, is, nonempty, eq ▸ none⟩
  · rintro ⟨text, rfl, nonempty, none⟩
    rw [orDefault_of_ne_empty nonempty, none]

theorem orDefault_of_splits {text before declaration after : String}
    (splits : Splits text before declaration after) : orDefault (some text) = text :=
  orDefault_of_ne_empty splits.ne_empty

theorem patch_of_not_single {existing : Option String} {literal : String}
    (no : ¬ Single literal) : patch existing literal = .error (.notDeclaration literal) := by
  rw [single_iff_declares, ← isWhole_iff_declares] at no
  rw [patch, if_neg no]

theorem patch_of_none {existing : Option String} {literal : String} (single : Single literal)
    (none : range? (orDefault existing) = none) :
    patch existing literal = .error (.mismatch pattern) := by
  rw [single_iff_declares, ← isWhole_iff_declares] at single
  rw [patch, if_pos single, range?_eq_none_iff.1 none]

theorem patch_of_splits {existing : Option String} {literal before declaration after : String}
    (single : Single literal) (splits : Splits (orDefault existing) before declaration after) :
    patch existing literal = .ok (before ++ (literal ++ after)) := by
  rw [single_iff_declares, ← isWhole_iff_declares] at single
  rw [patch, if_pos single, splits.cut]
  simp

theorem patch_eq_ok {existing : Option String} {literal patched : String}
    (ok : patch existing literal = .ok patched) : ∃ before declaration after,
      Splits (orDefault existing) before declaration after ∧
        Splits patched before literal after := by
  by_cases single : Single literal
  · cases found : cut? (orDefault existing).toList with
    | none => rw [patch_of_none single (range?_eq_none_iff.2 found)] at ok; cases ok
    | some cut =>
      have splits := exists_splits found
      rw [patch_of_splits single splits] at ok
      cases ok
      exact ⟨_, _, _, splits, splits.replace (single_iff_declares.1 single)⟩
  · rw [patch_of_not_single single] at ok
    cases ok

theorem patch_get {header before declaration after : String}
    (splits : Splits header before declaration after) :
    patch (some header) declaration = .ok header := by
  have same : Splits (orDefault (some header)) before declaration after := by
    rwa [orDefault_of_splits splits]
  rw [patch_of_splits (single_iff_declares.2 splits.declares) same, splits.whole]

theorem patch_patched {existing : Option String} {literal other before declaration after : String}
    (single : Single literal) (again : Single other)
    (splits : Splits (orDefault existing) before declaration after) :
    patch (some (before ++ (literal ++ after))) other = patch existing other := by
  have patched := splits.replace (single_iff_declares.1 single)
  have same : Splits (orDefault (some (before ++ (literal ++ after)))) before literal after := by
    rwa [orDefault_of_splits patched]
  rw [patch_of_splits again same, patch_of_splits again splits]

theorem patch_again {existing : Option String} {literal patched other : String}
    (ok : patch existing literal = .ok patched) (again : Single other) :
    ∃ text, text ≠ "" ∧ patch existing other = .ok text ∧
      patch (some patched) other = .ok text := by
  obtain ⟨before, declaration, after, splits, splits'⟩ := patch_eq_ok ok
  have replaced := splits.replace (single_iff_declares.1 again)
  have same : Splits (orDefault (some patched)) before literal after := by
    rwa [orDefault_of_splits splits']
  exact ⟨_, replaced.ne_empty, patch_of_splits again splits, patch_of_splits again same⟩

/-- Patching reads and replaces the first declaration of a header, and that alone. -/
theorem patch_is_lens (existing : Option String) :
    (∀ literal, ¬ Single literal → patch existing literal = .error (.notDeclaration literal)) ∧
      (range? (orDefault existing) = none ↔
        ∃ text, existing = some text ∧ text ≠ "" ∧ range? text = none) ∧
      (range? (orDefault existing) = none →
        ∀ literal, Single literal → patch existing literal = .error (.mismatch pattern)) ∧
      ∀ header start stop, header = orDefault existing → range? header = some (start, stop) →
        (∃ first, first.toUTF8 = header.toUTF8.extract start stop ∧
          (all header.toList).head? = some first ∧ patch (some header) first = .ok header) ∧
        ∀ literal, Single literal → ∃ patched, patch existing literal = .ok patched ∧
          patched.toUTF8 = header.toUTF8.extract 0 start ++ literal.toUTF8 ++
            header.toUTF8.extract stop header.utf8ByteSize ∧
          range? patched = some (start, start + literal.utf8ByteSize) ∧
          all patched.toList = literal :: (all header.toList).tail ∧
          ∀ other, Single other → patch (some patched) other = patch existing other := by
  refine ⟨fun _ => patch_of_not_single, range?_orDefault_eq_none_iff,
    fun none _ single => patch_of_none single none, ?_⟩
  rintro header start stop rfl found
  obtain ⟨before, declaration, after, splits, rfl, rfl⟩ := range?_eq_some_iff.1 found
  refine ⟨⟨declaration, splits.extract_declaration.symm, by simp [splits.all_eq],
    patch_get splits⟩, ?_⟩
  intro literal single
  have patched := splits.replace (single_iff_declares.1 single)
  refine ⟨_, patch_of_splits single splits, ?_, patched.range?, ?_, ?_⟩
  · rw [splits.extract_before, splits.extract_after]
    simp [String.toByteArray_append, ByteArray.append_assoc]
  · rw [patched.all_eq, splits.all_eq]
    simp
  · intro other again
    exact patch_patched single again splits

def halfHeader : String :=
  "Direction_t Direction_t\u00a0direction_sequence[] =\n\x7bRIGHT\x7d;" ++
  "Direction_t direction_sequence[] = \x7b"

def flipLiteral : String := "Direction_t direction_sequence[]=\x7bFLIP\x7d;"

theorem patch_halfHeader :
    range? halfHeader = some (12, 56) ∧ Single flipLiteral ∧ ¬ Single "$0" ∧
      patch (some halfHeader) "$0" = .error (.notDeclaration "$0") ∧
      patch (some "int main() \x7b\x7d") flipLiteral = .error (.mismatch pattern) ∧
      ∃ patched, patch (some halfHeader) flipLiteral = .ok patched ∧
        range? patched = some (12, 12 + 40) := by
  have found : range? halfHeader = some (12, 56) := by decide +kernel
  have single : Single flipLiteral := by unfold Single; decide +kernel
  have no : ¬ Single "$0" := by unfold Single; decide +kernel
  have none : range? (orDefault (some "int main() \x7b\x7d")) = none := by decide +kernel
  have lens := patch_is_lens (some halfHeader)
  obtain ⟨patched, ok, -, again, -⟩ := (lens.2.2.2 halfHeader 12 56 rfl found).2 flipLiteral single
  exact ⟨found, single, no, lens.1 "$0" no,
    (patch_is_lens (some "int main() \x7b\x7d")).2.2.1 none flipLiteral single, patched, ok, again⟩

end FlightBlocks.Header
