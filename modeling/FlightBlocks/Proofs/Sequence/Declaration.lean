import FlightBlocks.Sequence.Declaration
/-!
The form of a declaration, apart from how it is looked for. What the search finds at the beginning
of a text is exactly a piece of that form, and a text is cut at the first such piece in it.
-/

namespace FlightBlocks.Declaration

def Blank (cs : List Char) : Prop := ∀ c ∈ cs, Text.isBlank c = true

inductive Heading : List Char → Prop
  | mk {first second third : List Char} (blank₁ : Blank first) (some₁ : first ≠ [])
      (blank₂ : Blank second) (blank₃ : Blank third) :
      Heading (opening ++ (first ++ (arrayName ++ (second ++ ('=' :: (third ++ ['{']))))))

/-- A whole declaration; its body ends at the first closing brace. -/
inductive Declares : List Char → Prop
  | mk {heading body : List Char} (headed : Heading heading) (closed : '}' ∉ body) :
      Declares (heading ++ (body ++ ['}', ';']))

theorem after?_eq_some_iff {word cs rest : List Char} :
    after? word cs = some rest ↔ cs = word ++ rest := by
  unfold after?
  constructor
  · intro found
    split at found
    next begins =>
      obtain ⟨tail, rfl⟩ := List.isPrefixOf_iff_prefix.1 begins
      simpa using found
    next => cases found
  · rintro rfl
    simp

theorem takeWhile_blank {gap rest : List Char} {c : Char} (blank : Blank gap)
    (stop : Text.isBlank c = false) : (gap ++ c :: rest).takeWhile Text.isBlank = gap := by
  rw [List.takeWhile_append_of_pos blank, List.takeWhile_cons_of_neg (by simp [stop]),
    List.append_nil]

theorem skipBlanks_append {gap rest : List Char} {c : Char} (blank : Blank gap)
    (stop : Text.isBlank c = false) : skipBlanks (gap ++ c :: rest) = c :: rest := by
  rw [skipBlanks, List.dropWhile_append_of_pos blank, List.dropWhile_cons_of_neg (by simp [stop])]

theorem rest?_eq_some_iff_steps {cs rest : List Char} :
    rest? cs = some rest ↔ ∃ afterType afterName afterSign afterBrace, cs = opening ++ afterType ∧
      afterType.takeWhile Text.isBlank ≠ [] ∧ skipBlanks afterType = arrayName ++ afterName ∧
      skipBlanks afterName = '=' :: afterSign ∧ skipBlanks afterSign = '{' :: afterBrace ∧
      afterBrace.dropWhile (· != '}') = '}' :: ';' :: rest := by
  simp only [rest?, Option.bind_eq_bind, Option.bind_eq_some_iff, after?_eq_some_iff]
  constructor
  · rintro ⟨afterType, first, later⟩
    split at later
    · cases later
    next gap =>
      simp only [Option.bind_eq_some_iff, after?_eq_some_iff] at later
      obtain ⟨afterName, second, afterSign, third, afterBrace, fourth, last⟩ := later
      exact ⟨afterType, afterName, afterSign, afterBrace, first, by simpa using gap, second, third,
        fourth, last⟩
  · rintro ⟨afterType, afterName, afterSign, afterBrace, first, gap, second, third, fourth, last⟩
    refine ⟨afterType, first, ?_⟩
    rw [if_neg (by simpa using gap)]
    simp only [Option.bind_eq_some_iff, after?_eq_some_iff]
    exact ⟨afterName, second, afterSign, third, afterBrace, fourth, last⟩

theorem dropWhile_body {body rest : List Char} (closed : '}' ∉ body) :
    (body ++ '}' :: rest).dropWhile (· != '}') = '}' :: rest := by
  rw [List.dropWhile_append_of_pos]
  · rfl
  · intro c member
    simp only [bne_iff_ne]
    rintro rfl
    exact closed member

theorem rest?_of_declares {d : List Char} (declares : Declares d) (rest : List Char) :
    rest? (d ++ rest) = some rest := by
  cases declares with
  | @mk _ body headed closed =>
  cases headed with
  | @mk first second third blank₁ some₁ blank₂ blank₃ =>
  have name (tail : List Char) : arrayName ++ tail = 'd' :: (arrayName.tail ++ tail) := rfl
  refine rest?_eq_some_iff_steps.2
    ⟨first ++ (arrayName ++ (second ++ '=' :: (third ++ '{' :: (body ++ '}' :: ';' :: rest)))),
      second ++ '=' :: (third ++ '{' :: (body ++ '}' :: ';' :: rest)),
      third ++ '{' :: (body ++ '}' :: ';' :: rest), body ++ '}' :: ';' :: rest,
      ?_, ?_, ?_, ?_, ?_, ?_⟩
  · simp
  · rw [name, takeWhile_blank blank₁ (by decide)]
    exact some₁
  · rw [name, skipBlanks_append blank₁ (by decide)]
  · exact skipBlanks_append blank₂ (by decide)
  · exact skipBlanks_append blank₃ (by decide)
  · exact dropWhile_body closed

theorem exists_gap (cs : List Char) :
    ∃ gap, Blank gap ∧ gap = cs.takeWhile Text.isBlank ∧ cs = gap ++ skipBlanks cs :=
  ⟨_, List.all_eq_true.1 List.all_takeWhile, rfl, List.takeWhile_append_dropWhile.symm⟩

theorem exists_body (cs : List Char) :
    ∃ body, '}' ∉ body ∧ cs = body ++ cs.dropWhile (· != '}') := by
  refine ⟨cs.takeWhile (· != '}'), fun member => ?_, List.takeWhile_append_dropWhile.symm⟩
  simpa using List.all_eq_true.1 List.all_takeWhile _ member

theorem declares_of_rest? {cs rest : List Char} (found : rest? cs = some rest) :
    ∃ d, Declares d ∧ cs = d ++ rest := by
  obtain ⟨afterType, afterName, afterSign, afterBrace, rfl, gap, second, third, fourth, last⟩ :=
    rest?_eq_some_iff_steps.1 found
  obtain ⟨first, blank₁, first_eq, split₁⟩ := exists_gap afterType
  obtain ⟨_, blank₂, -, split₂⟩ := exists_gap afterName
  obtain ⟨_, blank₃, -, split₃⟩ := exists_gap afterSign
  obtain ⟨_, closed, split₄⟩ := exists_body afterBrace
  refine ⟨_, .mk (.mk blank₁ (first_eq ▸ gap) blank₂ blank₃) closed, ?_⟩
  rw [split₁, second, split₂, third, split₃, fourth, split₄, last]
  simp

theorem rest?_eq_some_iff {cs rest : List Char} :
    rest? cs = some rest ↔ ∃ d, Declares d ∧ cs = d ++ rest := by
  constructor
  · exact declares_of_rest?
  · rintro ⟨d, declares, rfl⟩
    exact rest?_of_declares declares rest

theorem Declares.unique {d e rest rest' : List Char} (left : Declares d) (right : Declares e)
    (same : d ++ rest = e ++ rest') : d = e ∧ rest = rest' := by
  have tails : rest = rest' := by
    have found := rest?_of_declares left rest
    rw [same, rest?_of_declares right rest'] at found
    exact (Option.some.inj found).symm
  subst tails
  exact ⟨List.append_cancel_right same, rfl⟩

/-- The text before the first declaration: no declaration begins in it. -/
def Free (before after : List Char) : Prop :=
  ∀ front piece, before = front ++ piece → piece ≠ [] → rest? (piece ++ after) = none

theorem Free.nil (after : List Char) : Free [] after := by
  intro front piece split nonempty
  exact absurd (List.append_eq_nil_iff.1 split.symm).2 nonempty

theorem free_cons_iff {c : Char} {before after : List Char} :
    Free (c :: before) after ↔ rest? (c :: (before ++ after)) = none ∧ Free before after := by
  constructor
  · intro free
    refine ⟨free [] (c :: before) rfl (List.cons_ne_nil _ _), fun front piece split => ?_⟩
    exact free (c :: front) piece (by rw [split, List.cons_append])
  · rintro ⟨here, later⟩ front piece split nonempty
    cases front with
    | nil =>
      obtain rfl : c :: before = piece := split
      exact here
    | cons _ front =>
      obtain ⟨-, split⟩ := List.cons.inj split
      exact later front piece split nonempty

theorem cut?_cons_of_rest? {c : Char} {cs d rest : List Char} (found : rest? (c :: cs) = some rest)
    (split : c :: cs = d ++ rest) : cut? (c :: cs) = some ⟨[], d, rest⟩ := by
  have whole : (c :: cs).take (cs.length + 1 - rest.length) = d := by
    rw [← List.length_cons (a := c), split]
    simp
  rw [cut?, found]
  simp only [whole]

theorem cut?_cons_of_none {c : Char} {cs : List Char} (none : rest? (c :: cs) = none) :
    cut? (c :: cs) = (cut? cs).map fun cut => { cut with before := c :: cut.before } := by
  rw [cut?, none]

theorem cut?_splits {cs : List Char} {cut : Cut} (found : cut? cs = some cut) :
    cs = cut.before ++ (cut.declaration ++ cut.after) ∧ Declares cut.declaration ∧
      Free cut.before (cut.declaration ++ cut.after) := by
  induction cs generalizing cut with
  | nil => cases found
  | cons c cs ih =>
    match here : rest? (c :: cs) with
    | some rest =>
      obtain ⟨d, declares, split⟩ := declares_of_rest? here
      rw [cut?_cons_of_rest? here split] at found
      cases found
      exact ⟨split, declares, Free.nil _⟩
    | none =>
      rw [cut?_cons_of_none here] at found
      obtain ⟨inner, later, rfl⟩ := Option.map_eq_some_iff.1 found
      obtain ⟨split, declares, free⟩ := ih later
      exact ⟨by rw [List.cons_append, ← split], declares, free_cons_iff.2 ⟨split ▸ here, free⟩⟩

theorem cut?_of_free {before d after : List Char} (declares : Declares d)
    (free : Free before (d ++ after)) :
    cut? (before ++ (d ++ after)) = some ⟨before, d, after⟩ := by
  induction before with
  | nil =>
    match split : d ++ after with
    | [] => cases (rest?_of_declares declares after).symm.trans (congrArg rest? split)
    | c :: cs => exact cut?_cons_of_rest? (split ▸ rest?_of_declares declares after) split.symm
  | cons c before ih =>
    obtain ⟨here, later⟩ := free_cons_iff.1 free
    rw [List.cons_append, cut?_cons_of_none here, ih later]
    rfl

theorem cut?_ne_none {front d rest : List Char} (declares : Declares d) :
    cut? (front ++ (d ++ rest)) ≠ none := by
  induction front with
  | nil =>
    have here : cut? ([] ++ (d ++ rest)) = some ⟨[], d, rest⟩ := cut?_of_free declares (Free.nil _)
    rw [here]
    exact Option.some_ne_none _
  | cons c front ih =>
    rw [List.cons_append, cut?]
    split
    · exact Option.some_ne_none _
    · simpa using ih

/-- A text is cut at its first declaration. -/
theorem cut?_eq_some_iff {cs : List Char} {cut : Cut} :
    cut? cs = some cut ↔ cs = cut.before ++ (cut.declaration ++ cut.after) ∧
      Declares cut.declaration ∧ Free cut.before (cut.declaration ++ cut.after) := by
  refine ⟨cut?_splits, ?_⟩
  rintro ⟨rfl, declares, free⟩
  exact cut?_of_free declares free

theorem Blank.letter_not_mem {gap : List Char} (blank : Blank gap) : 'D' ∉ gap := by
  intro member
  have := blank 'D' member
  revert this
  decide

theorem Heading.exists_tail {heading : List Char} (headed : Heading heading) :
    ∃ tail, heading = 'D' :: tail ∧ 'D' ∉ tail := by
  obtain ⟨blank₁, -, blank₂, blank₃⟩ := headed
  have type : opening = 'D' :: opening.tail := by decide
  have later : 'D' ∉ opening.tail := by decide
  have name : 'D' ∉ arrayName := by decide
  refine ⟨_, by rw [type, List.cons_append], ?_⟩
  simp only [List.mem_append, List.mem_cons, List.not_mem_nil, or_false]
  rintro (member | member | member | member | member | member | member)
  · exact later member
  · exact blank₁.letter_not_mem member
  · exact name member
  · exact blank₂.letter_not_mem member
  · revert member; decide
  · exact blank₃.letter_not_mem member
  · revert member; decide

theorem Heading.not_closing {heading : List Char} (headed : Heading heading) : '}' ∉ heading := by
  obtain ⟨blank₁, -, blank₂, blank₃⟩ := headed
  have apart {gap : List Char} (blank : Blank gap) : '}' ∉ gap := by
    intro member
    have := blank '}' member
    revert this
    decide
  have type : '}' ∉ opening := by decide
  have name : '}' ∉ arrayName := by decide
  simp [type, name, apart blank₁, apart blank₂, apart blank₃]

theorem Declares.exists_core {d : List Char} (declares : Declares d) :
    ∃ core tail, d = core ++ ['}', ';'] ∧ '}' ∉ core ∧ d = 'D' :: tail := by
  cases declares with
  | @mk heading body headed closed =>
  obtain ⟨tail, rfl, -⟩ := headed.exists_tail
  refine ⟨'D' :: tail ++ body, _, by simp, ?_, rfl⟩
  simp only [List.mem_append, not_or]
  exact ⟨headed.not_closing, closed⟩

theorem Declares.heading_of_letter {piece tail : List Char}
    (declares : Declares (piece ++ 'D' :: tail)) (nonempty : piece ≠ []) :
    ∃ heading body, Heading heading ∧ '}' ∉ body ∧ piece = heading ++ body := by
  generalize whole : piece ++ 'D' :: tail = d at declares
  cases declares with
  | @mk heading body headed closed =>
  rcases List.append_eq_append_iff.1 whole with ⟨front, within, later⟩ | ⟨front, rfl, later⟩
  · -- the letter would stand in the heading, behind its first character
    obtain ⟨headTail, heading_eq, once⟩ := headed.exists_tail
    cases front with
    | nil => exact ⟨heading, [], headed, by simp, by simpa using within.symm⟩
    | cons c front =>
      obtain ⟨rfl, -⟩ := List.cons.inj later
      cases piece with
      | nil => exact absurd rfl nonempty
      | cons first piece =>
        obtain ⟨-, rfl⟩ := List.cons.inj (heading_eq.symm.trans within)
        exact absurd (by simp) once
  · refine ⟨heading, front, headed, fun member => ?_, rfl⟩
    rcases List.append_eq_append_iff.1 later with ⟨rest, ends, last⟩ | ⟨rest, rfl, last⟩
    · have : 'D' ∈ ['}', ';'] := last ▸ by simp
      revert this
      decide
    · exact closed (by simp [member])

theorem Free.replace {before d l after after' : List Char} (free : Free before (d ++ after))
    (declares : Declares d) (other : Declares l) : Free before (l ++ after') := by
  intro front piece split nonempty
  cases found : rest? (piece ++ (l ++ after')) with
  | none => rfl
  | some rest =>
  obtain ⟨e, declares', same⟩ := declares_of_rest? found
  refine absurd (free front piece split nonempty) ?_
  obtain ⟨core, _, rfl, open_core, -⟩ := declares.exists_core
  obtain ⟨_, tail, _, _, rfl⟩ := other.exists_core
  rcases List.append_eq_append_iff.1 same with ⟨inner, rfl, later⟩ | ⟨inner, rfl, -⟩
  · cases inner with
    | nil =>
      rw [List.append_nil] at declares'
      simp [rest?_of_declares declares']
    | cons c inner =>
      obtain ⟨rfl, -⟩ := List.cons.inj later
      -- the letter of the replacement is in a body that `d` would have gone on with as well
      obtain ⟨heading, body, headed, closed, rfl⟩ := declares'.heading_of_letter nonempty
      have longer : Declares (heading ++ ((body ++ core) ++ ['}', ';'])) :=
        .mk headed (by simp [closed, open_core])
      have spread : heading ++ body ++ (core ++ ['}', ';'] ++ after) =
          heading ++ (body ++ core ++ ['}', ';']) ++ after := by simp
      rw [spread, rest?_of_declares longer after]
      exact Option.some_ne_none after
  · simp [rest?_of_declares declares', List.append_assoc]

end FlightBlocks.Declaration
