import FlightBlocks.Sequence.Literal
/-!
Reading a literal back: between the braces stand the tokens, with a comma and a blank between each
two, so the directives are found again, and two programs with one literal have the same directives.
-/

namespace FlightBlocks

def piecesOf : List Char → List (List Char)
  | [] => [[]]
  | ',' :: ' ' :: cs => [] :: piecesOf cs
  | c :: cs =>
    match piecesOf cs with
    | [] => [[c]]
    | piece :: pieces => (c :: piece) :: pieces

def readBody (text : List Char) : Option (List Directive) :=
  if text.isEmpty then some []
  else (piecesOf text).mapM fun piece => Directive.ofToken? (String.ofList piece)

namespace Directive

theorem comma_not_mem_token (d : Directive) : ',' ∉ d.token.toList := by cases d <;> decide

theorem token_ne_nil (d : Directive) : d.token.toList ≠ [] := by cases d <;> decide

end Directive

theorem piecesOf_ne_nil (cs : List Char) : piecesOf cs ≠ [] := by
  fun_cases piecesOf cs <;> simp_all

theorem piecesOf_cons {c : Char} (other : c ≠ ',') (cs : List Char) :
    ∃ piece pieces, piecesOf cs = piece :: pieces ∧
      piecesOf (c :: cs) = (c :: piece) :: pieces := by
  obtain ⟨piece, pieces, same⟩ := List.exists_cons_of_ne_nil (piecesOf_ne_nil cs)
  refine ⟨piece, pieces, same, ?_⟩
  rw [piecesOf, same]
  intro cs' comma
  exact absurd comma other

theorem piecesOf_append {piece : List Char} (whole : ',' ∉ piece) (cs : List Char) :
    piecesOf (piece ++ ',' :: ' ' :: cs) = piece :: piecesOf cs := by
  induction piece with
  | nil => rfl
  | cons c piece ih =>
    obtain ⟨other, rest⟩ := not_or.1 (mt List.mem_cons.2 whole)
    obtain ⟨first, pieces, found, taken⟩ :=
      piecesOf_cons (Ne.symm other) (piece ++ ',' :: ' ' :: cs)
    rw [ih rest] at found
    obtain ⟨rfl, rfl⟩ := List.cons.inj found
    exact taken

theorem piecesOf_single {piece : List Char} (whole : ',' ∉ piece) : piecesOf piece = [piece] := by
  induction piece with
  | nil => rfl
  | cons c piece ih =>
    obtain ⟨other, rest⟩ := not_or.1 (mt List.mem_cons.2 whole)
    obtain ⟨first, pieces, found, taken⟩ := piecesOf_cons (Ne.symm other) piece
    rw [ih rest] at found
    obtain ⟨rfl, rfl⟩ := List.cons.inj found
    exact taken

theorem toList_body_cons_cons (d d' : Directive) (ds : List Directive) :
    (body (d :: d' :: ds)).toList =
      d.token.toList ++ ',' :: ' ' :: (body (d' :: ds)).toList := by
  simp [body]

theorem piecesOf_body (d : Directive) (ds : List Directive) :
    piecesOf (body (d :: ds)).toList = (d :: ds).map fun d => d.token.toList := by
  induction ds generalizing d with
  | nil => simpa [body] using piecesOf_single d.comma_not_mem_token
  | cons d' ds ih =>
    rw [toList_body_cons_cons, piecesOf_append d.comma_not_mem_token, ih d']
    rfl

theorem mapM_ofToken? (ds : List Directive) :
    (ds.map fun d => d.token.toList).mapM
      (fun piece => Directive.ofToken? (String.ofList piece)) = some ds := by
  induction ds with
  | nil => rfl
  | cons d ds ih => simp [ih, Directive.ofToken?_token]

theorem body_ne_nil (d : Directive) (ds : List Directive) : (body (d :: ds)).toList ≠ [] := by
  cases ds with
  | nil => simpa [body] using d.token_ne_nil
  | cons d' ds => simp [toList_body_cons_cons]

theorem readBody_body (ds : List Directive) : readBody (body ds).toList = some ds := by
  cases ds with
  | nil => rfl
  | cons d ds =>
    have filled : (body (d :: ds)).toList.isEmpty = false := by
      simpa using body_ne_nil d ds
    rw [readBody, filled, piecesOf_body]
    exact mapM_ofToken? (d :: ds)

theorem body_injective {ds ds' : List Directive} (same : body ds = body ds') : ds = ds' := by
  have read := readBody_body ds
  rw [same, readBody_body] at read
  exact (Option.some.inj read).symm

/-- Two programs with the same literal fly the same directives. -/
theorem literal_injective {ds ds' : List Directive} (same : literal ds = literal ds') :
    ds = ds' := by
  apply body_injective
  unfold literal at same
  have open' := String.append_left_inj _ |>.1 same
  exact String.append_right_inj _ |>.1 open'

end FlightBlocks
