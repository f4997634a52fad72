import FlightBlocks.Files.Path
import Mathlib.Data.List.Basic
import Mathlib.Data.List.Induction
import Mathlib.Logic.Relation
/-!
Folding a path by its text. What is behind a path can be folded after it, whatever has been folded
of it before; and the text of a path may be written with more slashes, with parts that stay where
they are, and with names that are taken back at once.
-/

namespace FlightBlocks

namespace Part

structure Proper (n : String) : Prop where
  nonempty : n ≠ ""
  whole : '/' ∉ n.toList
  notHere : n ≠ "."
  notUp : n ≠ ".."

theorem Proper.ofName {n : String} (proper : Proper n) : Part.ofName n = .name n := by
  simp [Part.ofName, proper.notHere, proper.notUp]

theorem Proper.head_ne_slash {n : String} (proper : Proper n) :
    n.toList.head? ≠ some '/' := fun slash => proper.whole (List.mem_of_mem_head? slash)

theorem Proper.getLast_ne_slash {n : String} (proper : Proper n) :
    n.toList.getLast? ≠ some '/' := fun slash => proper.whole (List.mem_of_mem_getLast? slash)

theorem ofName_eq_name {n m : String} (named : ofName n = .name m) :
    n = m ∧ n ≠ "." ∧ n ≠ ".." := by
  unfold ofName at named
  split at named
  · cases named
  · split at named
    · cases named
    · simp_all

end Part

namespace Path

def joinText (p q : String) : String :=
  if q.toList.head? = some '/' then q
  else if p.toList.getLast?.all (· == '/') then p ++ q
  else p ++ "/" ++ q

def text (p : Path) : String := p.names.foldl joinText (if p.rooted then "/" else "")

/-- One change to how a path is spelled, which is left out: a slash, a part that stays where it is,
or a name that is taken back at once. -/
inductive Respelled : List (List Char) → List (List Char) → Prop
  | slash (front back : List (List Char)) : Respelled (front ++ [] :: back) (front ++ back)
  | here (front back : List (List Char)) : Respelled (front ++ ['.'] :: back) (front ++ back)
  | turn (front back : List (List Char)) {name : List Char}
      (proper : Part.Proper (String.ofList name)) :
      Respelled (front ++ name :: ['.', '.'] :: back) (front ++ back)

/-! Folding the parts of a path. -/

theorem foldl_foldStep_names (front names : List String) :
    (names.map Part.name).foldl foldStep front = front ++ names := by
  induction names generalizing front with
  | nil => simp
  | cons n names ih => simp [foldStep, ih]

theorem mem_foldl_foldStep {n : String} {parts : List Part} {front : List String}
    (left : n ∈ parts.foldl foldStep front) : n ∈ front ∨ .name n ∈ parts := by
  induction parts generalizing front with
  | nil => exact .inl left
  | cons part parts ih =>
    rcases ih left with before | later
    · cases part with
      | here => exact .inl before
      | up => exact .inl (List.dropLast_subset _ before)
      | name m =>
        rcases List.mem_append.1 before with earlier | last
        · exact .inl earlier
        · exact .inr (List.mem_singleton.1 last ▸ List.mem_cons_self)
    · exact .inr (List.mem_cons_of_mem _ later)

theorem foldl_replicate_up (k : Nat) (parts : List Part) :
    (List.replicate k Part.up ++ parts).foldl foldStep [] = parts.foldl foldStep [] := by
  induction k with
  | zero => rfl
  | succ k ih => rw [List.replicate_succ, List.cons_append, List.foldl_cons]; exact ih

theorem fold_eq_iff {p q : Path} : p.fold = q.fold ↔ p.rooted = q.rooted ∧ p.names = q.names := by
  have named : Function.Injective Part.name := fun _ _ same => Part.name.inj same
  rw [fold, fold, Path.mk.injEq, (List.map_injective_iff.2 named).eq_iff]

theorem names_fold (p : Path) : p.fold.names = p.names := foldl_foldStep_names [] p.names

theorem names_join (p q : Path) :
    (p.join q).names = if q.rooted then q.names else q.parts.foldl foldStep p.names := by
  unfold join
  split
  · rfl
  · exact List.foldl_append ..

theorem rooted_join (p q : Path) : (p.join q).rooted = (q.rooted || p.rooted) := by
  unfold join
  split <;> simp_all

theorem fold_fold (p : Path) : p.fold.fold = p.fold := fold_eq_iff.2 ⟨rfl, names_fold p⟩

theorem fold_join (p q : Path) : (p.join q).fold = (p.fold.join q).fold := by
  rw [fold_eq_iff, rooted_join, rooted_join, names_join, names_join, names_fold]
  exact ⟨rfl, rfl⟩

/-! Taking a text apart. -/

theorem pieces_eq_splitOn (cs : List Char) : pieces cs = cs.splitOn '/' := by
  induction cs with
  | nil => rfl
  | cons c cs ih =>
    obtain ⟨piece, rest, same⟩ := List.exists_cons_of_ne_nil (List.splitOn_ne_nil '/' cs)
    rw [pieces, List.splitOn_cons_eq_if_modifyHead, ih, same]
    by_cases slash : c = '/' <;> simp [slash]

theorem pieces_append (cs ds : List Char) : pieces (cs ++ '/' :: ds) = pieces cs ++ pieces ds := by
  rw [pieces_eq_splitOn, pieces_eq_splitOn, pieces_eq_splitOn]
  exact List.splitOn_append_cons_self cs ds

theorem pieces_whole {cs : List Char} (whole : '/' ∉ cs) : pieces cs = [cs] := by
  rw [pieces_eq_splitOn]
  exact List.splitOn_eq_singleton whole

theorem slash_not_mem_pieces {cs piece : List Char} (taken : piece ∈ pieces cs) : '/' ∉ piece := by
  induction cs generalizing piece with
  | nil => simp_all [pieces]
  | cons c cs ih =>
    have some : pieces cs ≠ [] := pieces_eq_splitOn cs ▸ List.splitOn_ne_nil '/' cs
    obtain ⟨first, rest, same⟩ := List.exists_cons_of_ne_nil some
    simp only [pieces, same] at taken
    rw [same] at ih
    split at taken
    next slash =>
      rcases List.mem_cons.1 taken with rfl | later
      · exact List.not_mem_nil
      · exact ih later
    next other =>
      rcases List.mem_cons.1 taken with rfl | later
      · intro member
        rcases List.mem_cons.1 member with first | behind
        · exact other first.symm
        · exact ih List.mem_cons_self behind
      · exact ih (List.mem_cons_of_mem _ later)

def partsOf (written : List (List Char)) : List Part :=
  (written.filter fun piece => !piece.isEmpty).map fun piece => Part.ofName (String.ofList piece)

theorem partsOf_append (front back : List (List Char)) :
    partsOf (front ++ back) = partsOf front ++ partsOf back := by
  simp [partsOf]

theorem partsOf_nil_cons (back : List (List Char)) : partsOf ([] :: back) = partsOf back := rfl

theorem partsOf_cons {piece : List Char} (nonempty : piece ≠ []) (back : List (List Char)) :
    partsOf (piece :: back) = Part.ofName (String.ofList piece) :: partsOf back := by
  simp [partsOf, nonempty]

theorem foldl_ofText (s : String) (front : List String) :
    (ofText s).parts.foldl foldStep front = (partsOf (pieces s.toList)).foldl foldStep front := by
  rw [ofText, ofChars]
  dsimp only
  split
  · exact List.foldl_concat ..
  · rfl

theorem proper_of_mem_names {s n : String} (left : n ∈ (ofText s).names) : Part.Proper n := by
  rw [names, foldl_ofText] at left
  rcases mem_foldl_foldStep left with none | part
  · cases none
  · simp only [partsOf, List.mem_map, List.mem_filter] at part
    obtain ⟨piece, ⟨taken, written⟩, named⟩ := part
    obtain ⟨rfl, notHere, notUp⟩ := Part.ofName_eq_name named
    refine ⟨?_, ?_, notHere, notUp⟩
    · intro empty
      simp_all
    · rw [String.toList_ofList]
      exact slash_not_mem_pieces taken

theorem Respelled.foldl_eq {written written' : List (List Char)}
    (change : Respelled written written') (front : List String) :
    (partsOf written).foldl foldStep front = (partsOf written').foldl foldStep front := by
  cases change with
  | slash before after => rw [partsOf_append, partsOf_append, partsOf_nil_cons]
  | here before after =>
    rw [partsOf_append, partsOf_append, partsOf_cons (by decide), List.foldl_append,
      List.foldl_append]
    rfl
  | turn before after proper =>
    rw [partsOf_append, partsOf_append, partsOf_cons (by rintro rfl; exact proper.nonempty rfl),
      partsOf_cons (by decide), proper.ofName, List.foldl_append, List.foldl_append]
    exact congrArg (List.foldl foldStep · _) List.dropLast_concat

theorem fold_eq_of_respelled {s s' : String} (rooted : (ofText s).rooted = (ofText s').rooted)
    (respelled : Relation.EqvGen Respelled (pieces s.toList) (pieces s'.toList)) :
    (ofText s).fold = (ofText s').fold := by
  have same : ∀ {written written'}, Relation.EqvGen Respelled written written' →
      (partsOf written).foldl foldStep [] = (partsOf written').foldl foldStep [] := by
    intro written written' changes
    induction changes with
    | rel _ _ change => exact change.foldl_eq []
    | refl _ => rfl
    | symm _ _ _ ih => exact ih.symm
    | trans _ _ _ _ _ ih ih' => exact ih.trans ih'
  rw [fold_eq_iff, names, names, foldl_ofText, foldl_ofText]
  exact ⟨rooted, same respelled⟩

/-! Putting texts together. -/

theorem partsOf_joinText {p q : String} (relative : q.toList.head? ≠ some '/') :
    partsOf (pieces (joinText p q).toList) =
      partsOf (pieces p.toList) ++ partsOf (pieces q.toList) := by
  rw [joinText, if_neg relative]
  split
  next closed =>
    rw [String.toList_append]
    rcases List.eq_nil_or_concat p.toList with empty | ⟨front, c, written⟩
    · rw [empty]
      rfl
    · rw [List.concat_eq_append] at written
      obtain rfl : c = '/' := by simpa [written] using closed
      rw [written, List.append_assoc, List.singleton_append, pieces_append, pieces_append,
        partsOf_append, partsOf_append]
      simp [pieces, partsOf]
  next => simp [pieces_append, partsOf_append]

theorem rooted_joinText (p q : String) :
    (ofText (joinText p q)).rooted = ((ofText q).rooted || (ofText p).rooted) := by
  simp only [ofText, ofChars]
  unfold joinText
  split
  next rooted => simp [rooted]
  next relative =>
    split
    next closed => cases written : p.toList <;> simp_all
    next => cases written : p.toList <;> simp_all

theorem fold_joinText (p q : String) :
    (ofText (joinText p q)).fold = ((ofText p).join (ofText q)).fold := by
  rw [fold_eq_iff, rooted_join, names_join]
  refine ⟨rooted_joinText p q, ?_⟩
  by_cases rooted : q.toList.head? = some '/'
  · rw [joinText, if_pos rooted, if_pos (by simp [ofText, ofChars, rooted])]
  · rw [if_neg (by simp [ofText, ofChars, rooted]), names, names, foldl_ofText, foldl_ofText,
      foldl_ofText, partsOf_joinText rooted, List.foldl_append]

theorem ofText_proper {n : String} (proper : Part.Proper n) : ofText n = ⟨false, [.name n]⟩ := by
  have nonempty : n.toList ≠ [] := by simpa using proper.nonempty
  simp [ofText, ofChars, pieces_whole proper.whole, nonempty, proper.head_ne_slash,
    proper.getLast_ne_slash, proper.ofName]

theorem fold_foldl_joinText {names : List String} (proper : ∀ n ∈ names, Part.Proper n)
    (s : String) : (ofText (names.foldl joinText s)).rooted = (ofText s).rooted ∧
      (ofText (names.foldl joinText s)).names = (ofText s).names ++ names := by
  induction names generalizing s with
  | nil => simp
  | cons n names ih =>
    obtain ⟨rooted, left⟩ := ih (fun n mem => proper n (List.mem_cons_of_mem _ mem)) (joinText s n)
    obtain ⟨rooted', left'⟩ := fold_eq_iff.1 (fold_joinText s n)
    rw [ofText_proper (proper n List.mem_cons_self)] at rooted' left'
    rw [List.foldl_cons, rooted, left, rooted', left']
    exact ⟨rfl, by simp [names_join, foldStep]⟩

theorem fold_ofText_text {p : Path} (proper : ∀ n ∈ p.names, Part.Proper n) :
    (ofText p.text).fold = p.fold := by
  obtain ⟨rooted, left⟩ := fold_foldl_joinText proper (if p.rooted then "/" else "")
  rw [fold_eq_iff, text, rooted, left]
  cases p.rooted <;> exact ⟨rfl, rfl⟩

end Path

namespace Place

variable {place : Place}

theorem names_path (place : Place) : place.path.names = place :=
  Path.foldl_foldStep_names [] place

theorem text_concat (place : Place) (n : String) :
    text (place ++ [n]) = (if place.isEmpty then "" else text place) ++ "/" ++ n := by
  cases place with
  | nil => rfl
  | cons first place => simp [text, String.append_assoc]

theorem getLast?_text_concat (above : Place) {n : String} (named : Part.Proper n) :
    ∃ c ≠ '/', (text (above ++ [n])).toList.getLast? = some c := by
  have nonempty : n.toList ≠ [] := by simpa using named.nonempty
  obtain ⟨c, last⟩ := Option.ne_none_iff_exists'.1 (mt List.getLast?_eq_none_iff.1 nonempty)
  refine ⟨c, fun slash => named.getLast_ne_slash (slash ▸ last), ?_⟩
  rw [text_concat, String.toList_append, List.getLast?_append, last]
  rfl

theorem joinText_text (proper : ∀ n ∈ place, Part.Proper n) (s : String) :
    Path.joinText place.text s = place.joinText s := by
  unfold Path.joinText joinText
  rcases List.eq_nil_or_concat place with rfl | ⟨above, n, rfl⟩
  · simp [text]
  · rw [List.concat_eq_append] at proper ⊢
    obtain ⟨c, other, last⟩ := getLast?_text_concat above (proper n (by simp))
    simp [last, other]

theorem foldl_joinText (proper : ∀ n ∈ place, Part.Proper n) :
    place.foldl Path.joinText "/" = place.text := by
  induction place using List.reverseRecOn with
  | nil => rfl
  | append_singleton place n ih =>
    have before : ∀ n ∈ place, Part.Proper n := fun n mem => proper n (List.mem_append_left _ mem)
    have named := proper n (List.mem_append_right _ List.mem_cons_self)
    rw [List.foldl_concat, ih before, joinText_text before, text_concat, joinText]
    cases place <;> simp [named.head_ne_slash]

theorem text_path (proper : ∀ n ∈ place, Part.Proper n) : place.path.text = place.text := by
  rw [Path.text, names_path]
  exact foldl_joinText proper

theorem follow_ofText (proper : ∀ n ∈ place, Part.Proper n) (s : String) :
    place.follow (.ofText s) = (Path.ofText (place.joinText s)).names := by
  have folded : (Path.ofText place.text).fold = place.path.fold := by
    rw [← text_path proper]
    exact Path.fold_ofText_text (by rwa [names_path])
  have joined : (place.path.join (.ofText s)).fold = (Path.ofText (place.joinText s)).fold := by
    rw [← joinText_text proper, Path.fold_joinText, Path.fold_join, ← folded, ← Path.fold_join]
  exact (Path.fold_eq_iff.1 joined).2

end Place

namespace Path

/-- However much of a path is folded beforehand, it folds to the same names, none of them a dot or
two, and begins at the root if it did; and so do all the spellings of its text. -/
theorem fold_piecewise :
    (∀ p : Path, (∀ part ∈ p.fold.parts, ∃ n, part = .name n) ∧ p.fold.rooted = p.rooted ∧
      p.fold.fold = p.fold) ∧
    (∀ p q : Path, (p.join q).fold = (p.fold.join q).fold) ∧
    (∀ rooted parts k, (Path.mk rooted (List.replicate k .up ++ parts)).fold =
      (Path.mk rooted parts).fold) ∧
    (∀ s : String, (∀ n ∈ (ofText s).names, Part.Proper n) ∧
      (ofText (ofText s).text).fold = (ofText s).fold) ∧
    (∀ s s' : String, (ofText (joinText s s')).fold = (ofText (joinText (ofText s).text s')).fold) ∧
    (∀ place : Place, (∀ n ∈ place, Part.Proper n) → ∀ s : String,
      place.follow (.ofText s) = (ofText (place.joinText s)).names) ∧
    ∀ s s' : String, (ofText s).rooted = (ofText s').rooted →
      Relation.EqvGen Respelled (pieces s.toList) (pieces s'.toList) →
      (ofText s).fold = (ofText s').fold := by
  have kept (s : String) : (ofText (ofText s).text).fold = (ofText s).fold :=
    fold_ofText_text fun _ => proper_of_mem_names
  refine ⟨fun p => ⟨?_, rfl, fold_fold p⟩, fold_join, ?_, ?_, ?_, ?_, ?_⟩
  · intro part mem
    obtain ⟨n, -, named⟩ := List.mem_map.1 mem
    exact ⟨n, named.symm⟩
  · intro rooted parts k
    exact fold_eq_iff.2 ⟨rfl, foldl_replicate_up k parts⟩
  · exact fun s => ⟨fun _ => proper_of_mem_names, kept s⟩
  · intro s s'
    rw [fold_joinText, fold_joinText, fold_join, fold_join (ofText (ofText s).text), kept]
  · exact fun place proper => Place.follow_ofText proper
  · exact fun s s' => fold_eq_of_respelled

-- two slashes less, nothing gone where it stays, and a name taken back
example : Relation.EqvGen Respelled (pieces "/srv//./a/../b/".toList) (pieces "/srv/b".toList) := by
  have long : pieces "/srv//./a/../b/".toList =
      [[], ['s', 'r', 'v']] ++ [] :: [['.'], ['a'], ['.', '.'], ['b'], []] := by decide +kernel
  have short : pieces "/srv/b".toList = [[], ['s', 'r', 'v'], ['b']] ++ [] := by decide +kernel
  have proper : Part.Proper (String.ofList ['a']) :=
    ⟨by decide +kernel, by decide +kernel, by decide +kernel, by decide +kernel⟩
  rw [long, short]
  refine .trans _ _ _ (.rel _ _ (.slash _ _)) ?_
  refine .trans _ _ _ (.rel _ _ (.here [[], ['s', 'r', 'v']] _)) ?_
  refine .trans _ _ _ (.rel _ _ (.turn [[], ['s', 'r', 'v']] _ proper)) ?_
  exact .rel _ _ (.slash [[], ['s', 'r', 'v'], ['b']] [])

end Path

end FlightBlocks
