import FlightBlocks.Proofs.Blocks.Canvas
/-!
The order of chains. Where the heads of an editor document stand decides it. The order in which the
document lists them matters only among heads that the scan line meets at once, which keep it.
-/

namespace FlightBlocks.Canvas

section Arrange

variable {key : Chain → Int} {chains chains' arranged arranged' : List Chain}

theorem least_of_ordered {c d : Chain} (ordered : (c :: chains).Pairwise fun a b => key a ≤ key b)
    (member : d ∈ c :: chains) : key c ≤ key d := by
  rcases List.mem_cons.1 member with rfl | member
  · exact Int.le_refl _
  · exact (List.pairwise_cons.1 ordered).1 d member

theorem eq_of_ordered (ordered : chains.Pairwise fun a b => key a ≤ key b)
    (ordered' : chains'.Pairwise fun a b => key a ≤ key b)
    (same : ∀ k, (chains.filter fun c => key c == k) = chains'.filter fun c => key c == k) :
    chains = chains' := by
  induction chains generalizing chains' with
  | nil =>
    cases chains' with
    | nil => rfl
    | cons d ds =>
      have none := same (key d)
      simp at none
  | cons c cs ih =>
    cases chains' with
    | nil =>
      have none := same (key c)
      simp at none
    | cons d ds =>
      -- each head is among the others, and has the least key of them
      have dIn : d ∈ c :: cs := by
        have member : d ∈ (c :: cs).filter fun e => key e == key d := by simp [same]
        exact (List.mem_filter.1 member).1
      have cIn : c ∈ d :: ds := by
        have member : c ∈ (d :: ds).filter fun e => key e == key c := by simp [← same]
        exact (List.mem_filter.1 member).1
      have level : key c = key d :=
        Int.le_antisymm (least_of_ordered ordered dIn) (least_of_ordered ordered' cIn)
      have first := same (key c)
      simp only [List.filter_cons, level, beq_self_eq_true, if_true, List.cons.injEq] at first
      obtain ⟨rfl, rest⟩ := first
      rw [ih (List.pairwise_cons.1 ordered).2 (List.pairwise_cons.1 ordered').2]
      intro k
      by_cases met : key c = k
      · rw [← met]
        exact rest
      · simpa [List.filter_cons, met] using same k

theorem Arranged.unique (is : Arranged key chains arranged) (is' : Arranged key chains' arranged')
    (ties : ∀ k, (chains'.filter fun c => key c == k) = chains.filter fun c => key c == k) :
    arranged' = arranged := by
  apply eq_of_ordered is'.ordered is.ordered
  intro k
  rw [is.stable, is'.stable, ties]

theorem arrange_eq_of_ties
    (ties : ∀ k, (chains'.filter fun c => key c == k) = chains.filter fun c => key c == k) :
    arrange key chains' = arrange key chains :=
  (arranged_arrange key chains).unique (arranged_arrange key chains') ties

end Arrange

section Listing

variable {v : Json} {c : Chain} {tops tops' : List Json} {chains chains' : List Chain}
  {text text' : String}

def headKey? (v : Json) : Option Int :=
  (position? v).map fun place => Chain.scanKey ⟨place.1, place.2, []⟩

def Apart (tops : List Json) : Prop :=
  tops.Pairwise fun v w => ∀ k, headKey? v = some k → headKey? w ≠ some k

/-- The blocks that the scan line meets at once stand in the same order in both lists. -/
def SameTies (tops tops' : List Json) : Prop :=
  ∀ k, (tops'.filter fun v => headKey? v == some k) = tops.filter fun v => headKey? v == some k

def Shows (text : String) (tops : List Json) : Prop :=
  ∃ doc, Json.parse? text = some doc ∧ Lists doc tops

theorem headKey?_of_chain? (is : chain? v = some c) : headKey? v = some c.scanKey := by
  rw [headKey?, (chain?_eq_some_iff.1 is).1]
  rfl

theorem Apart.sameTies (apart : Apart tops) (perm : tops'.Perm tops) : SameTies tops tops' := by
  intro k
  have part := perm.filter fun v => headKey? v == some k
  have apart' := List.Pairwise.filter (fun v => headKey? v == some k) apart
  have met : ∀ v ∈ tops.filter (fun v => headKey? v == some k), headKey? v = some k :=
    fun v member => beq_iff_eq.1 (List.mem_filter.1 member).2
  generalize tops.filter (fun v => headKey? v == some k) = here at *
  match here with
  | [] => exact part.eq_nil
  | [v] => exact List.perm_singleton.1 part
  | v :: w :: _ =>
    have first := met v List.mem_cons_self
    have second := met w (List.mem_cons_of_mem _ List.mem_cons_self)
    exact absurd second ((List.pairwise_cons.1 apart').1 w List.mem_cons_self k first)

theorem filter_scanKey (read : List.Forall₂ (fun v c => chain? v = some c) tops chains) (k : Int) :
    (chains.filter fun c => c.scanKey == k) =
      (tops.filter fun v => headKey? v == some k).filterMap chain? := by
  induction read with
  | nil => rfl
  | cons is _ ih =>
    rw [List.filter_cons, List.filter_cons, headKey?_of_chain? is, ih]
    split
    next met => simp [is, beq_iff_eq.1 met]
    next other => simp [beq_iff_eq.not.1 other]

theorem ties_of_sameTies (same : SameTies tops tops')
    (read : List.Forall₂ (fun v c => chain? v = some c) tops chains)
    (read' : List.Forall₂ (fun v c => chain? v = some c) tops' chains') (k : Int) :
    (chains'.filter fun c => c.scanKey == k) = chains.filter fun c => c.scanKey == k := by
  rw [filter_scanKey read, filter_scanKey read', same]

theorem chains?_of_lists {doc : Json} (lists : Lists doc tops) :
    chains? doc = tops.mapM chain? := by
  obtain ⟨none, rfl⟩ | ⟨top, found, ⟨none, rfl⟩ | listed⟩ := lists
  · simp [chains?, none]
  · simp [chains?, found, none, Json.orElse]
  · simp [chains?, found, listed, Json.orElse, Json.items?]

theorem load_of_none (shows : Shows text tops) (read : tops.mapM chain? = none) :
    load text = .error .malformed := by
  obtain ⟨doc, parsed, lists⟩ := shows
  rw [load, parsed, Option.bind_some, chains?_of_lists lists, read]

theorem load_of_some (shows : Shows text tops) (read : tops.mapM chain? = some chains) :
    load text = (assemble (arrange Chain.scanKey chains)).checked := by
  obtain ⟨doc, parsed, lists⟩ := shows
  rw [load, parsed, Option.bind_some, chains?_of_lists lists, read]

theorem load_of_not_shows (not : ∀ tops, ¬ Shows text tops) : load text = .error .malformed := by
  unfold load
  split
  next => rfl
  next chains read =>
    obtain ⟨doc, parsed, decodes⟩ := Option.bind_eq_some_iff.1 read
    obtain ⟨tops, lists, -⟩ := draws_of_chains? decodes
    exact absurd ⟨doc, parsed, lists⟩ (not tops)

theorem exists_mapM_iff {α β : Type} {f : α → Option β} {as : List α} :
    (∃ bs, as.mapM f = some bs) ↔ ∀ a ∈ as, ∃ b, f a = some b := by
  induction as with
  | nil => simp
  | cons a as ih => simp [List.mapM_cons, ← ih, Option.bind_eq_some_iff]

theorem exists_chains_of_perm (perm : tops'.Perm tops) (read : tops.mapM chain? = some chains) :
    ∃ chains', tops'.mapM chain? = some chains' := by
  have each := exists_mapM_iff.1 ⟨chains, read⟩
  exact exists_mapM_iff.2 fun v member => each v (perm.mem_iff.1 member)

theorem load_of_sameTies (shows : Shows text tops) (shows' : Shows text' tops')
    (perm : tops'.Perm tops) (same : SameTies tops tops') : load text' = load text := by
  cases read : tops.mapM chain? with
  | none =>
    have read' : tops'.mapM chain? = none := by
      by_contra some
      obtain ⟨chains', read'⟩ := Option.ne_none_iff_exists'.1 some
      obtain ⟨chains, read''⟩ := exists_chains_of_perm perm.symm read'
      cases read.symm.trans read''
    rw [load_of_none shows read, load_of_none shows' read']
  | some chains =>
    obtain ⟨chains', read'⟩ := exists_chains_of_perm perm read
    have ties := ties_of_sameTies same (mapM_eq_some_iff.1 read) (mapM_eq_some_iff.1 read')
    rw [load_of_some shows read, load_of_some shows' read', arrange_eq_of_ties ties]

/-- Heads come in the order of their places, and those that the scan line meets at once in the order
of the document. So documents that list the same blocks in different orders give the same workspace,
or the same defect at the same block, unless heads that are met at once change places. -/
theorem load_follows_places :
    (∀ text text' tops tops', Shows text tops → Shows text' tops' → tops'.Perm tops →
      (Apart tops → load text' = load text) ∧ (SameTies tops tops' → load text' = load text)) ∧
    (∀ text tops chains, Shows text tops →
      List.Forall₂ (fun v c => chain? v = some c) tops chains →
        ∃ arranged, Arranged Chain.scanKey chains arranged ∧ Flattens arranged (load text)) ∧
    ∀ text, (∀ tops, ¬ Shows text tops) → load text = .error .malformed := by
  refine ⟨?_, ?_, fun text not => load_of_not_shows not⟩
  · intro text text' tops tops' shows shows' perm
    exact ⟨fun apart => load_of_sameTies shows shows' perm (apart.sameTies perm),
      load_of_sameTies shows shows' perm⟩
  · intro text tops chains shows read
    have decodes := mapM_eq_some_iff.2 read
    have arranged := arranged_arrange Chain.scanKey chains
    refine ⟨_, arranged, ?_⟩
    rw [load_of_some shows decodes]
    obtain ⟨doc, -, lists⟩ := shows
    have draws := draws_of_chains? ((chains?_of_lists lists).trans decodes)
    exact flattens_checked (draws.readable.of_perm arranged.perm)

def headAt (kind : String) (y : Nat) : Json := .record [("type", .string kind), ("y", .nat y)]

def landingFirst : String :=
  "\x7b\"blocks\":\x7b\"blocks\":[\x7b\"type\":\"land\",\"y\":300\x7d," ++
    "\x7b\"type\":\"take_off\",\"y\":20\x7d]\x7d\x7d"

def landingLast : String :=
  "\x7b\"blocks\":\x7b\"blocks\":[\x7b\"type\":\"take_off\",\"y\":20\x7d," ++
    "\x7b\"type\":\"land\",\"y\":300\x7d]\x7d\x7d"

theorem landingFirst_shows : Shows landingFirst [headAt "land" 300, headAt "take_off" 20] :=
  ⟨.record [("blocks", .record [("blocks", .array [headAt "land" 300, headAt "take_off" 20])])],
    rfl, .inr ⟨_, rfl, .inr rfl⟩⟩

theorem landingLast_shows : Shows landingLast [headAt "take_off" 20, headAt "land" 300] :=
  ⟨.record [("blocks", .record [("blocks", .array [headAt "take_off" 20, headAt "land" 300])])],
    rfl, .inr ⟨_, rfl, .inr rfl⟩⟩

theorem landingFirst_apart : Apart [headAt "land" 300, headAt "take_off" 20] := by
  have different : headKey? (headAt "land" 300) ≠ headKey? (headAt "take_off" 20) := by
    decide +kernel
  refine .cons ?_ (List.pairwise_singleton _ _)
  intro w member k first second
  rw [List.mem_singleton.1 member] at second
  exact different (first.trans second.symm)

theorem landingFirst_reads :
    ∃ chains, List.Forall₂ (fun v c => chain? v = some c)
      [headAt "land" 300, headAt "take_off" 20] chains := by
  obtain ⟨below, standsBelow⟩ :=
    Option.isSome_iff_exists.1 (rfl : (position? (headAt "land" 300)).isSome = true)
  obtain ⟨above, standsAbove⟩ :=
    Option.isSome_iff_exists.1 (rfl : (position? (headAt "take_off" 20)).isSome = true)
  have land : Unrolls (headAt "land" 300) [⟨"land", .empty⟩] := .last rfl rfl rfl
  have takeOff : Unrolls (headAt "take_off" 20) [⟨"take_off", .empty⟩] := .last rfl rfl rfl
  exact ⟨[⟨below.1, below.2, _⟩, ⟨above.1, above.2, _⟩],
    .cons (chain?_eq_some_iff.2 ⟨standsBelow, land⟩)
      (.cons (chain?_eq_some_iff.2 ⟨standsAbove, takeOff⟩) .nil)⟩

theorem load_landingLast :
    Shows landingFirst [headAt "land" 300, headAt "take_off" 20] ∧
      Shows landingLast [headAt "take_off" 20, headAt "land" 300] ∧
      Apart [headAt "land" 300, headAt "take_off" 20] ∧
      load landingLast = load landingFirst ∧
      (∃ chains arranged, Arranged Chain.scanKey chains arranged ∧
        Flattens arranged (load landingFirst)) ∧
      load "[" = .error .malformed := by
  have perm : [headAt "take_off" 20, headAt "land" 300].Perm
      [headAt "land" 300, headAt "take_off" 20] := List.Perm.swap _ _ _
  have unread : ∀ tops, ¬ Shows "[" tops := by
    rintro tops ⟨doc, parsed, -⟩
    cases parsed
  obtain ⟨reordered, ordered, unreadable⟩ := load_follows_places
  have same := (reordered _ _ _ _ landingFirst_shows landingLast_shows perm).1 landingFirst_apart
  obtain ⟨chains, read⟩ := landingFirst_reads
  obtain ⟨arranged, is, flattens⟩ := ordered _ _ chains landingFirst_shows read
  exact ⟨landingFirst_shows, landingLast_shows, landingFirst_apart, same,
    ⟨chains, arranged, is, flattens⟩, unreadable "[" unread⟩

end Listing

end FlightBlocks.Canvas
