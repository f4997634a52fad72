import FlightBlocks.Blocks.Walk
import Mathlib.Data.List.Nodup
/-!
What a walk returns. The links from a head lead through blocks that exist until they end, meet an
index a second time, or come to an index without a block. A walk returns the kinds along the
routes of all its heads, or says how the first head without a route fails.
-/

namespace FlightBlocks.BlockSource

/-- The links lead from `i` through the blocks at the indices `path` to `j`. -/
inductive Leads (nodes : List (Nat × Node)) : Nat → List Nat → Nat → Prop
  | here {i : Nat} : Leads nodes i [] i
  | link {i j k : Nat} {node : Node} {path : List Nat} (found : node? nodes i = some node)
      (next : node.next = some j) (rest : Leads nodes j path k) : Leads nodes i (i :: path) k

/-- All indices that are met from `head` on until a block has no successor, none of them twice. -/
def Route (nodes : List (Nat × Node)) (head : Nat) (route : List Nat) : Prop :=
  route.Nodup ∧ ∃ path last node, route = path ++ [last] ∧ Leads nodes head path last ∧
    node? nodes last = some node ∧ node.next = none

def Good (nodes : List (Nat × Node)) (head : Nat) : Prop := ∃ route, Route nodes head route

def Returns (nodes : List (Nat × Node)) (head i : Nat) : Prop :=
  ∃ path, Leads nodes head path i ∧ path.Nodup ∧ i ∈ path

def Breaks (nodes : List (Nat × Node)) (head i : Nat) : Prop :=
  ∃ path, Leads nodes head path i ∧ path.Nodup ∧ node? nodes i = none

def kindsAlong (nodes : List (Nat × Node)) (route : List Nat) : List String :=
  route.filterMap fun i => (node? nodes i).map Node.kind

theorem node?_without {nodes : List (Nat × Node)} {i j : Nat} (different : j ≠ i) :
    node? (without nodes i) j = node? nodes j := by
  unfold node? without
  rw [List.find?_filter]
  congr 2
  funext entry
  by_cases same : entry.1 = j <;> simp [same, different]

/-- What is left of `nodes` when the indices `seen` have been met. -/
def Rest (nodes left : List (Nat × Node)) (seen : List Nat) : Prop :=
  ∀ j, j ∉ seen → node? left j = node? nodes j

theorem Rest.step {nodes left : List (Nat × Node)} {seen : List Nat} (rest : Rest nodes left seen)
    (i : Nat) : Rest nodes (without left i) (i :: seen) := by
  intro j unseen
  obtain ⟨different, before⟩ := not_or.1 (mt List.mem_cons.2 unseen)
  rw [node?_without different, rest j before]

section

variable {nodes : List (Nat × Node)} {count : Nat}

theorem follow_of_mem {left : List (Nat × Node)} {seen : List Nat} {i : Nat} (met : i ∈ seen) :
    follow count left seen i = .error (.cycle i) := by
  rw [follow, if_pos met]

theorem follow_of_missing {left : List (Nat × Node)} {seen : List Nat} {i : Nat}
    (unseen : i ∉ seen) (missing : node? left i = none) :
    follow count left seen i = .error (.dangling i count) := by
  rw [follow, if_neg unseen]
  split <;> simp_all

theorem follow_of_last {left : List (Nat × Node)} {seen : List Nat} {i : Nat} {node : Node}
    (unseen : i ∉ seen) (found : node? left i = some node) (last : node.next = none) :
    follow count left seen i = .ok [node.kind] := by
  rw [follow, if_neg unseen]
  split <;> simp_all

theorem follow_of_next {left : List (Nat × Node)} {seen : List Nat} {i j : Nat} {node : Node}
    (unseen : i ∉ seen) (found : node? left i = some node) (next : node.next = some j) :
    follow count left seen i =
      (follow count (without left i) (i :: seen) j).map (node.kind :: ·) := by
  rw [follow, if_neg unseen]
  split
  · simp_all
  · simp_all
    rfl

theorem follow_of_leads (count : Nat) {left : List (Nat × Node)} {seen path : List Nat}
    {i j : Nat} (leads : Leads nodes i path j) (rest : Rest nodes left seen)
    (distinct : path.Nodup) (apart : ∀ k ∈ path, k ∉ seen) :
    ∃ left', Rest nodes left' (path.reverse ++ seen) ∧
      follow count left seen i =
        (follow count left' (path.reverse ++ seen) j).map (kindsAlong nodes path ++ ·) := by
  induction leads generalizing left seen with
  | here =>
    refine ⟨left, rest, ?_⟩
    cases h : follow count left seen _ <;> simp [kindsAlong, h, Except.map]
  | @link i j k node path found next _ ih =>
    obtain ⟨fresh, distinct⟩ := List.nodup_cons.1 distinct
    have unseen : i ∉ seen := apart i List.mem_cons_self
    have here : node? left i = some node := by rw [rest i unseen, found]
    have later : ∀ k ∈ path, k ∉ i :: seen := by
      intro k member again
      rcases List.mem_cons.1 again with rfl | again
      · exact fresh member
      · exact apart k (List.mem_cons_of_mem _ member) again
    obtain ⟨left', rest', walked⟩ := ih (rest.step i) distinct later
    refine ⟨left', by simpa using rest', ?_⟩
    rw [follow_of_next unseen here next, walked]
    simp only [List.reverse_cons, List.append_assoc, List.singleton_append]
    cases follow count left' (path.reverse ++ i :: seen) k <;>
      simp [kindsAlong, found, Except.map]

theorem rest_nil (nodes : List (Nat × Node)) : Rest nodes nodes [] := fun _ _ => rfl

theorem follow_of_route (count : Nat) {head : Nat} {route : List Nat}
    (is : Route nodes head route) :
    follow count nodes [] head = .ok (kindsAlong nodes route) := by
  obtain ⟨distinct, path, last, node, rfl, leads, found, ends⟩ := is
  obtain ⟨distinct, -, apart⟩ := List.nodup_append.1 distinct
  obtain ⟨left, rest, walked⟩ :=
    follow_of_leads count leads (rest_nil nodes) distinct (by simp)
  have unseen : last ∉ path.reverse ++ [] := by
    intro member
    exact apart last (by simpa using member) last List.mem_cons_self rfl
  rw [walked, follow_of_last unseen ((rest last unseen).trans found) ends]
  simp [Except.map, kindsAlong, found]

theorem follow_of_returns {head i : Nat} (back : Returns nodes head i) :
    follow count nodes [] head = .error (.cycle i) := by
  obtain ⟨path, leads, distinct, met⟩ := back
  obtain ⟨left, -, walked⟩ :=
    follow_of_leads count leads (rest_nil nodes) distinct (by simp)
  rw [walked, follow_of_mem (by simpa using met)]
  rfl

theorem Leads.found_of_mem {path : List Nat} {i j k : Nat} (leads : Leads nodes i path j)
    (member : k ∈ path) : node? nodes k ≠ none := by
  induction leads with
  | here => simp at member
  | link found _ _ ih =>
    rcases List.mem_cons.1 member with rfl | member
    · simp [found]
    · exact ih member

theorem follow_of_breaks {head i : Nat} (off : Breaks nodes head i) :
    follow count nodes [] head = .error (.dangling i count) := by
  obtain ⟨path, leads, distinct, missing⟩ := off
  obtain ⟨left, rest, walked⟩ :=
    follow_of_leads count leads (rest_nil nodes) distinct (by simp)
  have unseen : i ∉ path.reverse ++ [] := by
    intro member
    exact leads.found_of_mem (by simpa using member) missing
  rw [walked, follow_of_missing unseen ((rest i unseen).trans missing)]
  rfl

theorem Leads.extend {path : List Nat} {i j k : Nat} {node : Node} (leads : Leads nodes i path j)
    (found : node? nodes j = some node) (next : node.next = some k) :
    Leads nodes i (path ++ [j]) k := by
  induction leads with
  | here => exact .link found next .here
  | link found' next' _ ih => exact .link found' next' (ih found)

theorem fate_of_leads {left : List (Nat × Node)} {head i : Nat} {path : List Nat}
    (leads : Leads nodes head path i) (distinct : path.Nodup) (rest : Rest nodes left path) :
    Good nodes head ∨ (∃ j, Returns nodes head j) ∨ ∃ j, Breaks nodes head j := by
  by_cases met : i ∈ path
  · exact .inr (.inl ⟨i, path, leads, distinct, met⟩)
  · match found : node? left i with
    | none => exact .inr (.inr ⟨i, path, leads, distinct, (rest i met).symm.trans found⟩)
    | some node =>
      have here : node? nodes i = some node := (rest i met).symm.trans found
      have longer : (path ++ [i]).Nodup := by
        rw [List.nodup_append]
        exact ⟨distinct, by simp, by rintro a member b same rfl; simp_all⟩
      match next : node.next with
      | none => exact .inl ⟨path ++ [i], longer, path, i, node, rfl, leads, here, next⟩
      | some j =>
        have rest' : Rest nodes (without left i) (path ++ [i]) := fun k unseen =>
          rest.step i k (by simpa [or_comm] using unseen)
        -- the recursion of the walk itself: with `i` met, fewer nodes are left
        exact fate_of_leads (leads.extend here next) longer rest'
termination_by left.length
decreasing_by exact length_without_lt found

theorem fate (nodes : List (Nat × Node)) (head : Nat) :
    Good nodes head ∨ (∃ i, Returns nodes head i) ∨ ∃ i, Breaks nodes head i :=
  fate_of_leads .here List.nodup_nil (rest_nil nodes)

theorem Good.not_returns {head i : Nat} (good : Good nodes head) : ¬ Returns nodes head i := by
  intro back
  obtain ⟨route, is⟩ := good
  have := (follow_of_route 0 is).symm.trans (follow_of_returns back)
  cases this

end

section

variable {source : BlockSource}

theorem walk_eq_map (source : BlockSource) :
    source.walk =
      (source.heads.mapM (follow source.count source.nodes [])).map List.flatten := by
  unfold walk
  cases source.heads.mapM (follow source.count source.nodes []) <;> rfl

theorem mapM_follow_of_routes {heads : List Nat} {routes : List (List Nat)}
    (are : List.Forall₂ (Route source.nodes) heads routes) :
    heads.mapM (follow source.count source.nodes []) =
      .ok (routes.map (kindsAlong source.nodes)) := by
  induction are with
  | nil => rfl
  | cons is _ ih => simp [follow_of_route _ is, ih, bind, Except.bind, pure, Except.pure]

theorem walk_of_routes {routes : List (List Nat)}
    (are : List.Forall₂ (Route source.nodes) source.heads routes) :
    source.walk = .ok (routes.flatMap (kindsAlong source.nodes)) := by
  rw [walk_eq_map, mapM_follow_of_routes are, List.flatMap_def]
  rfl

theorem routes_of_good {heads : List Nat} (good : ∀ head ∈ heads, Good source.nodes head) :
    ∃ routes, List.Forall₂ (Route source.nodes) heads routes := by
  induction heads with
  | nil => exact ⟨[], .nil⟩
  | cons head heads ih =>
    obtain ⟨route, is⟩ := good head List.mem_cons_self
    obtain ⟨routes, are⟩ := ih fun h member => good h (List.mem_cons_of_mem _ member)
    exact ⟨route :: routes, .cons is are⟩

theorem walk_of_first {before after : List Nat} {head : Nat} {defect : Defect}
    (heads : source.heads = before ++ head :: after)
    (good : ∀ h ∈ before, Good source.nodes h)
    (fails : follow source.count source.nodes [] head = .error defect) :
    source.walk = .error defect := by
  obtain ⟨routes, are⟩ := routes_of_good good
  rw [walk_eq_map, heads, List.mapM_append, mapM_follow_of_routes are, List.mapM_cons, fails]
  rfl

theorem exists_first_bad {heads : List Nat} (bad : ¬ ∀ head ∈ heads, Good source.nodes head) :
    ∃ before head after, heads = before ++ head :: after ∧
      (∀ h ∈ before, Good source.nodes h) ∧ ¬ Good source.nodes head := by
  induction heads with
  | nil => simp at bad
  | cons first heads ih =>
    by_cases good : Good source.nodes first
    · obtain ⟨before, head, after, rfl, all, no⟩ := ih (by simpa [good] using bad)
      exact ⟨first :: before, head, after, rfl, by simpa [good] using all, no⟩
    · exact ⟨[], first, heads, rfl, by simp, good⟩

def Fails (source : BlockSource) (head : Nat) (d : Defect) : Prop :=
  (∃ i, d = .cycle i ∧ Returns source.nodes head i) ∨
    ∃ i, d = .dangling i source.count ∧ Breaks source.nodes head i

theorem follow_of_fails {head : Nat} {d : Defect} (fails : Fails source head d) :
    follow source.count source.nodes [] head = .error d := by
  rcases fails with ⟨i, rfl, back⟩ | ⟨i, rfl, off⟩
  · exact follow_of_returns back
  · exact follow_of_breaks off

theorem fails_of_bad {head : Nat} (bad : ¬ Good source.nodes head) : ∃ d, Fails source head d := by
  rcases fate source.nodes head with good | ⟨i, back⟩ | ⟨i, off⟩
  · exact absurd good bad
  · exact ⟨_, .inl ⟨i, rfl, back⟩⟩
  · exact ⟨_, .inr ⟨i, rfl, off⟩⟩

theorem walk_error_of_bad (bad : ¬ ∀ head ∈ source.heads, Good source.nodes head) :
    ∃ defect, source.walk = .error defect := by
  obtain ⟨before, head, after, heads, good, no⟩ := exists_first_bad bad
  obtain ⟨d, fails⟩ := fails_of_bad no
  exact ⟨d, walk_of_first heads good (follow_of_fails fails)⟩

theorem walk_ok_iff_good :
    (∃ kinds, source.walk = .ok kinds) ↔ ∀ head ∈ source.heads, Good source.nodes head := by
  constructor
  · rintro ⟨kinds, walked⟩
    by_contra bad
    obtain ⟨defect, failed⟩ := walk_error_of_bad bad
    cases walked.symm.trans failed
  · intro good
    obtain ⟨routes, are⟩ := routes_of_good good
    exact ⟨_, walk_of_routes are⟩

theorem walk_eq_ok_iff {kinds : List String} :
    source.walk = .ok kinds ↔ ∃ routes, List.Forall₂ (Route source.nodes) source.heads routes ∧
      kinds = routes.flatMap (kindsAlong source.nodes) := by
  constructor
  · intro walked
    obtain ⟨routes, are⟩ := routes_of_good (walk_ok_iff_good.1 ⟨kinds, walked⟩)
    exact ⟨routes, are, Except.ok.inj (walked.symm.trans (walk_of_routes are))⟩
  · rintro ⟨routes, are, rfl⟩
    exact walk_of_routes are

theorem walk_error_iff_fails {before after : List Nat} {head : Nat} {d : Defect}
    (heads : source.heads = before ++ head :: after)
    (good : ∀ h ∈ before, Good source.nodes h) (bad : ¬ Good source.nodes head) :
    source.walk = .error d ↔ Fails source head d := by
  constructor
  · intro failed
    obtain ⟨d', fails⟩ := fails_of_bad bad
    cases failed.symm.trans (walk_of_first heads good (follow_of_fails fails))
    exact fails
  · intro fails
    exact walk_of_first heads good (follow_of_fails fails)

theorem walk_eq_error_iff {d : Defect} :
    source.walk = .error d ↔ ∃ before head after, source.heads = before ++ head :: after ∧
      (∀ h ∈ before, Good source.nodes h) ∧ Fails source head d := by
  constructor
  · intro failed
    have bad : ¬ ∀ head ∈ source.heads, Good source.nodes head := by
      intro good
      obtain ⟨kinds, walked⟩ := walk_ok_iff_good.2 good
      cases failed.symm.trans walked
    obtain ⟨before, head, after, heads, good, no⟩ := exists_first_bad bad
    exact ⟨before, head, after, heads, good, (walk_error_iff_fails heads good no).1 failed⟩
  · rintro ⟨before, head, after, heads, good, fails⟩
    exact walk_of_first heads good (follow_of_fails fails)

theorem walk_eq_cycle_iff {i : Nat} :
    source.walk = .error (.cycle i) ↔ ∃ before head after,
      source.heads = before ++ head :: after ∧ (∀ h ∈ before, Good source.nodes h) ∧
        Returns source.nodes head i := by
  simp [walk_eq_error_iff, Fails]

theorem walk_defect_iff {before after : List Nat} {head : Nat}
    (heads : source.heads = before ++ head :: after)
    (good : ∀ h ∈ before, Good source.nodes h) (bad : ¬ Good source.nodes head) :
    (∃ i, Returns source.nodes head i ∨ Breaks source.nodes head i) ∧
      (∀ i, source.walk = .error (.cycle i) ↔ Returns source.nodes head i) ∧
      ∀ i count, source.walk = .error (.dangling i count) ↔
        Breaks source.nodes head i ∧ count = source.count := by
  refine ⟨?_, ?_, ?_⟩
  · obtain ⟨d, ⟨i, -, back⟩ | ⟨i, -, off⟩⟩ := fails_of_bad bad
    · exact ⟨i, .inl back⟩
    · exact ⟨i, .inr off⟩
  · intro i
    rw [walk_error_iff_fails heads good bad]
    simp [Fails]
  · intro i count
    rw [walk_error_iff_fails heads good bad]
    simp [Fails, and_comm]

end

end FlightBlocks.BlockSource

namespace FlightBlocks.Workspace

theorem node?_zipIdx (blocks : List Block) (start i : Nat) :
    BlockSource.node? ((blocks.zipIdx start).map fun (b, i) => (i, node b)) (start + i) =
      blocks[i]?.map node := by
  induction blocks generalizing start i with
  | nil => rfl
  | cons b blocks ih =>
    cases i with
    | zero => simp [BlockSource.node?]
    | succ i =>
      have next := ih (start + 1) i
      rw [Nat.add_assoc, Nat.add_comm 1 i] at next
      simpa [BlockSource.node?, List.zipIdx_cons] using next

theorem node?_source (ws : Workspace) (i : Nat) :
    BlockSource.node? ws.source.nodes i = ws.blocks[i]?.map node := by
  simpa [source] using node?_zipIdx ws.blocks 0 i

end FlightBlocks.Workspace

namespace FlightBlocks.BlockSource

/-- A walk that is asked for more room than there can be breaks off, whatever its links. Any other
succeeds when all heads are good, and gives the kinds along their routes in order; if not, the first
head that is not good is reported: the first index its links meet twice, or the first without a
block. The blocks of a workspace are such a source, whether it was checked or not, and where there
is room for them there is room for their kinds. -/
theorem walk_is_routes_or_first_defect (source : BlockSource) :
    (source.walk? = none ↔ mostBytes < source.count * textBytes) ∧
      (hasRoom source.count textBytes = true →
        ((∃ kinds, source.walk? = some (.ok kinds)) ↔
          ∀ head ∈ source.heads, Good source.nodes head) ∧
        (∀ kinds, source.walk? = some (.ok kinds) ↔
          ∃ routes, List.Forall₂ (Route source.nodes) source.heads routes ∧
            kinds = routes.flatMap (kindsAlong source.nodes)) ∧
        ∀ before head after, source.heads = before ++ head :: after →
          (∀ h ∈ before, Good source.nodes h) → ¬ Good source.nodes head →
            (∃ i, Returns source.nodes head i ∨ Breaks source.nodes head i) ∧
            (∀ i, source.walk? = some (.error (.cycle i)) ↔ Returns source.nodes head i) ∧
            ∀ i count, source.walk? = some (.error (.dangling i count)) ↔
              Breaks source.nodes head i ∧ count = source.count) ∧
      ∀ ws : Workspace, source = ws.source →
        (∀ size, textBytes ≤ size → hasRoom ws.blocks.length size = true →
          source.walk? = some ws.walk) ∧
        source.heads = ws.heads ∧ source.count = ws.blocks.length ∧
          ∀ i, node? source.nodes i = ws.blocks[i]?.map Workspace.node := by
  refine ⟨walk?_eq_none_iff, ?_, ?_⟩
  · intro room
    simp only [walk?_eq_some_iff room]
    exact ⟨walk_ok_iff_good, fun _ => walk_eq_ok_iff, fun _ _ _ => walk_defect_iff⟩
  · rintro ws rfl
    refine ⟨?_, rfl, rfl, ws.node?_source⟩
    intro size more room
    exact (walk?_eq_some_iff (hasRoom_of_le room (Nat.le_refl _) more)).2 rfl

def sharedThenCyclic : BlockSource where
  heads := [0, 0, 4, 9]
  nodes := [(0, ⟨"take_off", some 1⟩), (1, ⟨"land", none⟩), (2, ⟨"rotate", some 3⟩),
    (3, ⟨"forward_1s", some 2⟩), (4, ⟨"back_1s", some 2⟩)]
  count := 5

theorem sharedThenCyclic_good : Good sharedThenCyclic.nodes 0 :=
  ⟨[0, 1], by decide, [0], 1, ⟨"land", none⟩, rfl, .link rfl rfl .here, rfl, rfl⟩

theorem sharedThenCyclic_returns : Returns sharedThenCyclic.nodes 4 2 :=
  ⟨[4, 2, 3], .link rfl rfl (.link rfl rfl (.link rfl rfl .here)), by decide, by decide⟩

theorem walk_sharedThenCyclic :
    hasRoom sharedThenCyclic.count textBytes = true ∧
      sharedThenCyclic.heads = [0, 0] ++ 4 :: [9] ∧
      (∀ h ∈ [0, 0], Good sharedThenCyclic.nodes h) ∧ ¬ Good sharedThenCyclic.nodes 4 ∧
      sharedThenCyclic.walk? = some (.error (.cycle 2)) := by
  have room : hasRoom sharedThenCyclic.count textBytes = true := by decide
  have good : ∀ h ∈ [0, 0], Good sharedThenCyclic.nodes h := by
    simpa using sharedThenCyclic_good
  have bad : ¬ Good sharedThenCyclic.nodes 4 := fun good =>
    good.not_returns sharedThenCyclic_returns
  obtain ⟨-, walks, -⟩ := walk_is_routes_or_first_defect sharedThenCyclic
  obtain ⟨-, cyclic, -⟩ := (walks room).2.2 [0, 0] 4 [9] rfl good bad
  exact ⟨room, rfl, good, bad, (cyclic 2).2 sharedThenCyclic_returns⟩

def looselyBounded : BlockSource := ⟨[0], [(0, ⟨"land", none⟩)], mostWord⟩

theorem looselyBounded_breaksOff :
    (∀ head ∈ looselyBounded.heads, Good looselyBounded.nodes head) ∧
      looselyBounded.nodes.length ≤ looselyBounded.count ∧ looselyBounded.walk? = none := by
  have good : Good looselyBounded.nodes 0 :=
    ⟨[0], by decide, [], 0, ⟨"land", none⟩, rfl, .here, rfl, rfl⟩
  exact ⟨fun head member => List.mem_singleton.1 member ▸ good, by decide,
    walk?_eq_none_iff.2 (by decide)⟩

end FlightBlocks.BlockSource
