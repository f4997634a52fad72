import FlightBlocks.Proofs.Blocks.Validation
import FlightBlocks.Proofs.Blocks.Walk
import Mathlib.Data.List.Forall2
import Mathlib.Data.List.Induction
/-!
Chains appended to a workspace. The routes of the heads that were there stay as they are, and the
new head has the route through the new blocks, so a workspace that was built from chains is walked
from its first block to its last.
-/

namespace FlightBlocks

namespace Workspace

/-- Blocks of these kinds, to stand from index `start` on, each linked to the one after it. -/
def linked (start : Nat) : List String → List Block
  | [] => []
  | [kind] => [Block.ofKind kind]
  | kind :: kinds => { Block.ofKind kind with next := some (start + 1) } :: linked (start + 1) kinds

theorem linked_cons (start : Nat) (kind : String) (kinds : List String) :
    linked start (kind :: kinds) =
      { Block.ofKind kind with next := if kinds = [] then none else some (start + 1) } ::
        linked (start + 1) kinds := by
  cases kinds with
  | nil => rfl
  | cons next kinds => rfl

theorem length_linked (start : Nat) (kinds : List String) :
    (linked start kinds).length = kinds.length := by
  induction kinds generalizing start with
  | nil => rfl
  | cons kind kinds ih => rw [linked_cons, List.length_cons, ih, List.length_cons]

theorem kind_linked (start : Nat) (kinds : List String) :
    (linked start kinds).map Block.kind = kinds := by
  induction kinds generalizing start with
  | nil => rfl
  | cons kind kinds ih =>
    rw [linked_cons, List.map_cons, ih]
    rfl

theorem getElem?_linked (start : Nat) (kinds : List String) (i : Nat) :
    (linked start kinds)[i]? = kinds[i]?.map fun kind =>
      ⟨kind, if i + 1 < kinds.length then some (start + i + 1) else none, .empty⟩ := by
  induction kinds generalizing start i with
  | nil => rfl
  | cons kind kinds ih =>
    rw [linked_cons]
    cases i with
    | zero => cases kinds <;> simp [Block.ofKind]
    | succ i =>
      have place : start + 1 + i + 1 = start + (i + 1) + 1 := by omega
      simp only [List.getElem?_cons_succ, ih, place, List.length_cons, Nat.add_lt_add_iff_right]

theorem fields_linked {start : Nat} {kinds : List String} {b : Block}
    (member : b ∈ linked start kinds) : b.fields = .empty := by
  obtain ⟨i, here⟩ := List.mem_iff_getElem?.1 member
  rw [getElem?_linked] at here
  obtain ⟨kind, -, rfl⟩ := Option.map_eq_some_iff.1 here
  rfl

theorem next_linked_lt {start n : Nat} {kinds : List String} {b : Block}
    (member : b ∈ linked start kinds) (next : b.next = some n) : n < start + kinds.length := by
  induction kinds generalizing start with
  | nil => cases member
  | cons kind kinds ih =>
    rw [linked_cons] at member
    rw [List.length_cons]
    rcases List.mem_cons.1 member with rfl | member
    · cases kinds with
      | nil => cases next
      | cons _ _ =>
        cases next
        rw [List.length_cons]
        omega
    · have before := ih member
      omega

end Workspace

namespace BlockSource

variable {nodes nodes' : List (Nat × Node)}

def Within (nodes nodes' : List (Nat × Node)) : Prop :=
  ∀ i node, node? nodes i = some node → node? nodes' i = some node

theorem Leads.within {i j : Nat} {path : List Nat} (within : Within nodes nodes')
    (leads : Leads nodes i path j) : Leads nodes' i path j := by
  induction leads with
  | here => exact .here
  | link found next _ ih => exact .link (within _ _ found) next ih

theorem Route.within {head : Nat} {route : List Nat} (within : Within nodes nodes')
    (is : Route nodes head route) : Route nodes' head route := by
  obtain ⟨distinct, path, last, node, split, leads, found, ends⟩ := is
  exact ⟨distinct, path, last, node, split, leads.within within, within _ _ found, ends⟩

theorem Good.within {head : Nat} (within : Within nodes nodes') (good : Good nodes head) :
    Good nodes' head := by
  obtain ⟨route, is⟩ := good
  exact ⟨route, is.within within⟩

theorem Returns.within {head i : Nat} (within : Within nodes nodes')
    (back : Returns nodes head i) : Returns nodes' head i := by
  obtain ⟨path, leads, distinct, met⟩ := back
  exact ⟨path, leads.within within, distinct, met⟩

theorem Route.found {head : Nat} {route : List Nat} (is : Route nodes head route) :
    ∀ i ∈ route, ∃ node, node? nodes i = some node := by
  intro i member
  obtain ⟨-, path, last, node, rfl, leads, found, -⟩ := is
  rcases List.mem_append.1 member with member | member
  · exact Option.ne_none_iff_exists'.1 (leads.found_of_mem member)
  · exact ⟨node, by rw [List.mem_singleton.1 member, found]⟩

theorem kindsAlong_within {route : List Nat} (within : Within nodes nodes')
    (found : ∀ i ∈ route, ∃ node, node? nodes i = some node) :
    kindsAlong nodes' route = kindsAlong nodes route := by
  refine List.filterMap_congr fun i member => ?_
  obtain ⟨node, here⟩ := found i member
  rw [here, within i node here]

theorem map_kindsAlong_within {heads : List Nat} {routes : List (List Nat)}
    (within : Within nodes nodes') (are : List.Forall₂ (Route nodes) heads routes) :
    routes.map (kindsAlong nodes') = routes.map (kindsAlong nodes) := by
  induction are with
  | nil => rfl
  | cons is _ ih => rw [List.map_cons, List.map_cons, ih, kindsAlong_within within is.found]

def Stands (nodes : List (Nat × Node)) (start : Nat) (blocks : List Block) : Prop :=
  ∀ i b, blocks[i]? = some b → node? nodes (start + i) = some (Workspace.node b)

theorem Stands.head {start : Nat} {b : Block} {blocks : List Block}
    (stands : Stands nodes start (b :: blocks)) : node? nodes start = some (Workspace.node b) :=
  stands 0 b rfl

theorem Stands.tail {start : Nat} {b : Block} {blocks : List Block}
    (stands : Stands nodes start (b :: blocks)) : Stands nodes (start + 1) blocks := by
  intro i b' here
  have next := stands (i + 1) b' here
  rwa [Nat.add_comm i 1, ← Nat.add_assoc] at next

theorem way_linked (kinds : List String) (kind : String) {start : Nat}
    (stands : Stands nodes start (Workspace.linked start (kind :: kinds))) :
    ∃ path last node, List.range' start (kind :: kinds).length = path ++ [last] ∧
      Leads nodes start path last ∧ node? nodes last = some node ∧ node.next = none := by
  induction kinds generalizing kind start with
  | nil => exact ⟨[], start, _, rfl, .here, stands.head, rfl⟩
  | cons next kinds ih =>
    obtain ⟨path, last, node, split, leads, found, ends⟩ := ih next stands.tail
    refine ⟨start :: path, last, node, ?_, .link stands.head rfl leads, found, ends⟩
    rw [List.length_cons, List.range'_succ, split, List.cons_append]

theorem route_linked {start : Nat} {kinds : List String} (nonempty : kinds ≠ [])
    (stands : Stands nodes start (Workspace.linked start kinds)) :
    Route nodes start (List.range' start kinds.length) := by
  cases kinds with
  | nil => exact absurd rfl nonempty
  | cons kind kinds => exact ⟨List.nodup_range', way_linked kinds kind stands⟩

theorem kindsAlong_linked (kinds : List String) {start : Nat}
    (stands : Stands nodes start (Workspace.linked start kinds)) :
    kindsAlong nodes (List.range' start kinds.length) = kinds := by
  induction kinds generalizing start with
  | nil => rfl
  | cons kind kinds ih =>
    rw [Workspace.linked_cons] at stands
    have rest := ih stands.tail
    rw [kindsAlong] at rest ⊢
    rw [List.length_cons, List.range'_succ, List.filterMap_cons, stands.head, rest]
    rfl

end BlockSource

namespace Workspace

open BlockSource

variable {ws : Workspace} {kinds : List String}

theorem foldl_push (ws : Workspace) (kinds : List String) :
    kinds.foldl (fun ws kind => (ws.push (.ofKind kind)).2) ws =
      ⟨ws.blocks ++ kinds.map Block.ofKind, ws.heads⟩ := by
  induction kinds generalizing ws with
  | nil => simp
  | cons kind kinds ih =>
    rw [List.foldl_cons, ih]
    simp [push]

theorem modify_append_cons (old : List Block) (b : Block) (rest : List Block) (f : Block → Block) :
    (old ++ b :: rest).modify old.length f = old ++ f b :: rest := by
  induction old with
  | nil => rfl
  | cons first old ih =>
    rw [List.cons_append, List.length_cons, List.modify_succ_cons, ih, List.cons_append]

/-- The loop over the indices links the blocks as the recursion over their kinds does. -/
theorem linkEach_eq (old : List Block) (kinds : List String) :
    linkEach old.length (old.length + kinds.length - 1) (old ++ kinds.map Block.ofKind) =
      old ++ linked old.length kinds := by
  induction kinds generalizing old with
  | nil => simp [linkEach, linked]
  | cons kind kinds ih =>
    cases kinds with
    | nil => simp [linkEach, linked]
    | cons next kinds =>
      -- the first round of the loop links `b`, and the others find it among the old blocks
      let b : Block := { Block.ofKind kind with next := some (old.length + 1) }
      have steps : old.length + (kind :: next :: kinds).length - 1 - old.length =
          kinds.length + 1 := by
        simp only [List.length_cons]
        omega
      have steps' : (old ++ [b]).length + (next :: kinds).length - 1 - (old ++ [b]).length =
          kinds.length := by
        simp only [List.length_append, List.length_cons]
        omega
      have later := ih (old ++ [b])
      rw [linkEach, steps'] at later
      rw [linkEach, steps, List.range'_succ, List.foldl_cons, List.map_cons, modify_append_cons]
      simpa [linked] using later

theorem pushChain_eq (nonempty : kinds ≠ []) :
    ws.pushChain kinds = (some ws.blocks.length,
      ⟨ws.blocks ++ linked ws.blocks.length kinds, ws.heads ++ [ws.blocks.length]⟩) := by
  have more : ¬ ws.blocks.length = (ws.blocks ++ kinds.map Block.ofKind).length := by
    have := List.length_pos_iff.2 nonempty
    rw [List.length_append, List.length_map]
    omega
  have stop : (ws.blocks ++ kinds.map Block.ofKind).length = ws.blocks.length + kinds.length := by
    rw [List.length_append, List.length_map]
  rw [pushChain, foldl_push, if_neg more, stop, linkEach_eq]

theorem pushChain_nil (ws : Workspace) : ws.pushChain [] = (none, ws) := by
  simp [pushChain]

theorem blocks_pushChain (ws : Workspace) (kinds : List String) :
    (ws.pushChain kinds).2.blocks = ws.blocks ++ linked ws.blocks.length kinds := by
  by_cases none : kinds = []
  · rw [none, pushChain_nil]
    exact (List.append_nil _).symm
  · rw [pushChain_eq none]

theorem heads_pushChain (nonempty : kinds ≠ []) :
    (ws.pushChain kinds).2.heads = ws.heads ++ [ws.blocks.length] := by
  rw [pushChain_eq nonempty]

theorem length_pushChain (ws : Workspace) (kinds : List String) :
    (ws.pushChain kinds).2.blocks.length = ws.blocks.length + kinds.length := by
  rw [blocks_pushChain, List.length_append, length_linked]

theorem within_pushChain (ws : Workspace) (kinds : List String) :
    Within ws.source.nodes (ws.pushChain kinds).2.source.nodes := by
  intro i node found
  rw [node?_source] at found ⊢
  obtain ⟨b, here, rfl⟩ := Option.map_eq_some_iff.1 found
  have inside : i < ws.blocks.length := (List.getElem?_eq_some_iff.1 here).1
  rw [blocks_pushChain, List.getElem?_append_left inside, here]
  rfl

theorem stands_pushChain (ws : Workspace) (kinds : List String) :
    Stands (ws.pushChain kinds).2.source.nodes ws.blocks.length
      (linked ws.blocks.length kinds) := by
  intro i b here
  rw [node?_source, blocks_pushChain, List.getElem?_append_right (Nat.le_add_right _ _),
    Nat.add_sub_cancel_left, here]
  rfl

theorem routes_pushChain {routes : List (List Nat)} (nonempty : kinds ≠ [])
    (are : List.Forall₂ (Route ws.source.nodes) ws.heads routes) :
    List.Forall₂ (Route (ws.pushChain kinds).2.source.nodes) (ws.pushChain kinds).2.heads
      (routes ++ [List.range' ws.blocks.length kinds.length]) := by
  have new := route_linked nonempty (stands_pushChain ws kinds)
  rw [heads_pushChain nonempty]
  exact List.rel_append (are.imp fun _ _ is => is.within (within_pushChain ws kinds))
    (.cons new .nil)

theorem walk_pushChain {walked : List String} (ok : ws.walk = .ok walked) :
    (ws.pushChain kinds).2.walk = .ok (walked ++ kinds) := by
  by_cases none : kinds = []
  · rw [none, List.append_nil, pushChain_nil]
    exact ok
  · obtain ⟨routes, are, rfl⟩ := walk_eq_ok_iff.1 ok
    have old := map_kindsAlong_within (within_pushChain ws kinds) are
    have new := kindsAlong_linked kinds (stands_pushChain ws kinds)
    calc (ws.pushChain kinds).2.walk
      _ = .ok ((routes ++ [List.range' ws.blocks.length kinds.length]).flatMap
            (kindsAlong (ws.pushChain kinds).2.source.nodes)) :=
          walk_of_routes (routes_pushChain none are)
      _ = .ok (routes.flatMap (kindsAlong ws.source.nodes) ++ kinds) := by
          rw [List.flatMap_append, List.flatMap_singleton, new, List.flatMap_def, old,
            ← List.flatMap_def]

theorem walk_pushChain_of_cycle {i : Nat} (failed : ws.walk = .error (.cycle i)) :
    (ws.pushChain kinds).2.walk = .error (.cycle i) := by
  by_cases none : kinds = []
  · rw [none, pushChain_nil]
    exact failed
  · obtain ⟨before, head, after, heads, good, back⟩ := walk_eq_cycle_iff.1 failed
    have heads' : (ws.pushChain kinds).2.heads =
        before ++ head :: (after ++ [ws.blocks.length]) := by
      have old : ws.heads = before ++ head :: after := heads
      rw [heads_pushChain none, old, List.append_assoc, List.cons_append]
    have within := within_pushChain ws kinds
    apply walk_eq_cycle_iff.2
    refine ⟨before, head, _, heads', ?_, back.within within⟩
    intro h member
    exact (good h member).within within

/-- The heads have routes that, one after another, go through all blocks from the first to the last,
and `chains` are the kinds along them. -/
def Chained (ws : Workspace) (chains : List (List String)) : Prop :=
  ∃ routes, List.Forall₂ (Route ws.source.nodes) ws.heads routes ∧
    routes.flatten = List.range ws.blocks.length ∧
    routes.map (kindsAlong ws.source.nodes) = chains

theorem chained_empty : Chained empty [] := ⟨[], .nil, rfl, rfl⟩

theorem Chained.pushChain {chains : List (List String)} (chained : Chained ws chains)
    (nonempty : kinds ≠ []) : Chained (ws.pushChain kinds).2 (chains ++ [kinds]) := by
  obtain ⟨routes, are, all, rfl⟩ := chained
  refine ⟨_, routes_pushChain nonempty are, ?_, ?_⟩
  · rw [List.flatten_append, all, length_pushChain, List.range_add]
    simp [List.range'_eq_map_range]
  · rw [List.map_append, map_kindsAlong_within (within_pushChain ws kinds) are,
      List.map_singleton, kindsAlong_linked kinds (stands_pushChain ws kinds)]

theorem Chained.walk {chains : List (List String)} (chained : Chained ws chains) :
    ws.walk = .ok chains.flatten := by
  obtain ⟨routes, are, -, rfl⟩ := chained
  exact walk_of_routes are

theorem bounded_empty : Bounded empty := ⟨nofun, nofun⟩

theorem Bounded.pushChain (bounded : Bounded ws) (nonempty : kinds ≠ []) :
    Bounded (ws.pushChain kinds).2 := by
  have some' : 0 < kinds.length := List.length_pos_iff.2 nonempty
  constructor
  · rw [heads_pushChain nonempty, length_pushChain]
    intro head member
    rcases List.mem_append.1 member with member | member
    · exact Nat.lt_add_right _ (bounded.heads head member)
    · rw [List.mem_singleton.1 member]
      exact Nat.lt_add_of_pos_right some'
  · rw [length_pushChain]
    intro b member n next
    rw [blocks_pushChain] at member
    rcases List.mem_append.1 member with member | member
    · exact Nat.lt_add_right _ (bounded.links b member n next)
    · exact next_linked_lt member next

theorem validate_pushChain (valid : ws.validate = .ok ()) :
    (ws.pushChain kinds).2.validate = .ok () ↔ ∀ kind ∈ kinds, Text.allBlank kind = false := by
  by_cases none : kinds = []
  · rw [none, pushChain_nil]
    exact ⟨nofun, fun _ => valid⟩
  · obtain ⟨bounded, old⟩ := validate_eq_ok_iff.1 valid
    have new : (∀ b ∈ linked ws.blocks.length kinds, Text.allBlank b.kind = false ∧
        ∀ entry ∈ b.fields.entries, entry.2.inRange = true) ↔
          ∀ kind ∈ kinds, Text.allBlank kind = false := by
      constructor
      · intro sound kind member
        rw [← kind_linked ws.blocks.length kinds] at member
        obtain ⟨b, inside, rfl⟩ := List.mem_map.1 member
        exact (sound b inside).1
      · intro named b member
        have kind := List.mem_map_of_mem (f := Block.kind) member
        rw [kind_linked] at kind
        rw [fields_linked member]
        exact ⟨named _ kind, nofun⟩
    rw [validate_eq_ok_iff, blocks_pushChain, List.forall_mem_append, new]
    exact ⟨fun sound => sound.2.2, fun named => ⟨bounded.pushChain none, old, named⟩⟩

def ofChains (chains : List (List String)) : Workspace :=
  chains.foldl (fun ws kinds => (ws.pushChain kinds).2) empty

section OfChains

variable {chains : List (List String)}

theorem ofChains_concat (chains : List (List String)) (kinds : List String) :
    ofChains (chains ++ [kinds]) = ((ofChains chains).pushChain kinds).2 := by
  rw [ofChains, List.foldl_append]
  rfl

theorem ofChains_induction {motive : List (List String) → Workspace → Prop}
    (nonempty : ∀ kinds ∈ chains, kinds ≠ []) (base : motive [] empty)
    (step : ∀ chains ws kinds, kinds ≠ [] → motive chains ws →
      motive (chains ++ [kinds]) (ws.pushChain kinds).2) : motive chains (ofChains chains) := by
  induction chains using List.reverseRecOn with
  | nil => exact base
  | append_singleton chains kinds ih =>
    rw [ofChains_concat]
    exact step _ _ _ (nonempty kinds (by simp))
      (ih fun kinds member => nonempty kinds (List.mem_append_left _ member))

theorem kinds_ofChains (chains : List (List String)) :
    (ofChains chains).blocks.map Block.kind = chains.flatten := by
  induction chains using List.reverseRecOn with
  | nil => rfl
  | append_singleton chains kinds ih =>
    rw [ofChains_concat, blocks_pushChain, List.map_append, ih, kind_linked, List.flatten_append,
      List.flatten_singleton]

theorem chained_ofChains (nonempty : ∀ kinds ∈ chains, kinds ≠ []) :
    Chained (ofChains chains) chains :=
  ofChains_induction (motive := fun chains ws => Chained ws chains) nonempty chained_empty
    fun _ _ _ nonempty chained => chained.pushChain nonempty

theorem bounded_ofChains (nonempty : ∀ kinds ∈ chains, kinds ≠ []) : Bounded (ofChains chains) :=
  ofChains_induction (motive := fun _ ws => Bounded ws) nonempty bounded_empty
    fun _ _ _ nonempty bounded => bounded.pushChain nonempty

theorem walk_ofChains (chains : List (List String)) :
    (ofChains chains).walk = .ok chains.flatten := by
  induction chains using List.reverseRecOn with
  | nil => exact chained_empty.walk
  | append_singleton chains kinds ih =>
    rw [ofChains_concat, walk_pushChain ih, List.flatten_append, List.flatten_singleton]

end OfChains

/-- Appending a chain adds its blocks and its head behind all that is there. So a walk that succeeds
goes on through the new chain, one that comes upon a cycle still comes upon it, and a workspace that
was accepted is refused for a blank kind alone. -/
theorem pushChain_extends :
    (∀ (ws : Workspace) (kinds : List String),
      (kinds = [] → ws.pushChain kinds = (none, ws)) ∧
      (kinds ≠ [] → (ws.pushChain kinds).1 = some ws.blocks.length ∧
        (ws.pushChain kinds).2.heads = ws.heads ++ [ws.blocks.length]) ∧
      (∀ i < ws.blocks.length, (ws.pushChain kinds).2.blocks[i]? = ws.blocks[i]?) ∧
      (∀ i, (ws.pushChain kinds).2.blocks[ws.blocks.length + i]? = kinds[i]?.map fun kind =>
        ⟨kind, if i + 1 < kinds.length then some (ws.blocks.length + i + 1) else none, .empty⟩) ∧
      (∀ walked, ws.walk = .ok walked → (ws.pushChain kinds).2.walk = .ok (walked ++ kinds)) ∧
      (∀ i, ws.walk = .error (.cycle i) → (ws.pushChain kinds).2.walk = .error (.cycle i)) ∧
      (ws.validate = .ok () → ((ws.pushChain kinds).2.validate = .ok () ↔
        ∀ kind ∈ kinds, ∃ c ∈ kind.toList, Text.isBlank c = false))) ∧
    ∀ chains : List (List String), (ofChains chains).walk = .ok chains.flatten := by
  refine ⟨fun ws kinds => ⟨?_, ?_, ?_, ?_, ?_, ?_, ?_⟩, walk_ofChains⟩
  · rintro rfl
    exact pushChain_nil ws
  · intro nonempty
    rw [pushChain_eq nonempty]
    exact ⟨rfl, rfl⟩
  · intro i inside
    rw [blocks_pushChain, List.getElem?_append_left inside]
  · intro i
    rw [blocks_pushChain, List.getElem?_append_right (Nat.le_add_right _ _),
      Nat.add_sub_cancel_left, getElem?_linked]
  · intro walked ok
    exact walk_pushChain ok
  · intro i failed
    exact walk_pushChain_of_cycle failed
  · intro valid
    simp only [validate_pushChain valid, Text.allBlank_eq_false_iff]

def looseEnd : Workspace where
  blocks := [⟨"rotate", some 1, .empty⟩, ⟨"land", none, .empty⟩, ⟨"back_1s", some 3, .empty⟩]
  heads := [0, 1]

def endlessFlip : Workspace where
  blocks := [⟨"rotate", some 0, .empty⟩]
  heads := [0]

theorem pushChain_looseEnd :
    looseEnd.walk = .ok ["rotate", "land", "land"] ∧
      (looseEnd.pushChain ["take_off", "hover"]).1 = some 3 ∧
      (looseEnd.pushChain ["take_off", "hover"]).2.walk =
        .ok ["rotate", "land", "land", "take_off", "hover"] ∧
      endlessFlip.walk = .error (.cycle 0) ∧
      (endlessFlip.pushChain ["land"]).2.walk = .error (.cycle 0) ∧
      endlessFlip.validate = .ok () ∧ (endlessFlip.pushChain ["land"]).2.validate = .ok () ∧
      endlessFlip.pushChain [] = (none, endlessFlip) := by
  have walked : looseEnd.walk = .ok ["rotate", "land", "land"] := by decide +kernel
  have failed : endlessFlip.walk = .error (.cycle 0) := by decide +kernel
  have valid : endlessFlip.validate = .ok () := rfl
  have named : ∀ kind ∈ ["land"], ∃ c ∈ kind.toList, Text.isBlank c = false := by
    intro kind member
    rw [List.mem_singleton.1 member]
    exact ⟨'l', by decide, rfl⟩
  obtain ⟨-, index, -, -, more, -, -⟩ := pushChain_extends.1 looseEnd ["take_off", "hover"]
  obtain ⟨-, -, -, -, -, still, sound⟩ := pushChain_extends.1 endlessFlip ["land"]
  obtain ⟨same, -⟩ := pushChain_extends.1 endlessFlip []
  exact ⟨walked, (index (by decide)).1, more _ walked, failed, still 0 failed, valid,
    (sound valid).2 named, same rfl⟩

end Workspace

end FlightBlocks
