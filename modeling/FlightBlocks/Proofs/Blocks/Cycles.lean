import FlightBlocks.Proofs.Blocks.Reload
import FlightBlocks.Sequence.Literal
import Mathlib.Data.List.Perm.Subperm
/-!
Cycles. A check of a workspace does not look for them, so they are all that is left for a walk to
find. It finds those that its heads lead to: from such a head no number of links reaches an end, and
from any other the end is reached by no more links than there are blocks.
-/

namespace FlightBlocks

namespace BlockSource

def OnCycle (nodes : List (Nat × Node)) (i : Nat) : Prop :=
  ∃ path, path ≠ [] ∧ Leads nodes i path i

/-- At most `n` links lead from `head` to a block without successor. -/
def EndsWithin (nodes : List (Nat × Node)) (n head : Nat) : Prop :=
  ∃ path last node, path.length ≤ n ∧ Leads nodes head path last ∧
    node? nodes last = some node ∧ node.next = none

section

variable {nodes : List (Nat × Node)} {head i j k : Nat} {path path' : List Nat}

theorem Leads.linear (leads : Leads nodes i path j) (leads' : Leads nodes i path' k) :
    (∃ rest, Leads nodes j rest k) ∨ ∃ rest, Leads nodes k rest j := by
  induction leads generalizing path' with
  | here => exact .inl ⟨_, leads'⟩
  | link found next rest ih =>
    cases leads' with
    | here => exact .inr ⟨_, .link found next rest⟩
    | link found' next' rest' =>
      -- each block has one successor, so both ways take the same link
      cases found.symm.trans found'
      cases next.symm.trans next'
      exact ih rest'

theorem Leads.eq_of_last {node : Node} (leads : Leads nodes i path j)
    (found : node? nodes i = some node) (last : node.next = none) : j = i := by
  cases leads with
  | here => rfl
  | link found' next =>
    cases found.symm.trans found'
    cases last.symm.trans next

theorem Leads.cut (leads : Leads nodes head path j) (member : i ∈ path) :
    (∃ before, Leads nodes head before i) ∧ ∃ rest, Leads nodes i (i :: rest) j := by
  induction leads with
  | here => cases member
  | link found next rest ih =>
    rcases List.mem_cons.1 member with rfl | member
    · exact ⟨⟨[], .here⟩, _, .link found next rest⟩
    · obtain ⟨⟨before, first⟩, second⟩ := ih member
      exact ⟨⟨_, .link found next first⟩, second⟩

theorem Returns.onCycle (back : Returns nodes head i) :
    OnCycle nodes i ∧ ∃ path, Leads nodes head path i := by
  obtain ⟨path, leads, -, met⟩ := back
  obtain ⟨-, rest, round⟩ := leads.cut met
  exact ⟨⟨_, List.cons_ne_nil _ _, round⟩, path, leads⟩

theorem OnCycle.of_leads (leads : Leads nodes i path j) (cycle : OnCycle nodes i) :
    OnCycle nodes j := by
  induction leads with
  | here => exact cycle
  | link found next _ ih =>
    obtain ⟨round, nonempty, around⟩ := cycle
    cases around with
    | here => exact absurd rfl nonempty
    | link found' next' rest =>
      cases found.symm.trans found'
      cases next.symm.trans next'
      exact ih ⟨_, by simp, rest.extend found next⟩

theorem OnCycle.next_ne_none {node : Node} (cycle : OnCycle nodes i)
    (found : node? nodes i = some node) : node.next ≠ none := by
  obtain ⟨round, nonempty, around⟩ := cycle
  cases around with
  | here => exact absurd rfl nonempty
  | link found' next =>
    cases found.symm.trans found'
    rw [next]
    exact Option.some_ne_none _

theorem EndsWithin.not_onCycle {n : Nat} (ends : EndsWithin nodes n head)
    (leads : Leads nodes head path i) : ¬ OnCycle nodes i := by
  intro cycle
  obtain ⟨way, last, node, -, there, found, none⟩ := ends
  rcases leads.linear there with ⟨rest, on⟩ | ⟨rest, on⟩
  · exact (cycle.of_leads on).next_ne_none found none
  · cases on.eq_of_last found none
    exact cycle.next_ne_none found none

theorem EndsWithin.good {n : Nat} (ends : EndsWithin nodes n head) : Good nodes head := by
  rcases fate nodes head with good | ⟨i, back⟩ | ⟨i, path, leads, -, missing⟩
  · exact good
  · obtain ⟨cycle, path, leads⟩ := back.onCycle
    exact absurd cycle (ends.not_onCycle leads)
  · obtain ⟨way, last, node, -, there, found, none⟩ := ends
    rcases leads.linear there with ⟨rest, on⟩ | ⟨rest, on⟩
    · cases on with
      | here => cases missing.symm.trans found
      | link found' => cases missing.symm.trans found'
    · cases on.eq_of_last found none
      cases missing.symm.trans found

end

end BlockSource

namespace Workspace

open BlockSource

variable {ws : Workspace} {head i : Nat} {path route : List Nat}

theorem lt_of_node? {node : Node} (found : node? ws.source.nodes i = some node) :
    i < ws.blocks.length := by
  rw [node?_source] at found
  obtain ⟨b, here, -⟩ := Option.map_eq_some_iff.1 found
  exact (List.getElem?_eq_some_iff.1 here).1

theorem length_route_le (is : Route ws.source.nodes head route) :
    route.length ≤ ws.blocks.length := by
  have inside : route ⊆ List.range ws.blocks.length := by
    intro i member
    obtain ⟨node, found⟩ := is.found i member
    exact List.mem_range.2 (lt_of_node? found)
  -- no index comes twice, so the route fits into the list of all indices
  have shorter := (List.subperm_of_subset is.1 inside).length_le
  rwa [List.length_range] at shorter

theorem good_iff_endsWithin :
    Good ws.source.nodes head ↔ EndsWithin ws.source.nodes ws.blocks.length head := by
  refine ⟨fun ⟨route, is⟩ => ?_, EndsWithin.good⟩
  have short := length_route_le is
  obtain ⟨-, path, last, node, rfl, leads, found, none⟩ := is
  rw [List.length_append] at short
  exact ⟨path, last, node, by omega, leads, found, none⟩

theorem Bounded.leads_lt (bounded : Bounded ws) (inside : head < ws.blocks.length)
    (leads : Leads ws.source.nodes head path i) : i < ws.blocks.length := by
  induction leads with
  | here => exact inside
  | link found next _ ih =>
    rw [node?_source] at found
    obtain ⟨b, here, rfl⟩ := Option.map_eq_some_iff.1 found
    exact ih (bounded.links b (List.mem_of_getElem? here) _ next)

theorem Bounded.not_breaks (bounded : Bounded ws) (member : head ∈ ws.heads) :
    ¬ Breaks ws.source.nodes head i := by
  rintro ⟨path, leads, -, missing⟩
  have inside := bounded.leads_lt (bounded.heads head member) leads
  rw [node?_source, List.getElem?_eq_getElem inside] at missing
  cases missing

theorem Bounded.cycle_of_error (bounded : Bounded ws) {d : Defect} (failed : ws.walk = .error d) :
    ∃ i, d = .cycle i ∧ OnCycle ws.source.nodes i ∧
      ∃ head ∈ ws.heads, ∃ path, Leads ws.source.nodes head path i := by
  obtain ⟨before, head, after, heads, -, ⟨i, same, back⟩ | ⟨i, -, off⟩⟩ :=
    walk_eq_error_iff.1 failed
  · have member : head ∈ ws.source.heads := by simp [heads]
    exact ⟨i, same, back.onCycle.1, head, member, back.onCycle.2⟩
  · have member : head ∈ ws.source.heads := by simp [heads]
    exact absurd off (bounded.not_breaks member)

theorem Bounded.walk_cycle_of_bad (bounded : Bounded ws) (member : head ∈ ws.heads)
    (bad : ¬ Good ws.source.nodes head) : ∃ i, ws.walk = .error (.cycle i) := by
  have notAll : ¬ ∀ head ∈ ws.source.heads, Good ws.source.nodes head :=
    fun good => bad (good head member)
  obtain ⟨d, failed⟩ := walk_error_of_bad notAll
  obtain ⟨i, rfl, -⟩ := bounded.cycle_of_error failed
  exact ⟨i, failed⟩

/-- The workspace with no head but this one. -/
def startingAt (ws : Workspace) (head : Nat) : Workspace := { ws with heads := [head] }

theorem walk_startingAt (is : Route ws.source.nodes head route) :
    (ws.startingAt head).walk = .ok (kindsAlong ws.source.nodes route) := by
  have routes : List.Forall₂ (Route (ws.startingAt head).source.nodes)
      (ws.startingAt head).source.heads [route] := .cons is .nil
  have walked := walk_of_routes routes
  rwa [List.flatMap_singleton] at walked

theorem walk_parts {routes : List (List Nat)} {heads : List Nat}
    (are : List.Forall₂ (Route ws.source.nodes) heads routes) :
    List.Forall₂ (fun head part => (ws.startingAt head).walk = .ok part ∧
      part.length ≤ ws.blocks.length) heads (routes.map (kindsAlong ws.source.nodes)) := by
  induction are with
  | nil => exact .nil
  | @cons head route _ _ is _ ih =>
    have short : (kindsAlong ws.source.nodes route).length ≤ route.length :=
      List.length_filterMap_le _ _
    exact .cons ⟨walk_startingAt is, Nat.le_trans short (length_route_le is)⟩ ih

theorem ofWorkspace_eq_error_iff {d : Defect} :
    Program.ofWorkspace (some ws) = .error d ↔ ws.walk = .error d := by
  change (ws.walk.map Program.ofKinds) = .error d ↔ _
  cases ws.walk <;> simp [Except.map]

/-- The walk of a workspace that was accepted fails for the heads that lead into a cycle, and for no
others: those reach an end by no more links than there are blocks. A cycle that no head leads into
is no defect. -/
theorem checked_walk_fails_for_cycles
    (accepted : ws.validate = .ok () ∨ ∃ text, load text = .ok ws) :
    (∀ i count, ws.walk ≠ .error (.dangling i count)) ∧
      ((∃ i, ws.walk = .error (.cycle i)) ↔
        ∃ head ∈ ws.heads, ¬ EndsWithin ws.source.nodes ws.blocks.length head) ∧
      ((∀ i, ws.walk ≠ .error (.cycle i)) →
        ∃ parts : List (List String), ws.walk = .ok parts.flatten ∧
          List.Forall₂ (fun head part => (ws.startingAt head).walk = .ok part ∧
            part.length ≤ ws.blocks.length) ws.heads parts) ∧
      ((∃ d, Program.ofWorkspace (some ws) = .error d) ↔
        ∃ head ∈ ws.heads, ∃ path i, Leads ws.source.nodes head path i ∧
          OnCycle ws.source.nodes i) ∧
      ∀ d, Program.ofWorkspace (some ws) = .error d →
        ∃ i, d = .cycle i ∧ OnCycle ws.source.nodes i ∧
          ∃ head ∈ ws.heads, ∃ path, Leads ws.source.nodes head path i := by
  have valid : ws.validate = .ok () := by
    rcases accepted with valid | ⟨text, loads⟩
    · exact valid
    · exact (load_eq_ok loads).2
  have bounded := (validate_eq_ok_iff.1 valid).1
  refine ⟨?_, ⟨?_, ?_⟩, ?_, ⟨?_, ?_⟩, ?_⟩
  · intro i count failed
    obtain ⟨_, same, -⟩ := bounded.cycle_of_error failed
    cases same
  · rintro ⟨i, failed⟩
    obtain ⟨_, -, on, head, member, path, leads⟩ := bounded.cycle_of_error failed
    exact ⟨head, member, fun ends => ends.not_onCycle leads on⟩
  · rintro ⟨head, member, endless⟩
    exact bounded.walk_cycle_of_bad member (mt good_iff_endsWithin.1 endless)
  · intro acyclic
    cases walked : ws.walk with
    | error d =>
      obtain ⟨i, rfl, -⟩ := bounded.cycle_of_error walked
      exact absurd walked (acyclic i)
    | ok kinds =>
      obtain ⟨routes, are, rfl⟩ := walk_eq_ok_iff.1 walked
      exact ⟨_, by rw [List.flatMap_def], walk_parts are⟩
  · rintro ⟨d, failed⟩
    obtain ⟨i, -, on, head, member, path, leads⟩ :=
      bounded.cycle_of_error (ofWorkspace_eq_error_iff.1 failed)
    exact ⟨head, member, path, i, leads, on⟩
  · rintro ⟨head, member, path, i, leads, on⟩
    have bad : ¬ Good ws.source.nodes head := by
      intro good
      exact (good_iff_endsWithin.1 good).not_onCycle leads on
    obtain ⟨i, failed⟩ := bounded.walk_cycle_of_bad member bad
    exact ⟨_, ofWorkspace_eq_error_iff.2 failed⟩
  · intro d failed
    exact bounded.cycle_of_error (ofWorkspace_eq_error_iff.1 failed)

def idleLoop : Workspace where
  blocks := [⟨"rotate", some 1, .empty⟩, ⟨"land", none, .empty⟩, ⟨"forward_1s", some 3, .empty⟩,
    ⟨"back_1s", some 2, .empty⟩]
  heads := [0, 1]

theorem idleLoop_onCycle : OnCycle idleLoop.source.nodes 2 :=
  ⟨[2, 3], List.cons_ne_nil _ _, .link rfl rfl (.link rfl rfl .here)⟩

theorem idleLoop_ends : ∀ head ∈ idleLoop.heads, EndsWithin idleLoop.source.nodes 4 head := by
  intro head member
  have either : head = 0 ∨ head = 1 := by simpa [idleLoop] using member
  rcases either with rfl | rfl
  · exact ⟨[0], 1, ⟨"land", none⟩, by decide, .link rfl rfl .here, rfl, rfl⟩
  · exact ⟨[], 1, ⟨"land", none⟩, by decide, .here, rfl, rfl⟩

theorem checked_walk_idleLoop :
    idleLoop.validate = .ok () ∧ OnCycle idleLoop.source.nodes 2 ∧
      (∀ i, idleLoop.walk ≠ .error (.cycle i)) ∧
      (∃ parts : List (List String), idleLoop.walk = .ok parts.flatten ∧ parts.length = 2) ∧
      (idleLoop.startingAt 2).validate = .ok () ∧
      ∃ d, Program.ofWorkspace (some (idleLoop.startingAt 2)) = .error d := by
  have valid : idleLoop.validate = .ok () := rfl
  have valid' : (idleLoop.startingAt 2).validate = .ok () := rfl
  obtain ⟨-, cycle, parts, -, -⟩ := checked_walk_fails_for_cycles (.inl valid)
  obtain ⟨-, -, -, fails, -⟩ := checked_walk_fails_for_cycles (.inl valid')
  have acyclic : ∀ i, idleLoop.walk ≠ .error (.cycle i) := by
    intro i failed
    obtain ⟨head, member, endless⟩ := cycle.1 ⟨i, failed⟩
    exact endless (idleLoop_ends head member)
  obtain ⟨parts, walked, each⟩ := parts acyclic
  exact ⟨valid, idleLoop_onCycle, acyclic, ⟨parts, walked, each.length_eq.symm⟩, valid',
    fails.2 ⟨2, List.mem_singleton.2 rfl, [], 2, .here, idleLoop_onCycle⟩⟩

end Workspace

end FlightBlocks
