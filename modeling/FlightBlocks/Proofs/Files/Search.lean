import FlightBlocks.Files.Search
import FlightBlocks.Proofs.Files.Settle
import Mathlib.Data.List.Count
/-!
The end of the search. Every search ends, and ends with what the bounded search finds: forty links
are followed at most, a call within a call returns in its first turn, and there is always a name
left to take off.
-/

namespace FlightBlocks

namespace Search

section

variable {t : Tree} {call : Search} {waiting : List (Search × String)}

/-! What a turn does. -/

theorem step_found {found : Place} (real : t.realpath call.place.path = .ok found) :
    step t (.working call waiting) = deliver (.found (found ++ call.rest)) waiting := by
  simp [step, real]

theorem step_fault {fault : FileFault} (failed : t.realpath call.place.path = .error fault)
    (other : fault ≠ .notFound) :
    step t (.working call waiting) = deliver (.failed fault) waiting := by
  simp only [step, failed]

theorem step_endless {target : String} (missing : t.Missing call.place)
    (asked : t.linkTarget? call.place.path = some target) (full : mostLinks ≤ call.followed) :
    step t (.working call waiting) = deliver (.failed .endlessLinks) waiting := by
  unfold Tree.Missing at missing
  simp [step, missing, asked, Nat.lt_succ_of_le full]

theorem step_follow {target : String} (missing : t.Missing call.place)
    (asked : t.linkTarget? call.place.path = some target) (few : call.followed < mostLinks) :
    step t (.working call waiting) = .working (fresh call.place.parent)
      (({ call with followed := call.followed + 1 }, target) :: waiting) := by
  unfold Tree.Missing at missing
  simp [step, missing, asked, Nat.not_lt.2 (Nat.succ_le_of_lt few)]

theorem step_shorten {above : Place} {n : String} (at' : call.place = above ++ [n])
    (missing : t.Missing call.place) (nothing : t.linkTarget? call.place.path = none) :
    step t (.working call waiting) =
      .working { call with place := above, rest := n :: call.rest } waiting := by
  unfold Tree.Missing at missing
  simp only [step, missing, nothing]
  simp [at', pop?]

theorem turn_cases (t : Tree) (place : Place) :
    (∃ found, t.realpath place.path = .ok found) ∨
    (∃ fault, t.realpath place.path = .error fault ∧ fault ≠ .notFound) ∨
    t.Missing place ∧ ∃ above n, place = above ++ [n] ∧
      (t.linkTarget? place.path = none ∨ ∃ target directory,
        t.linkTarget? place.path = some target ∧
          t.realpath (Place.path above) = .ok directory) := by
  cases real : t.realpath place.path with
  | ok found => exact .inl ⟨found, rfl⟩
  | error fault =>
    refine .inr ?_
    by_cases notFound : fault = .notFound
    · subst notFound
      have missing : t.Missing place := real
      obtain ⟨above, n, rfl⟩ := missing.not_nil
      refine .inr ⟨missing, above, n, rfl, ?_⟩
      cases asked : t.linkTarget? (Place.path (above ++ [n])) with
      | none => exact .inl rfl
      | some target =>
        obtain ⟨directory, stands, -⟩ := Tree.stands_of_linkTarget? asked
        exact .inr ⟨target, directory, rfl, stands⟩
    · exact .inl ⟨fault, rfl, notFound⟩

/-- What holds of a state after `k` calls within a call have returned. -/
inductive Kept (t : Tree) : Nat → State → Prop
  | alone {k : Nat} {call : Search} (counted : call.followed = k) (few : k ≤ mostLinks) :
      Kept t k (.working call [])
  | asking {k : Nat} {outer : Search} {above directory : Place} {n target : String}
      (counted : outer.followed = k + 1) (few : k < mostLinks)
      (at' : outer.place = above ++ [n]) (asked : t.linkTarget? outer.place.path = some target)
      (stands : t.realpath above.path = .ok directory) :
      Kept t k (.working (fresh above) [(outer, target)])
  | ended {k : Nat} (few : k ≤ mostLinks) (result : Except FileFault Place) :
      Kept t k (.ended (.ofResult result))

theorem Kept.few {k : Nat} {state : State} (kept : Kept t k state) : k ≤ mostLinks := by
  cases kept with
  | alone _ few => exact few
  | asking _ few => exact Nat.le_of_lt few
  | ended few => exact few

theorem step_asking {outer : Search} {above directory : Place} {target : String}
    (stands : t.realpath above.path = .ok directory) :
    step t (.working (fresh above) ((outer, target) :: waiting)) =
      .working { outer with place := directory.follow (.ofText target) } waiting := by
  rw [step_found stands]
  simp [deliver, Outcome.result, fresh]

theorem Kept.step {k : Nat} {state : State} (kept : Kept t k state) :
    Kept t (k + if state.nested then 1 else 0) (step t state) := by
  cases kept with
  | ended few result => exact .ended few result
  | asking counted few _ _ stands =>
    rw [step_asking stands]
    exact .alone counted few
  | @alone call counted few =>
    change Kept t k (Search.step t (.working call []))
    rcases turn_cases t call.place with ⟨found, real⟩ | ⟨fault, failed, other⟩ |
      ⟨missing, above, n, at', nothing | ⟨target, directory, asked, stands⟩⟩
    · rw [step_found real]
      exact .ended few (.ok (found ++ call.rest))
    · rw [step_fault failed other]
      exact .ended few (.error fault)
    · rw [step_shorten at' missing nothing]
      exact .alone counted few
    · by_cases full : mostLinks ≤ call.followed
      · rw [step_endless missing asked full]
        exact .ended few (.error .endlessLinks)
      · rw [step_follow missing asked (Nat.not_le.1 full), at', Place.parent_concat, ← at']
        exact .asking (congrArg (· + 1) counted) (counted ▸ Nat.not_le.1 full) at' asked stands

theorem Kept.step_link {k : Nat} {target : String} (kept : Kept t k (.working call waiting))
    (missing : t.Missing call.place) (asked : t.linkTarget? call.place.path = some target) :
    Search.step t (.working call waiting) =
      if call.followed = mostLinks then .ended (.failed .endlessLinks)
      else .working (fresh call.place.parent)
        [({ call with followed := call.followed + 1 }, target)] := by
  cases kept with
  | alone counted few =>
    split
    next full => exact step_endless missing asked (Nat.le_of_eq full.symm)
    next other => exact step_follow missing asked (by omega)
  | asking _ _ _ _ stands => cases missing.symm.trans stands

theorem Kept.step_nested {k : Nat} {outer : Search} {target : String}
    (kept : Kept t k (.working call ((outer, target) :: waiting))) :
    waiting = [] ∧ t.linkTarget? outer.place.path = some target ∧
      call = fresh outer.place.parent ∧
      ∃ directory, t.realpath call.place.path = .ok directory ∧
        Search.step t (.working call ((outer, target) :: waiting)) =
          .working { outer with place := directory.follow (.ofText target) } [] := by
  cases kept with
  | asking _ _ at' asked stands =>
    rw [at', Place.parent_concat]
    exact ⟨rfl, at' ▸ asked, rfl, _, stands, step_asking stands⟩

theorem run_succ (t : Tree) (place : Place) (n : Nat) :
    run t place (n + 1) = step t (run t place n) := Function.iterate_succ_apply' ..

theorem kept_run (t : Tree) (place : Place) (n : Nat) :
    Kept t ((List.range n).countP fun k => (run t place k).nested) (run t place n) := by
  induction n with
  | zero => exact .alone rfl (Nat.zero_le _)
  | succ n ih =>
    rw [run_succ, List.range_succ, List.countP_append, List.countP_singleton]
    exact ih.step

/-! How a search ends. -/

def Leads (t : Tree) (state state' : State) : Prop := ∃ n, (step t)^[n] state = state'

theorem Leads.of_step {state state' state'' : State} (turn : step t state = state')
    (later : Leads t state' state'') : Leads t state state'' := by
  obtain ⟨n, ran⟩ := later
  exact ⟨n + 1, by rw [Function.iterate_succ_apply, turn, ran]⟩

theorem Leads.refl (t : Tree) (state : State) : Leads t state state := ⟨0, rfl⟩

theorem leads_settle (t : Tree) (hops : Nat) (call : Search)
    (left : call.followed + hops = mostLinks) :
    Leads t (.working call []) (.ended (.ofResult (t.settle 1 hops call.place call.rest))) := by
  -- as the bounded search recurses: a link less to follow, or a name less in the path
  rcases turn_cases t call.place with ⟨found, real⟩ | ⟨fault, failed, other⟩ |
    ⟨missing, above, n, at', nothing | ⟨target, directory, asked, stands⟩⟩
  · rw [Tree.settle_found real]
    exact .of_step (step_found real) (.refl t _)
  · rw [Tree.settle_fault failed other]
    exact .of_step (step_fault failed other) (.refl t _)
  · refine .of_step (step_shorten at' missing nothing) ?_
    rw [at'] at missing nothing ⊢
    rw [Tree.settle_shorten missing nothing]
    exact leads_settle t hops { call with place := above, rest := n :: call.rest } left
  · cases hops with
    | zero =>
      rw [Tree.settle_endless missing asked (.inr rfl)]
      exact .of_step (step_endless missing asked (by omega)) (.refl t _)
    | succ hops =>
      refine .of_step (step_follow missing asked (by omega)) ?_
      rw [at', Place.parent_concat, ← at']
      refine .of_step (step_asking stands) ?_
      rw [at'] at missing asked ⊢
      rw [Tree.settle_hop missing asked stands]
      exact leads_settle t hops { call with
        place := directory.follow (.ofText target), followed := call.followed + 1 } (by simp; omega)
termination_by (hops, call.place.length)
decreasing_by
  · exact Prod.Lex.right _ (by simp [at'])
  · exact Prod.Lex.left _ _ (by omega)

end

/-- The search for any place ends, with what the bounded one finds. It asks for the directories of
forty links at most, and one link more is a fault; what is missing and is no link has a last name,
which goes to the rest; and whatever call asks for a directory has it after the next turn. -/
theorem run_ends (t : Tree) (place : Place) :
    (∃ n, run t place n = .ended (.ofResult (t.canonical place))) ∧
    (∀ n, (List.range n).countP (fun k => (run t place k).nested) ≤ mostLinks) ∧
    (∀ n call waiting, run t place n = .working call waiting → t.Missing call.place →
      (∀ target, t.linkTarget? call.place.path = some target →
        run t place (n + 1) =
          if call.followed = mostLinks then .ended (.failed .endlessLinks)
          else .working (fresh call.place.parent)
            [({ call with followed := call.followed + 1 }, target)]) ∧
      (t.linkTarget? call.place.path = none →
        ∃ above name, call.place = above ++ [name] ∧ run t place (n + 1) =
          .working { call with place := above, rest := name :: call.rest } waiting)) ∧
    ∀ n call outer target waiting, run t place n = .working call ((outer, target) :: waiting) →
      waiting = [] ∧ t.linkTarget? outer.place.path = some target ∧
      call = fresh outer.place.parent ∧
      ∃ directory, t.realpath call.place.path = .ok directory ∧ run t place (n + 1) =
        .working { outer with place := directory.follow (.ofText target) } [] := by
  refine ⟨leads_settle t mostLinks (fresh place) (Nat.zero_add _),
    fun n => (kept_run t place n).few, ?_, ?_⟩
  · intro n call waiting ran missing
    have kept := kept_run t place n
    rw [ran] at kept
    rw [run_succ, ran]
    refine ⟨fun target asked => kept.step_link missing asked, fun nothing => ?_⟩
    obtain ⟨above, name, at'⟩ := missing.not_nil
    exact ⟨above, name, at', step_shorten at' missing nothing⟩
  · intro n call outer target waiting ran
    have kept := kept_run t place n
    rw [ran] at kept
    rw [run_succ, ran]
    exact kept.step_nested

-- a link that is missing for as long as what its target passes through
example : run [(["l"], .link "missing/../l")] ["l"] 81 = .ended (.failed .endlessLinks) := by
  decide +kernel

end Search

end FlightBlocks
