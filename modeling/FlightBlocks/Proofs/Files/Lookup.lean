import FlightBlocks.Files.Lookup
import FlightBlocks.Proofs.Files.Tree
/-!
How ways through a tree are put together. A way is taken step by step and link by link; a longer
one goes on from where a shorter one came to, with the links that are left to follow; and where a
way comes to is a place of its tree.
-/

namespace FlightBlocks

def Stop.Holds (t : Tree) : Stop → Prop
  | .entry q => t.Solid q
  | .free q => ∃ above n, q = above ++ [n] ∧ t.entry? above = some .directory ∧ t.entry? q = none
  | .link q target _ =>
    ∃ above n, q = above ++ [n] ∧ t.entry? above = some .directory ∧
      t.entry? q = some (.link target)

/-- A stop from which a way does not go on. A link is one at the very end only. -/
def Stop.Final (through : Bool) : Stop → Prop
  | .link _ _ rest => rest = [] ∧ through = false
  | _ => True

namespace Tree

variable {t : Tree} {place q : Place} {fault : FileFault}

def linkStart (q : Place) (target : String) : Place :=
  if (Path.ofText target).rooted then [] else q.parent

theorem stride_here {rest : List Part} (directory : t.isDirectory place = true) :
    t.stride place (.here :: rest) = t.stride place rest := by
  simp [stride, directory]

theorem stride_up {rest : List Part} (directory : t.isDirectory place = true) :
    t.stride place (.up :: rest) = t.stride place.parent rest := by
  simp [stride, directory]

theorem stride_notDirectory {part : Part} {rest : List Part}
    (other : t.isDirectory place = false) :
    t.stride place (part :: rest) = .error .notDirectory := by
  simp [stride, other]

theorem stride_tooLong {n : String} {rest : List Part} (directory : t.isDirectory place = true)
    (long : longestName < n.utf8ByteSize) :
    t.stride place (.name n :: rest) = .error .nameTooLong := by
  simp [stride, directory, long]

section

variable {n : String} {rest : List Part} (directory : t.isDirectory place = true)
  (short : n.utf8ByteSize ≤ longestName)

include directory short

theorem stride_none (gap : t.entry? (place ++ [n]) = none) :
    t.stride place (.name n :: rest) =
      if rest.isEmpty then .ok (.free (place ++ [n])) else .error .notFound := by
  rw [stride]
  simp [directory, Nat.not_lt.2 short, gap]

theorem stride_link {target : String} (link : t.entry? (place ++ [n]) = some (.link target)) :
    t.stride place (.name n :: rest) = .ok (.link (place ++ [n]) target rest) := by
  rw [stride]
  simp [directory, Nat.not_lt.2 short, link]

theorem stride_solid (solid : t.Solid (place ++ [n])) :
    t.stride place (.name n :: rest) = t.stride (place ++ [n]) rest := by
  obtain ⟨e, stands, noLink⟩ := solid
  rw [stride]
  cases e with
  | link target => exact absurd rfl (noLink target)
  | file content => simp [directory, Nat.not_lt.2 short, stands]
  | directory => simp [directory, Nat.not_lt.2 short, stands]

end

theorem stands_cases (t : Tree) (place : Place) : t.entry? place = none ∨
    (∃ target, t.entry? place = some (.link target)) ∨ t.Solid place := by
  cases stands : t.entry? place with
  | none => exact .inl rfl
  | some e =>
    cases e with
    | link target => exact .inr (.inl ⟨target, rfl⟩)
    | file content => exact .inr (.inr ⟨_, stands, by simp⟩)
    | directory => exact .inr (.inr ⟨_, stands, by simp⟩)

/-- The ways that come to a stop. -/
inductive Strides (t : Tree) : Place → List Part → Stop → Prop
  | done {place : Place} : Strides t place [] (.entry place)
  | here {place : Place} {rest : List Part} {stop : Stop}
      (directory : t.isDirectory place = true) (later : Strides t place rest stop) :
      Strides t place (.here :: rest) stop
  | up {place : Place} {rest : List Part} {stop : Stop}
      (directory : t.isDirectory place = true) (later : Strides t place.parent rest stop) :
      Strides t place (.up :: rest) stop
  | name {place : Place} {n : String} {rest : List Part} {stop : Stop}
      (directory : t.isDirectory place = true) (short : n.utf8ByteSize ≤ longestName)
      (solid : t.Solid (place ++ [n])) (later : Strides t (place ++ [n]) rest stop) :
      Strides t place (.name n :: rest) stop
  | free {place : Place} {n : String} (directory : t.isDirectory place = true)
      (short : n.utf8ByteSize ≤ longestName) (gap : t.entry? (place ++ [n]) = none) :
      Strides t place [.name n] (.free (place ++ [n]))
  | link {place : Place} {n target : String} {rest : List Part}
      (directory : t.isDirectory place = true) (short : n.utf8ByteSize ≤ longestName)
      (link : t.entry? (place ++ [n]) = some (.link target)) :
      Strides t place (.name n :: rest) (.link (place ++ [n]) target rest)

theorem strides_of_stride {parts : List Part} {stop : Stop}
    (strode : t.stride place parts = .ok stop) : t.Strides place parts stop := by
  induction parts generalizing place with
  | nil =>
    cases strode
    exact .done
  | cons part rest ih =>
    cases directory : t.isDirectory place with
    | false => rw [stride_notDirectory directory] at strode; cases strode
    | true =>
      cases part with
      | here => exact .here directory (ih (stride_here directory ▸ strode))
      | up => exact .up directory (ih (stride_up directory ▸ strode))
      | name n =>
        by_cases short : n.utf8ByteSize ≤ longestName
        · rcases t.stands_cases (place ++ [n]) with gap | ⟨target, link⟩ | solid
          · rw [stride_none directory short gap] at strode
            cases rest with
            | nil => cases strode; exact .free directory short gap
            | cons part rest => cases strode
          · rw [stride_link directory short link] at strode
            cases strode
            exact .link directory short link
          · exact .name directory short solid (ih (stride_solid directory short solid ▸ strode))
        · rw [stride_tooLong directory (Nat.not_le.1 short)] at strode
          cases strode

theorem Strides.stride_eq {parts : List Part} {stop : Stop} (strides : t.Strides place parts stop) :
    t.stride place parts = .ok stop := by
  induction strides with
  | done => rfl
  | here directory _ ih => rw [stride_here directory, ih]
  | up directory _ ih => rw [stride_up directory, ih]
  | name directory short solid _ ih => rw [stride_solid directory short solid, ih]
  | free directory short gap => rw [stride_none directory short gap]; rfl
  | link directory short link => rw [stride_link directory short link]

theorem stride_name_cases (t : Tree) (place : Place) (n : String) :
    (∃ fault, fault ≠ .notFound ∧ t.stride place [.name n] = .error fault) ∨
      t.isDirectory place = true ∧
        (t.entry? (place ++ [n]) = none ∧
            t.stride place [.name n] = .ok (.free (place ++ [n])) ∨
          (∃ target, t.entry? (place ++ [n]) = some (.link target) ∧
            t.stride place [.name n] = .ok (.link (place ++ [n]) target [])) ∨
          t.Solid (place ++ [n]) ∧ t.stride place [.name n] = .ok (.entry (place ++ [n]))) := by
  cases directory : t.isDirectory place with
  | false => exact .inl ⟨_, by simp, stride_notDirectory directory⟩
  | true =>
    by_cases short : n.utf8ByteSize ≤ longestName
    · refine .inr ⟨rfl, ?_⟩
      rcases t.stands_cases (place ++ [n]) with gap | ⟨target, link⟩ | solid
      · exact .inl ⟨gap, by simp [stride_none directory short gap]⟩
      · exact .inr (.inl ⟨target, link, stride_link directory short link⟩)
      · exact .inr (.inr ⟨solid, stride_solid directory short solid⟩)
    · exact .inl ⟨_, by simp, stride_tooLong directory (Nat.not_le.1 short)⟩

theorem stride_append (t : Tree) (place : Place) (front : List Part) {back : List Part}
    (nonempty : back ≠ []) :
    t.stride place (front ++ back) =
      match t.stride place front with
      | .ok (.entry q) => t.stride q back
      | .ok (.free _) => .error .notFound
      | .ok (.link q target rest) => .ok (.link q target (rest ++ back))
      | .error fault => .error fault := by
  induction front generalizing place with
  | nil => rfl
  | cons part front ih =>
    rw [List.cons_append]
    cases directory : t.isDirectory place with
    | false => rw [stride_notDirectory directory, stride_notDirectory directory]
    | true =>
      cases part with
      | here => rw [stride_here directory, stride_here directory, ih]
      | up => rw [stride_up directory, stride_up directory, ih]
      | name n =>
        by_cases short : n.utf8ByteSize ≤ longestName
        · rcases t.stands_cases (place ++ [n]) with gap | ⟨target, link⟩ | solid
          · rw [stride_none directory short gap, stride_none directory short gap]
            cases front <;> simp [nonempty]
          · rw [stride_link directory short link, stride_link directory short link]
          · rw [stride_solid directory short solid, stride_solid directory short solid, ih]
        · rw [stride_tooLong directory (Nat.not_le.1 short),
            stride_tooLong directory (Nat.not_le.1 short)]

/-! Following links. -/

theorem walk_of_stride {through : Bool} {hops : Nat} {parts : List Part}
    {result : Except FileFault Stop} (strode : t.stride place parts = result)
    (noLink : ∀ q target rest, result ≠ .ok (.link q target rest)) :
    t.walk through hops place parts = result := by
  subst strode
  rw [walk]
  split
  next at' target rest found => exact absurd found (noLink at' target rest)
  next => rfl

section

variable {through : Bool} {hops : Nat} {parts rest : List Part} {target : String}

theorem walk_stops (strode : t.stride place parts = .ok (.link q target [])) :
    t.walk false hops place parts = .ok (.link q target []) := by
  rw [walk, strode]
  rfl

theorem walk_linkLoop (strode : t.stride place parts = .ok (.link q target rest))
    (goesOn : rest ≠ [] ∨ through = true) :
    t.walk through 0 place parts = .error .linkLoop := by
  rw [walk, strode]
  rcases goesOn with more | rfl <;> simp [*]

theorem walk_follows (strode : t.stride place parts = .ok (.link q target rest))
    (goesOn : rest ≠ [] ∨ through = true) :
    t.walk through (hops + 1) place parts =
      t.walk through hops (linkStart q target) ((Path.ofText target).parts ++ rest) := by
  rw [walk, strode]
  rcases goesOn with more | rfl <;> simp [*, linkStart]

end

theorem walk_congr {through : Bool} {hops : Nat} {place' : Place} {parts parts' : List Part}
    (same : t.stride place parts = t.stride place' parts') :
    t.walk through hops place parts = t.walk through hops place' parts' := by
  rw [walk, same]
  conv_rhs => rw [walk]

theorem stride_cases (t : Tree) (place : Place) (parts : List Part) :
    (∃ q target rest, t.stride place parts = .ok (.link q target rest)) ∨
      ∀ q target rest, t.stride place parts ≠ .ok (.link q target rest) := by
  by_cases link : ∃ q target rest, t.stride place parts = .ok (.link q target rest)
  · exact .inl link
  · exact .inr fun q target rest strode => link ⟨q, target, rest, strode⟩

theorem walk_of_final {through : Bool} {hops : Nat} {parts : List Part} {stop : Stop}
    (strode : t.stride place parts = .ok stop) (final : stop.Final through) :
    t.walk through hops place parts = .ok stop := by
  cases stop with
  | entry q => exact walk_of_stride strode (by simp)
  | free q => exact walk_of_stride strode (by simp)
  | link q target rest =>
    obtain ⟨rfl, rfl⟩ := final
    exact walk_stops strode

theorem walk_eq_ok {through : Bool} {hops : Nat} {parts : List Part} {stop : Stop}
    (walked : t.walk through hops place parts = .ok stop) :
    t.Strides place parts stop ∧ stop.Final through ∨
      ∃ left q target rest, hops = left + 1 ∧ t.Strides place parts (.link q target rest) ∧
        (rest ≠ [] ∨ through = true) ∧
        t.walk through left (linkStart q target) ((Path.ofText target).parts ++ rest) =
          .ok stop := by
  rcases t.stride_cases place parts with ⟨q, target, rest, strode⟩ | noLink
  · by_cases goesOn : rest ≠ [] ∨ through = true
    · cases hops with
      | zero => rw [walk_linkLoop strode goesOn] at walked; cases walked
      | succ left =>
        rw [walk_follows strode goesOn] at walked
        exact .inr ⟨left, q, target, rest, rfl, strides_of_stride strode, goesOn, walked⟩
    · obtain ⟨rfl, rfl⟩ : rest = [] ∧ through = false := by simpa using goesOn
      rw [walk_stops strode] at walked
      cases walked
      exact .inl ⟨strides_of_stride strode, rfl, rfl⟩
  · rw [walk_of_stride rfl noLink] at walked
    refine .inl ⟨strides_of_stride walked, ?_⟩
    cases stop with
    | entry q => trivial
    | free q => trivial
    | link q target rest => exact absurd walked (noLink q target rest)

theorem walk_induction {through : Bool} {stop : Stop} {motive : Nat → Place → List Part → Prop}
    (stops : ∀ hops place parts, t.Strides place parts stop → stop.Final through →
      motive hops place parts)
    (follows : ∀ hops place parts q target rest, t.Strides place parts (.link q target rest) →
      rest ≠ [] ∨ through = true →
      motive hops (linkStart q target) ((Path.ofText target).parts ++ rest) →
      motive (hops + 1) place parts)
    {hops : Nat} {place : Place} {parts : List Part}
    (walked : t.walk through hops place parts = .ok stop) : motive hops place parts := by
  induction hops generalizing place parts with
  | zero =>
    rcases walk_eq_ok walked with ⟨strides, final⟩ | ⟨left, q, target, rest, none, -⟩
    · exact stops 0 place parts strides final
    · cases none
  | succ hops ih =>
    rcases walk_eq_ok walked with ⟨strides, final⟩ |
      ⟨left, q, target, rest, one, strides, goesOn, later⟩
    · exact stops (hops + 1) place parts strides final
    · cases one
      exact follows hops place parts q target rest strides goesOn (ih later)

theorem walk_same {through : Bool} {parts : List Part}
    (ends : ¬ ∃ q target rest, t.stride place parts = .ok (.link q target rest) ∧
      (rest ≠ [] ∨ through = true)) (left hops : Nat) :
    t.walk through left place parts = t.walk through hops place parts := by
  rcases t.stride_cases place parts with ⟨q, target, rest, strode⟩ | noLink
  · have stops : ¬ (rest ≠ [] ∨ through = true) := fun goesOn =>
      ends ⟨q, target, rest, strode, goesOn⟩
    obtain ⟨rfl, rfl⟩ : rest = [] ∧ through = false := by simpa using stops
    rw [walk_stops strode, walk_stops strode]
  · rw [walk_of_stride rfl noLink, walk_of_stride rfl noLink]

theorem walk_fewer {left hops : Nat} (fewer : left ≤ hops) (through : Bool) (place : Place)
    (parts : List Part) :
    t.walk through left place parts = t.walk through hops place parts ∨
      t.walk through left place parts = .error .linkLoop := by
  induction left generalizing hops place parts with
  | zero =>
    by_cases follows : ∃ q target rest, t.stride place parts = .ok (.link q target rest) ∧
        (rest ≠ [] ∨ through = true)
    · obtain ⟨q, target, rest, strode, goesOn⟩ := follows
      exact .inr (walk_linkLoop strode goesOn)
    · exact .inl (walk_same follows 0 hops)
  | succ left ih =>
    by_cases follows : ∃ q target rest, t.stride place parts = .ok (.link q target rest) ∧
        (rest ≠ [] ∨ through = true)
    · obtain ⟨q, target, rest, strode, goesOn⟩ := follows
      obtain ⟨hops, rfl⟩ := Nat.exists_eq_add_one_of_ne_zero (Nat.ne_zero_of_lt fewer)
      rw [walk_follows strode goesOn, walk_follows strode goesOn]
      exact ih (Nat.le_of_succ_le_succ fewer) _ _
    · exact .inl (walk_same follows (left + 1) hops)

def goOn (t : Tree) (through : Bool) (left : Nat) (back : List Part)
    (reached : Except FileFault Stop) : Except FileFault Stop :=
  match reached with
  | .ok (.entry q) => t.walk through left q back
  | .ok _ => .error .notFound
  | .error fault => .error fault

theorem walk_append_of_noLink {front back : List Part} (nonempty : back ≠ [])
    (noLink : ∀ q target rest, t.stride place front ≠ .ok (.link q target rest)) (through : Bool)
    (hops : Nat) :
    t.walk through hops place (front ++ back) =
      t.goOn through hops back (t.walk true hops place front) := by
  have longer := t.stride_append place front nonempty
  rw [walk_of_stride rfl noLink]
  cases strode : t.stride place front with
  | error fault =>
    rw [strode] at longer
    exact walk_of_stride longer (by simp [goOn])
  | ok stop =>
    rw [strode] at longer
    cases stop with
    | entry q => exact walk_congr longer
    | free q => exact walk_of_stride longer (by simp [goOn])
    | link q target rest => exact absurd strode (noLink q target rest)

/-- A longer way goes on from where the way to its front comes to, and fails if that does. -/
theorem walk_append (t : Tree) (hops : Nat) (place : Place) (front : List Part) :
    ∃ left, left ≤ hops ∧ ∀ through back, back ≠ [] →
      t.walk through hops place (front ++ back) =
        t.goOn through left back (t.walk true hops place front) := by
  -- each link that is followed puts its target before the rest of the front
  induction hops generalizing place front with
  | zero =>
    refine ⟨0, Nat.le_refl 0, fun through back nonempty => ?_⟩
    rcases t.stride_cases place front with ⟨q, target, rest, strode⟩ | noLink
    · have longer := t.stride_append place front nonempty
      rw [strode] at longer
      rw [walk_linkLoop strode (.inr rfl), walk_linkLoop longer (.inl (by simp [nonempty]))]
      rfl
    · exact walk_append_of_noLink nonempty noLink through 0
  | succ hops ih =>
    rcases t.stride_cases place front with ⟨q, target, rest, strode⟩ | noLink
    · obtain ⟨left, fewer, goesOn⟩ := ih (linkStart q target) ((Path.ofText target).parts ++ rest)
      refine ⟨left, Nat.le_succ_of_le fewer, fun through back nonempty => ?_⟩
      have longer := t.stride_append place front nonempty
      rw [strode] at longer
      rw [walk_follows strode (.inr rfl), walk_follows longer (.inl (by simp [nonempty])),
        ← List.append_assoc]
      exact goesOn through back nonempty
    · exact ⟨hops + 1, Nat.le_refl _, fun through back nonempty =>
        walk_append_of_noLink nonempty noLink through (hops + 1)⟩

/-! Where ways come to. -/

theorem Grounded.parent_directory (grounded : t.Grounded) (solid : t.Solid place) :
    t.entry? place.parent = some .directory := by
  obtain ⟨e, stands, -⟩ := solid
  rcases List.eq_nil_or_concat place with rfl | ⟨above, n, rfl⟩
  · rfl
  · rw [List.concat_eq_append] at stands ⊢
    simpa using grounded above n e stands

theorem Strides.holds (grounded : t.Grounded) {parts : List Part} {stop : Stop}
    (strides : t.Strides place parts stop) (solid : t.Solid place) : stop.Holds t := by
  induction strides with
  | done => exact solid
  | here _ _ ih => exact ih solid
  | up _ _ ih =>
    exact ih (solid_of_isDirectory (isDirectory_iff.2 (grounded.parent_directory solid)))
  | name _ _ solid' _ ih => exact ih solid'
  | free directory _ gap => exact ⟨_, _, rfl, isDirectory_iff.1 directory, gap⟩
  | link directory _ link => exact ⟨_, _, rfl, isDirectory_iff.1 directory, link⟩

theorem linkStart_solid {target : String} {rest : List Part}
    (holds : (Stop.link q target rest).Holds t) : t.Solid (linkStart q target) := by
  obtain ⟨above, n, rfl, directory, -⟩ := holds
  unfold linkStart
  split
  · exact t.solid_nil
  · simpa using solid_of_isDirectory (isDirectory_iff.2 directory)

theorem walk_holds (grounded : t.Grounded) {through : Bool} {hops : Nat} {parts : List Part}
    {stop : Stop} (solid : t.Solid place) (walked : t.walk through hops place parts = .ok stop) :
    stop.Holds t := by
  refine walk_induction (motive := fun _ place _ => t.Solid place → stop.Holds t) ?_ ?_ walked solid
  · intro _ place parts strides _ solid
    exact strides.holds grounded solid
  · intro _ place parts q target rest strides _ later solid
    exact later (linkStart_solid (strides.holds grounded solid))

theorem walk_through_ne_link {hops : Nat} {parts rest : List Part} {target : String} :
    t.walk true hops place parts ≠ .ok (.link q target rest) := by
  intro walked
  refine walk_induction (motive := fun _ _ _ => False) ?_ ?_ walked
  · rintro _ _ _ - ⟨-, never⟩
    cases never
  · intro _ _ _ _ _ _ _ _ later
    exact later

theorem Strides.linkless {names : Place} {stop : Stop} (linkless : t.Linkless (place ++ names))
    (strides : t.Strides place (names.map .name) stop) :
    stop = .entry (place ++ names) ∨ stop = .free (place ++ names) := by
  induction names generalizing place with
  | nil =>
    cases strides
    simp
  | cons n names ih =>
    have longer : place ++ n :: names = place ++ [n] ++ names := by simp
    rw [List.map_cons] at strides
    generalize tail : names.map Part.name = rest at strides
    cases strides with
    | name directory short solid later =>
      rw [longer] at linkless ⊢
      exact ih linkless (tail ▸ later)
    | free directory short gap =>
      obtain rfl := List.map_eq_nil_iff.1 tail
      exact .inr rfl
    | link directory short link => exact absurd link (linkless _ _ ⟨names, longer.symm⟩)

end Tree

end FlightBlocks
