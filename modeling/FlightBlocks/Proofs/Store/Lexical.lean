import FlightBlocks.Proofs.Files.Folding
import FlightBlocks.Proofs.Files.Straight
import FlightBlocks.Proofs.Store.Confinement
import Mathlib.Data.List.Infix
/-!
Where no links are, a sandbox goes by the text of a path alone. What leads out of the base by its
text is refused whatever there is; what stays inside resolves to the place it names, and only a file
above that place is in its way. A path that never goes up more often than down stays inside.
-/

namespace FlightBlocks

def Part.isName : Part → Bool
  | .name _ => true
  | _ => false

/-- Not taken from the root, and at no point gone up more often than down. -/
structure Path.Inward (p : Path) : Prop where
  relative : p.rooted = false
  balanced : ∀ front, front <+: p.parts → front.count .up ≤ front.countP Part.isName

namespace Place

theorem foldl_foldStep (base : Place) {parts : List Part}
    (balanced : ∀ front, front <+: parts → front.count .up ≤ front.countP Part.isName) :
    ∃ below : Place, parts.foldl Path.foldStep base = base ++ below ∧
      below.length + parts.count .up = parts.countP Part.isName := by
  -- the last part is taken off, so that every front of what is left is balanced too
  induction parts using List.reverseRecOn with
  | nil => exact ⟨[], by simp, rfl⟩
  | append_singleton parts part ih =>
    obtain ⟨below, folded, length⟩ :=
      ih fun front above => balanced front (above.trans (List.prefix_append _ _))
    have whole := balanced _ List.prefix_rfl
    rw [List.foldl_append, folded]
    rw [List.count_append, List.countP_append] at whole ⊢
    cases part with
    | here => exact ⟨below, rfl, by simpa [Part.isName] using length⟩
    | up =>
      have nonempty : below ≠ [] := by
        rintro rfl
        simp [Part.isName] at whole length
        omega
      refine ⟨below.dropLast, List.dropLast_append_of_ne_nil nonempty, ?_⟩
      have := List.length_pos_iff.2 nonempty
      simp [Part.isName]
      omega
    | name n =>
      refine ⟨below ++ [n], List.append_assoc .., ?_⟩
      simp [Part.isName]
      omega

theorem follow_of_relative {base : Place} {p : Path} (relative : p.rooted = false) :
    base.follow p = p.parts.foldl Path.foldStep base := by
  rw [follow, Path.names_join, if_neg (by simp [relative]), names_path]

theorem prefix_follow {base : Place} {p : Path} (inward : p.Inward) : base <+: base.follow p := by
  obtain ⟨below, folded, -⟩ := foldl_foldStep base inward.balanced
  rw [follow_of_relative inward.relative, folded]
  exact List.prefix_append _ _

end Place

namespace Sandbox

variable {box : Sandbox} {t : Tree} {requested : String} {q : Place}

theorem resolve_outside (written : Text.allBlank requested = false)
    (outside : ¬ box.base <+: box.base.follow (.ofText requested)) :
    box.resolve t requested = .error (.outside requested box.base.text) := by
  rw [← Place.within_iff, Bool.not_eq_true] at outside
  rw [resolve, written]
  simp [outside]

theorem resolve_inside (written : Text.allBlank requested = false)
    (leads : box.base.follow (.ofText requested) = q) (inside : box.base <+: q) :
    box.resolve t requested =
      match t.canonical box.base, t.canonical q with
      | .error fault, _ => .error (.io box.base.text fault)
      | .ok _, .error fault => .error (.io q.text fault)
      | .ok base, .ok place =>
        if place.within base then .ok place
        else .error (.outside requested box.base.text) := by
  rw [resolve, leads, written, Place.within_iff.2 inside]
  rfl

theorem resolve_of_clear (grounded : t.Grounded) (linkless : t.Linkless q) (fits : q.Fits)
    (clear : ¬ t.Blocked q) (written : Text.allBlank requested = false)
    (leads : box.base.follow (.ofText requested) = q) (inside : box.base <+: q) :
    box.resolve t requested = .ok q := by
  have base : t.canonical box.base = .ok (box.base ++ []) :=
    Tree.settle_of_clear grounded (linkless.of_prefix inside) (fits.of_prefix inside)
      fun blocked => clear (blocked.of_prefix inside)
  have place : t.canonical q = .ok (q ++ []) := Tree.settle_of_clear grounded linkless fits clear
  simp [resolve_inside written leads inside, base, place, Place.within_iff.2 inside]

theorem resolve_of_blocked (grounded : t.Grounded) (linkless : t.Linkless q) (fits : q.Fits)
    (blocked : t.Blocked q) (written : Text.allBlank requested = false)
    (leads : box.base.follow (.ofText requested) = q) (inside : box.base <+: q) :
    (t.Blocked box.base →
        box.resolve t requested = .error (.io box.base.text .notDirectory)) ∧
      (¬ t.Blocked box.base → box.resolve t requested = .error (.io q.text .notDirectory)) := by
  have linkless' := linkless.of_prefix inside
  have place : t.canonical q = .error .notDirectory :=
    Tree.settle_of_blocked grounded linkless fits blocked
  rw [resolve_inside written leads inside, place]
  refine ⟨fun above => ?_, fun clear => ?_⟩
  · rw [show t.canonical box.base = .error .notDirectory from
      Tree.settle_of_blocked grounded linkless' (fits.of_prefix inside) above]
  · rw [show t.canonical box.base = .ok (box.base ++ []) from
      Tree.settle_of_clear grounded linkless' (fits.of_prefix inside) clear]

theorem resolve_ne_outside (linkless : t.Linkless q) (written : Text.allBlank requested = false)
    (leads : box.base.follow (.ofText requested) = q) (inside : box.base <+: q)
    (asked base : String) : box.resolve t requested ≠ .error (.outside asked base) := by
  rw [resolve_inside written leads inside]
  split
  next => simp
  next => simp
  next above place found settled =>
    obtain rfl : above = box.base := by
      simpa using Tree.settle_linkless (linkless.of_prefix inside) found
    obtain rfl : place = q := by simpa using Tree.settle_linkless linkless settled
    simp [Place.within_iff.2 inside]

/-- On a way without links a path is resolved by its text. -/
theorem resolve_lexical (box : Sandbox) (requested : String)
    (written : Text.allBlank requested = false) :
    let q := box.base.follow (.ofText requested)
    (¬ box.base <+: q → ∀ t, box.resolve t requested = .error (.outside requested box.base.text)) ∧
      (box.base <+: q → ∀ t : Tree, t.Grounded → t.Linkless q → q.Fits →
        (t.Blocked q →
          (t.Blocked box.base →
            box.resolve t requested = .error (.io box.base.text .notDirectory)) ∧
          (¬ t.Blocked box.base →
            box.resolve t requested = .error (.io q.text .notDirectory))) ∧
        (¬ t.Blocked q → box.resolve t requested = .ok q)) ∧
      ((Path.ofText requested).Inward → box.base <+: q ∧
        ∀ t : Tree, t.Linkless q → ∀ asked base,
          box.resolve t requested ≠ .error (.outside asked base)) := by
  intro q
  refine ⟨fun outside t => resolve_outside written outside, ?_, fun inward => ?_⟩
  · intro inside t grounded linkless fits
    exact ⟨fun blocked => resolve_of_blocked grounded linkless fits blocked written rfl inside,
      fun clear => resolve_of_clear grounded linkless fits clear written rfl inside⟩
  · have inside : box.base <+: q := Place.prefix_follow inward
    exact ⟨inside, fun t linkless => resolve_ne_outside linkless written rfl inside⟩

theorem resolve_lexical_srv : Text.allBlank "new/../d/h" = false ∧
    resolve ⟨["srv"]⟩ [(["srv"], .directory)] "new/../d/h" = .ok ["srv", "d", "h"] ∧
    resolve ⟨["srv"]⟩ [(["srv"], .directory), (["srv", "d"], .file "x".toUTF8)] "new/../d/h" =
      .error (.io "/srv/d/h" .notDirectory) ∧
    (Path.ofText "new/../d/h").Inward ∧
    ∀ t, resolve ⟨["srv"]⟩ t "../srv2/h" = .error (.outside "../srv2/h" "/srv") := by
  have written : Text.allBlank "new/../d/h" = false := by decide +kernel
  have aside : Text.allBlank "../srv2/h" = false := by decide +kernel
  have leads : Place.follow ["srv"] (.ofText "new/../d/h") = ["srv", "d", "h"] := rfl
  have inside : ["srv"] <+: ["srv", "d", "h"] := ⟨["d", "h"], rfl⟩
  have fits : Place.Fits ["srv", "d", "h"] := ⟨by decide +kernel, by decide +kernel⟩
  have balanced : ∀ front ∈ List.inits [Part.name "new", .up, .name "d", .name "h"],
      front.count .up ≤ front.countP Part.isName := by decide
  have lexical := (resolve_lexical ⟨["srv"]⟩ "new/../d/h" written).2.1
  rw [leads] at lexical
  refine ⟨written, ?_, ?_, ⟨rfl, fun front above => balanced front ((List.mem_inits _ _).2 above)⟩,
    (resolve_lexical ⟨["srv"]⟩ "../srv2/h" aside).1 (by decide +kernel)⟩
  · refine (lexical inside _ (Tree.grounded_of_mem (by decide))
      (Tree.linkless_of_mem (by simp) _) fits).2 ?_
    rintro ⟨q, content, -, other, file⟩
    by_cases root : q = []
    · subst root
      cases file
    · simpa using Tree.mem_of_stands file root
  · have file : Tree.entry? [(["srv"], .directory), (["srv", "d"], .file "x".toUTF8)]
        ["srv", "d"] = some (.file "x".toUTF8) := rfl
    have grounded : Tree.Grounded [(["srv"], .directory), (["srv", "d"], .file "x".toUTF8)] :=
      Tree.grounded_of_mem (by decide)
    exact ((lexical inside _ grounded (Tree.linkless_of_mem (by simp) _) fits).1
      ⟨["srv", "d"], _, ⟨["h"], rfl⟩, by decide, file⟩).2 (grounded.not_blocked (by rfl))

end Sandbox

end FlightBlocks
