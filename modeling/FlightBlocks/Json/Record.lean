import FlightBlocks.Json.Double
/-!
Reading typed data out of JSON values. A record is an object, in which unknown members are passed
over and a known one may stand only once, or the array of its members in order, from which the
last ones may be missing.
-/

namespace FlightBlocks.Json

def valuesOf (name : String) (members : List (String × Json)) : List Json :=
  (members.filter fun member => member.1 == name).map (·.2)

/-- The value of the member called `name`, unless it stands twice. -/
def only? (name : String) (members : List (String × Json)) : Option (Option Json) :=
  match valuesOf name members with
  | [] => some none
  | [v] => some (some v)
  | _ => none

def named? (members : List (List JsonMark × Json)) : Option (List (String × Json)) :=
  members.mapM fun (key, value) => (JsonMark.string? key).map fun name => (name, value)

def members? (names : List String) : Json → Option (List (Option Json))
  | .object members => (named? members).bind fun named => names.mapM fun name => only? name named
  | .array items =>
    if items.length ≤ names.length then
      some (items.map some ++ List.replicate (names.length - items.length) none)
    else none
  | _ => none

def lastOfEach {α : Type} : List (String × α) → List (String × α)
  | [] => []
  | entry :: rest =>
    if rest.any fun later => later.1 == entry.1 then lastOfEach rest
    else entry :: lastOfEach rest

theorem mem_of_mapM {α β : Type} {f : α → Option β} {as : List α} {bs : List β}
    (h : as.mapM f = some bs) {b : β} (member : b ∈ bs) : ∃ a ∈ as, f a = some b := by
  induction as generalizing bs with
  | nil => simp at h; subst h; simp at member
  | cons a as ih =>
    simp only [List.mapM_cons, Option.pure_def, Option.bind_eq_bind, Option.bind_eq_some_iff,
      Option.some.injEq] at h
    obtain ⟨b', hb, bs', hbs, rfl⟩ := h
    rcases List.mem_cons.1 member with rfl | member
    · exact ⟨a, List.mem_cons_self, hb⟩
    · obtain ⟨a', ha, h'⟩ := ih hbs member
      exact ⟨a', List.mem_cons_of_mem _ ha, h'⟩

theorem mem_of_only? {name : String} {members : List (String × Json)} {v : Json}
    (h : only? name members = some (some v)) : (name, v) ∈ members := by
  have single : valuesOf name members = [v] := by
    unfold only? at h
    split at h <;> simp_all
  have member : v ∈ valuesOf name members := by simp [single]
  obtain ⟨⟨n, w⟩, found, rfl⟩ := List.mem_map.1 member
  obtain ⟨found, same⟩ := List.mem_filter.1 found
  simpa [← beq_iff_eq.1 same] using found

/-- A member of a value is a smaller value. -/
theorem sizeOf_lt_of_members? {names : List String} {v w : Json} {members : List (Option Json)}
    (h : members? names v = some members) (member : some w ∈ members) : sizeOf w < sizeOf v := by
  unfold members? at h
  split at h
  next raw =>
    obtain ⟨named, hnamed, h⟩ := Option.bind_eq_some_iff.1 h
    obtain ⟨name, -, found⟩ := mem_of_mapM h member
    obtain ⟨⟨key, value⟩, inside, same⟩ := mem_of_mapM hnamed (mem_of_only? found)
    obtain ⟨_, -, same⟩ := Option.map_eq_some_iff.1 same
    cases same
    have := List.sizeOf_lt_of_mem inside
    simp only [Prod.mk.sizeOf_spec, Json.object.sizeOf_spec] at this ⊢
    omega
  next items =>
    split at h
    · cases h
      rcases List.mem_append.1 member with member | member
      · obtain ⟨_, inside, same⟩ := List.mem_map.1 member
        cases same
        have := List.sizeOf_lt_of_mem inside
        simp only [Json.array.sizeOf_spec]
        omega
      · simp at member
    · simp at h
  next => simp at h

section Members

variable {α : Type}

def required (read : Json → Option α) (member : Option Json) : Option α := member.bind read

def orElse (default : α) (read : Json → Option α) : Option Json → Option α
  | none => some default
  | some v => read v

def nullable (read : Json → Option α) : Json → Option (Option α)
  | .null => some none
  | v => (read v).map some

def items? (read : Json → Option α) : Json → Option (List α)
  | .array items => items.mapM read
  | _ => none

def entries? (read : Json → Option α) : Json → Option (List (String × α))
  | .object members =>
    (named? members).bind fun named =>
      named.mapM fun (name, value) => (read value).map fun a => (name, a)
  | _ => none

/-- One of a few names, alone or as the key of `null`. -/
def variant? (names : List (String × α)) : Json → Option α
  | .text t => (JsonMark.string? t).bind fun name => List.lookup name names
  | .object [(key, .null)] => (JsonMark.string? key).bind fun name => List.lookup name names
  | _ => none

end Members

def string? : Json → Option String
  | .text t => JsonMark.string? t
  | _ => none

def bool? : Json → Option Bool
  | .bool b => some b
  | _ => none

def intIn? (low high : Int) : Json → Option Int
  | .number n => n.intIn? low high
  | _ => none

def word? (bits : Nat) (v : Json) : Option Nat :=
  (intIn? 0 ((1 <<< bits : Nat) - 1) v).map Int.toNat

def int64? (v : Json) : Option Int64 :=
  (intIn? Int64.minValue.toInt Int64.maxValue.toInt v).map Int64.ofInt

def float? : Json → Option Float
  | .number n => n.float?
  | _ => none

mutual

def isSound : Json → Bool
  | .text t => (JsonMark.chars? t).isSome
  | .number n => n.float?.isSome
  | .array items => itemsAreSound items
  | .object members => membersAreSound members
  | _ => true

def itemsAreSound : List Json → Bool
  | [] => true
  | v :: vs => isSound v && itemsAreSound vs

def membersAreSound : List (List JsonMark × Json) → Bool
  | [] => true
  | (k, v) :: ms => (JsonMark.chars? k).isSome && isSound v && membersAreSound ms

end

end FlightBlocks.Json
