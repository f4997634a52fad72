import FlightBlocks.Json.Reader
/-!
Values as lists of tokens. The tokens of a value are gathered into that value, however deep it is
nested.
-/

namespace FlightBlocks.Json

/-- What holds of a value once it holds of all parts of it holds of every value. -/
@[elab_as_elim]
theorem inductionOn {motive : Json → Prop} (null : motive .null) (bool : ∀ b, motive (.bool b))
    (number : ∀ n, motive (.number n)) (text : ∀ t, motive (.text t))
    (array : ∀ items, (∀ v ∈ items, motive v) → motive (.array items))
    (object : ∀ members, (∀ m ∈ members, motive m.2) → motive (.object members)) :
    ∀ v, motive v
  | .null => null
  | .bool b => bool b
  | .number n => number n
  | .text t => text t
  | .array items => array items fun v _ => inductionOn null bool number text array object v
  | .object members =>
    object members fun m _ => inductionOn null bool number text array object m.2
termination_by v => sizeOf v
decreasing_by
  · rename_i member
    have := List.sizeOf_lt_of_mem member
    simp only [Json.array.sizeOf_spec]
    omega
  · rename_i member
    have := List.sizeOf_lt_of_mem member
    obtain ⟨k, v⟩ := m
    simp only [Json.object.sizeOf_spec, Prod.mk.sizeOf_spec] at this ⊢
    omega

mutual

def tokens : Json → List JsonToken
  | .null => [.null]
  | .bool b => [.bool b]
  | .number n => [.number n]
  | .text t => [.text t]
  | .array [] => [.beginArray, .endArray]
  | .array (v :: vs) => .beginArray :: (tokens v ++ (itemTokens vs ++ [.endArray]))
  | .object [] => [.beginObject, .endObject]
  | .object ((k, v) :: ms) =>
    .beginObject :: .text k :: .colon :: (tokens v ++ (memberTokens ms ++ [.endObject]))

def itemTokens : List Json → List JsonToken
  | [] => []
  | v :: vs => .comma :: (tokens v ++ itemTokens vs)

def memberTokens : List (List JsonMark × Json) → List JsonToken
  | [] => []
  | (k, v) :: ms => .comma :: .text k :: .colon :: (tokens v ++ memberTokens ms)

end

def Gathered (v : Json) : Prop :=
  ∀ opened, v.tokens.foldlM step (.value opened) = some (.done opened v)

variable {opened : List Frame} {v : Json}

theorem foldlM_append_of {r r' : Reading} {ts : List JsonToken} (read : ts.foldlM step r = some r')
    (us : List JsonToken) : (ts ++ us).foldlM step r = us.foldlM step r' := by
  rw [List.foldlM_append, read]
  rfl

theorem gathered_items {items : List Json} (gathered : ∀ w ∈ items, Gathered w)
    (before : List Json) (v : Json) :
    (itemTokens items ++ [JsonToken.endArray]).foldlM step (.done (.items before :: opened) v) =
      some (.done opened (.array ((v :: before).reverse ++ items))) := by
  induction items generalizing before v with
  | nil =>
    rw [List.append_nil]
    rfl
  | cons w items ih =>
    obtain ⟨first, others⟩ := List.forall_mem_cons.1 gathered
    have ready : (itemTokens (w :: items) ++ [JsonToken.endArray]).foldlM step
        (.done (.items before :: opened) v) =
        (w.tokens ++ (itemTokens items ++ [JsonToken.endArray])).foldlM step
          (.value (.items (v :: before) :: opened)) := by
      rw [itemTokens, List.cons_append, List.append_assoc]
      rfl
    rw [ready, foldlM_append_of (first _), ih others, List.reverse_cons (a := w),
      List.append_assoc]
    rfl

theorem gathered_members {members : List (List JsonMark × Json)}
    (gathered : ∀ m ∈ members, Gathered m.2) (before : List (List JsonMark × Json))
    (key : List JsonMark) (v : Json) :
    (memberTokens members ++ [JsonToken.endObject]).foldlM step
        (.done (.member before key :: opened) v) =
      some (.done opened (.object (((key, v) :: before).reverse ++ members))) := by
  induction members generalizing before key v with
  | nil =>
    rw [List.append_nil]
    rfl
  | cons m members ih =>
    obtain ⟨k, w⟩ := m
    obtain ⟨first, others⟩ := List.forall_mem_cons.1 gathered
    have ready : (memberTokens ((k, w) :: members) ++ [JsonToken.endObject]).foldlM step
        (.done (.member before key :: opened) v) =
        (w.tokens ++ (memberTokens members ++ [JsonToken.endObject])).foldlM step
          (.value (.member ((key, v) :: before) k :: opened)) := by
      rw [memberTokens, List.cons_append, List.cons_append, List.cons_append, List.append_assoc]
      rfl
    rw [ready, foldlM_append_of (first _), ih others, List.reverse_cons (a := (k, w)),
      List.append_assoc]
    rfl

theorem foldlM_firstItem (v : Json) (ts : List JsonToken) :
    (v.tokens ++ ts).foldlM step (.firstItem opened) =
      (v.tokens ++ ts).foldlM step (.value (.items [] :: opened)) := by
  cases v with
  | array items => cases items <;> rfl
  | object members => cases members <;> rfl
  | _ => rfl

theorem gathered (v : Json) : Gathered v := by
  induction v using inductionOn with
  | null => exact fun _ => rfl
  | bool b => exact fun _ => rfl
  | number n => exact fun _ => rfl
  | text t => exact fun _ => rfl
  | array items gathered =>
    intro opened
    cases items with
    | nil => rfl
    | cons v vs =>
      obtain ⟨first, others⟩ := List.forall_mem_cons.1 gathered
      have ready : (tokens (.array (v :: vs))).foldlM step (.value opened) =
          (v.tokens ++ (itemTokens vs ++ [JsonToken.endArray])).foldlM step
            (.firstItem opened) := rfl
      rw [ready, foldlM_firstItem, foldlM_append_of (first _), gathered_items others]
      rfl
  | object members gathered =>
    intro opened
    cases members with
    | nil => rfl
    | cons m ms =>
      obtain ⟨k, v⟩ := m
      obtain ⟨first, others⟩ := List.forall_mem_cons.1 gathered
      have ready : (tokens (.object ((k, v) :: ms))).foldlM step (.value opened) =
          (v.tokens ++ (memberTokens ms ++ [JsonToken.endObject])).foldlM step
            (.value (.member [] k :: opened)) := rfl
      rw [ready, foldlM_append_of (first _), gathered_members others]
      rfl

theorem ofTokens?_tokens (v : Json) : ofTokens? v.tokens = some v := by
  rw [ofTokens?, gathered v []]
  rfl

section Read

def itemPart (v : Json) : List JsonToken := v.tokens ++ [.comma]

def memberPart (m : List JsonMark × Json) : List JsonToken :=
  .text m.1 :: .colon :: (m.2.tokens ++ [.comma])

/-- The tokens of an open array or object, up to the value that is awaited. -/
def Frame.tokens : Frame → List JsonToken
  | .items before => .beginArray :: before.reverse.flatMap itemPart
  | .member before key => .beginObject :: before.reverse.flatMap memberPart ++ [.text key, .colon]

def openedTokens : List Frame → List JsonToken
  | [] => []
  | frame :: opened => openedTokens opened ++ frame.tokens

def Reading.tokens : Reading → List JsonToken
  | .value opened => openedTokens opened
  | .firstItem opened => openedTokens opened ++ [.beginArray]
  | .firstKey opened => openedTokens opened ++ [.beginObject]
  | .key opened before => openedTokens opened ++ .beginObject :: before.reverse.flatMap memberPart
  | .colon opened before k =>
    openedTokens opened ++ .beginObject :: before.reverse.flatMap memberPart ++ [.text k]
  | .done opened v => openedTokens opened ++ v.tokens

theorem tokens_array_concat (items : List Json) (v : Json) :
    tokens (.array (items ++ [v])) =
      .beginArray :: items.flatMap itemPart ++ (v.tokens ++ [.endArray]) := by
  have later (items : List Json) :
      .comma :: items.flatMap itemPart ++ v.tokens = itemTokens (items ++ [v]) := by
    induction items with
    | nil => simp [itemTokens]
    | cons w items ih =>
      rw [List.cons_append (a := w), itemTokens, ← ih]
      simp [itemPart]
  cases items with
  | nil => simp [tokens, itemTokens]
  | cons w items =>
    rw [List.cons_append (a := w), tokens, ← later]
    simp [itemPart]

theorem tokens_object_concat (members : List (List JsonMark × Json)) (key : List JsonMark)
    (v : Json) :
    tokens (.object (members ++ [(key, v)])) =
      .beginObject :: members.flatMap memberPart ++
        (.text key :: .colon :: (v.tokens ++ [.endObject])) := by
  have later (members : List (List JsonMark × Json)) :
      .comma :: members.flatMap memberPart ++ (.text key :: .colon :: v.tokens) =
        memberTokens (members ++ [(key, v)]) := by
    induction members with
    | nil => simp [memberTokens]
    | cons m members ih =>
      rw [List.cons_append (a := m), memberTokens, ← ih]
      simp [memberPart]
  cases members with
  | nil => simp [tokens, memberTokens]
  | cons m members =>
    rw [List.cons_append (a := m), tokens, ← later]
    simp [memberPart]

theorem tokens_begin {r : Reading} {t : JsonToken} (begun : begin opened t = some r) :
    r.tokens = openedTokens opened ++ [t] := by
  cases t <;> cases begun <;> simp [Reading.tokens, tokens]

theorem tokens_step {r r' : Reading} {t : JsonToken} (stepped : step r t = some r') :
    r'.tokens = r.tokens ++ [t] := by
  -- one case for each line of `step`, in its order
  unfold step at stepped
  split at stepped
  next => exact tokens_begin stepped
  next => cases stepped; simp [Reading.tokens, tokens]
  next => exact tokens_begin stepped
  next => cases stepped; simp [Reading.tokens, tokens]
  next => cases stepped; simp [Reading.tokens]
  next => cases stepped; simp [Reading.tokens]
  next => cases stepped; simp [Reading.tokens, openedTokens, Frame.tokens]
  next => cases stepped; simp [Reading.tokens, openedTokens, Frame.tokens, itemPart]
  next =>
    cases stepped
    rw [Reading.tokens, List.reverse_cons, tokens_array_concat]
    simp [Reading.tokens, openedTokens, Frame.tokens]
  next => cases stepped; simp [Reading.tokens, openedTokens, Frame.tokens, memberPart]
  next =>
    cases stepped
    rw [Reading.tokens, List.reverse_cons, tokens_object_concat]
    simp [Reading.tokens, openedTokens, Frame.tokens]
  next => cases stepped

theorem tokens_foldlM {r r' : Reading} {ts : List JsonToken}
    (read : ts.foldlM step r = some r') : r'.tokens = r.tokens ++ ts := by
  induction ts generalizing r with
  | nil =>
    cases read
    rw [List.append_nil]
  | cons t ts ih =>
    rw [List.foldlM_cons] at read
    obtain ⟨next, stepped, read⟩ := Option.bind_eq_some_iff.1 read
    rw [ih read, tokens_step stepped, List.append_assoc, List.singleton_append]

/-- The reader gives each value for its own tokens, and for no others. -/
theorem ofTokens?_eq_some_iff {ts : List JsonToken} : ofTokens? ts = some v ↔ ts = v.tokens := by
  constructor
  · intro read
    obtain ⟨r, read, ended⟩ := Option.bind_eq_some_iff.1 read
    have all := tokens_foldlM read
    cases r with
    | done opened w =>
      cases opened with
      | nil =>
        cases ended
        exact all.symm
      | cons frame opened => cases ended
    | _ => cases ended
  · rintro rfl
    exact ofTokens?_tokens v

end Read

end FlightBlocks.Json
