import FlightBlocks.Proofs.Json.Numeral
import FlightBlocks.Proofs.Json.Text
import FlightBlocks.Proofs.Json.Tokens
/-!
Values written on many lines and read again. A number or a word ends where what follows cannot
belong to it, and between values there is always such a character, so the tokens of a value are
found again one after another.
-/

namespace FlightBlocks

namespace JsonToken

/-- No number and no word goes on into `rest`. -/
def Breaks (rest : List Char) : Prop := ∀ c ∈ rest.head?, inNumeral c = false ∧ inWord c = false

theorem breaks_cons {c : Char} (numeral : inNumeral c = false) (word : inWord c = false)
    (rest : List Char) : Breaks (c :: rest) := by
  rintro _ ⟨⟩
  exact ⟨numeral, word⟩

structure Gathers (mode : List Char → Mode) (belongs : Char → Bool)
    (token? : List Char → Option JsonToken) : Prop where
  takes : ∀ {read found c}, belongs c = true →
    step (mode read) found c = some (mode (c :: read), found)
  stops : ∀ {read found c t}, belongs c = false → token? read.reverse = some t →
    step (mode read) found c = step .between (t :: found) c
  ends : ∀ {read found t}, token? read.reverse = some t →
    finish (mode read) found = finish .between (t :: found)

def numeral? (cs : List Char) : Option JsonToken := (Numeral.ofChars? cs).map .number

theorem gathers_numeral : Gathers .numeral inNumeral numeral? where
  takes belongs := by simp only [step, belongs, if_true]
  stops {read found c t} other token := by
    obtain ⟨n, number, rfl⟩ := Option.map_eq_some_iff.1 token
    simp only [step, other, number]
    cases start c <;> rfl
  ends {read found t} token := by
    obtain ⟨n, number, rfl⟩ := Option.map_eq_some_iff.1 token
    simp only [finish, number, Option.map_some]

theorem gathers_word : Gathers .word inWord ofWord? where
  takes belongs := by simp only [step, belongs, if_true]
  stops {read found c t} other token := by
    simp only [step, other, token]
    cases start c <;> rfl
  ends {read found t} token := by simp only [finish, token, Option.map_some]

section Scan

variable {found : List JsonToken} {rest : List Char}

theorem Gathers.scan_append {mode : List Char → Mode} {belongs : Char → Bool}
    {token? : List Char → Option JsonToken} (gathers : Gathers mode belongs token?)
    {cs read : List Char} {t : JsonToken} (inside : ∀ c ∈ cs, belongs c = true)
    (token : token? (read.reverse ++ cs) = some t) (stop : ∀ c ∈ rest.head?, belongs c = false) :
    scan (mode read) found (cs ++ rest) = scan .between (t :: found) rest := by
  induction cs generalizing read with
  | nil =>
    rw [List.append_nil] at token
    cases rest with
    | nil => exact gathers.ends token
    | cons c rest => rw [List.nil_append, scan, gathers.stops (stop c rfl) token, scan]
  | cons c cs ih =>
    obtain ⟨first, others⟩ := List.forall_mem_cons.1 inside
    have token' : token? ((c :: read).reverse ++ cs) = some t := by
      rwa [List.reverse_cons, List.append_assoc]
    rw [List.cons_append, scan, gathers.takes first]
    exact ih others token'

theorem start_numeral {c : Char} (opens : c = '-' ∨ Numeral.isDigit c = true) :
    start c = some (.numeral [c], none) := by
  rcases opens with rfl | digit
  · rfl
  · have other (d : Char) (none : Numeral.isDigit d = false) : c ≠ d :=
      Numeral.ne_of_isDigit digit none
    simp [start, isSpace, digit, other ' ' rfl, other '\t' rfl, other '\n' rfl, other '\r' rfl,
      other '[' rfl, other ']' rfl, other '{' rfl, other '}' rfl, other ',' rfl, other ':' rfl,
      other '"' rfl]

theorem scan_numeral {n : Numeral} (formed : n.WellFormed) (breaks : Breaks rest) :
    scan .between found (n.write ++ rest) = scan .between (.number n :: found) rest := by
  obtain ⟨c, cs, written, opens⟩ := Numeral.write_eq_cons formed
  have token : numeral? n.write = some (.number n) := by
    rw [numeral?, Numeral.ofChars?_write formed]
    rfl
  have inside : ∀ c ∈ n.write, inNumeral c = true :=
    fun c member => Numeral.inNumeral_of_mem_write formed member
  rw [written] at token inside ⊢
  rw [List.cons_append, scan, step, start_numeral opens]
  exact gathers_numeral.scan_append (List.forall_mem_cons.1 inside).2 token
    fun c head => (breaks c head).1

theorem scan_word {c : Char} {cs : List Char} {t : JsonToken}
    (opens : start c = some (.word [c], none)) (inside : cs.all inWord = true)
    (word : ofWord? (c :: cs) = some t) (breaks : Breaks rest) :
    scan .between found (c :: cs ++ rest) = scan .between (t :: found) rest := by
  rw [List.cons_append, scan, step, opens]
  exact gathers_word.scan_append (List.all_eq_true.1 inside) word fun c head => (breaks c head).2

theorem scan_endArray :
    scan .between found (']' :: rest) = scan .between (.endArray :: found) rest := rfl

theorem scan_endObject :
    scan .between found ('}' :: rest) = scan .between (.endObject :: found) rest := rfl

theorem scan_newline (level : Nat) :
    scan .between found ('\n' :: Json.margin level ++ rest) = scan .between found rest := by
  have blanks (n : Nat) : scan .between found (List.replicate n ' ' ++ rest) =
      scan .between found rest := by
    induction n with
    | zero => rfl
    | succ n ih => exact ih
  exact blanks (2 * level)

end Scan

end JsonToken

namespace Json

inductive WellFormed : Json → Prop where
  | null : WellFormed .null
  | bool (b : Bool) : WellFormed (.bool b)
  | number {n : Numeral} (formed : n.WellFormed) : WellFormed (.number n)
  | text {t : List JsonMark} (formed : ∀ m ∈ t, m.WellFormed) : WellFormed (.text t)
  | array {items : List Json} (formed : ∀ v ∈ items, WellFormed v) : WellFormed (.array items)
  | object {members : List (List JsonMark × Json)} (keys : ∀ m ∈ members, ∀ k ∈ m.1, k.WellFormed)
    (formed : ∀ m ∈ members, WellFormed m.2) : WellFormed (.object members)

mutual

/-- What a value is read as once it is written. -/
def reread : Json → Json
  | .null => .null
  | .bool b => .bool b
  | .number n => .number n
  | .text t => .text (t.map JsonMark.reread)
  | .array items => .array (rereadItems items)
  | .object members => .object (rereadMembers members)

def rereadItems : List Json → List Json
  | [] => []
  | v :: vs => reread v :: rereadItems vs

def rereadMembers : List (List JsonMark × Json) → List (List JsonMark × Json)
  | [] => []
  | (k, v) :: ms => (k.map JsonMark.reread, reread v) :: rereadMembers ms

end

theorem rereadItems_eq_map (items : List Json) : rereadItems items = items.map reread := by
  induction items with
  | nil => rfl
  | cons v vs ih => rw [rereadItems, ih, List.map_cons]

theorem rereadMembers_eq_map (members : List (List JsonMark × Json)) :
    rereadMembers members = members.map fun m => (m.1.map JsonMark.reread, m.2.reread) := by
  induction members with
  | nil => rfl
  | cons m ms ih => rw [rereadMembers, ih, List.map_cons]

open JsonToken

def Scanned (v : Json) : Prop :=
  ∀ level found rest, Breaks rest →
    scan .between found (layout level v ++ rest) =
      scan .between (v.reread.tokens.reverse ++ found) rest

variable {found : List JsonToken} {rest : List Char}

theorem breaks_layoutItems (breaks : Breaks rest) (level : Nat) (items : List Json) :
    Breaks (layoutItems level items ++ rest) := by
  cases items with
  | nil => exact breaks
  | cons v vs => exact breaks_cons rfl rfl _

theorem breaks_layoutMembers (breaks : Breaks rest) (level : Nat)
    (members : List (List JsonMark × Json)) : Breaks (layoutMembers level members ++ rest) := by
  cases members with
  | nil => exact breaks
  | cons m ms => exact breaks_cons rfl rfl _

theorem scanned_items {items : List Json} (scanned : ∀ v ∈ items, Scanned v) (level : Nat)
    (breaks : Breaks rest) :
    scan .between found (layoutItems level items ++ rest) =
      scan .between ((itemTokens (rereadItems items)).reverse ++ found) rest := by
  induction items generalizing found with
  | nil => rfl
  | cons v vs ih =>
    obtain ⟨first, others⟩ := List.forall_mem_cons.1 scanned
    have begun : scan .between found (layoutItems level (v :: vs) ++ rest) =
        scan .between (.comma :: found)
          ('\n' :: margin level ++ (layout level v ++ (layoutItems level vs ++ rest))) := by
      rw [layoutItems]
      simp only [List.cons_append, List.append_assoc]
      rfl
    rw [begun, scan_newline, first level _ _ (breaks_layoutItems breaks level vs), ih others,
      rereadItems, itemTokens]
    simp

theorem scanned_member {k : List JsonMark} {v : Json} (key : ∀ m ∈ k, m.WellFormed)
    (scanned : Scanned v) (level : Nat) (breaks : Breaks rest) :
    scan .between found (JsonMark.quote k ++ ':' :: ' ' :: (layout level v ++ rest)) =
      scan .between
        (v.reread.tokens.reverse ++ .colon :: .text (k.map JsonMark.reread) :: found) rest :=
  (JsonMark.scan_quote key).trans (scanned level _ _ breaks)

theorem scanned_members {members : List (List JsonMark × Json)}
    (keys : ∀ m ∈ members, ∀ k ∈ m.1, k.WellFormed) (scanned : ∀ m ∈ members, Scanned m.2)
    (level : Nat) (breaks : Breaks rest) :
    scan .between found (layoutMembers level members ++ rest) =
      scan .between ((memberTokens (rereadMembers members)).reverse ++ found) rest := by
  induction members generalizing found with
  | nil => rfl
  | cons m ms ih =>
    obtain ⟨k, v⟩ := m
    obtain ⟨first, others⟩ := List.forall_mem_cons.1 scanned
    obtain ⟨key, keys⟩ := List.forall_mem_cons.1 keys
    have begun : scan .between found (layoutMembers level ((k, v) :: ms) ++ rest) =
        scan .between (.comma :: found) ('\n' :: margin level ++ (JsonMark.quote k ++
          ':' :: ' ' :: (layout level v ++ (layoutMembers level ms ++ rest)))) := by
      rw [layoutMembers]
      simp only [List.cons_append, List.append_assoc]
      rfl
    rw [begun, scan_newline, scanned_member key first level (breaks_layoutMembers breaks level ms),
      ih keys others, rereadMembers, memberTokens]
    simp

theorem scanned_array {items : List Json} (scanned : ∀ v ∈ items, Scanned v) :
    Scanned (.array items) := by
  intro level found rest breaks
  cases items with
  | nil => rfl
  | cons v vs =>
    obtain ⟨first, others⟩ := List.forall_mem_cons.1 scanned
    have closes : Breaks ('\n' :: margin level ++ (']' :: rest)) := breaks_cons rfl rfl _
    have begun : scan .between found (layout level (.array (v :: vs)) ++ rest) =
        scan .between (.beginArray :: found) ('\n' :: margin (level + 1) ++
          (layout (level + 1) v ++ (layoutItems (level + 1) vs ++
            ('\n' :: margin level ++ (']' :: rest))))) := by
      rw [layout]
      simp only [List.cons_append, List.append_assoc]
      rfl
    rw [begun, scan_newline, first _ _ _ (breaks_layoutItems closes _ vs),
      scanned_items others _ closes, scan_newline, scan_endArray, reread, rereadItems, tokens]
    simp

theorem scanned_object {members : List (List JsonMark × Json)}
    (keys : ∀ m ∈ members, ∀ k ∈ m.1, k.WellFormed) (scanned : ∀ m ∈ members, Scanned m.2) :
    Scanned (.object members) := by
  intro level found rest breaks
  cases members with
  | nil => rfl
  | cons m ms =>
    obtain ⟨k, v⟩ := m
    obtain ⟨first, others⟩ := List.forall_mem_cons.1 scanned
    obtain ⟨key, keys⟩ := List.forall_mem_cons.1 keys
    have closes : Breaks ('\n' :: margin level ++ ('}' :: rest)) := breaks_cons rfl rfl _
    have begun : scan .between found (layout level (.object ((k, v) :: ms)) ++ rest) =
        scan .between (.beginObject :: found) ('\n' :: margin (level + 1) ++
          (JsonMark.quote k ++ ':' :: ' ' :: (layout (level + 1) v ++
            (layoutMembers (level + 1) ms ++ ('\n' :: margin level ++ ('}' :: rest)))))) := by
      rw [layout]
      simp only [List.cons_append, List.append_assoc]
      rfl
    rw [begun, scan_newline, scanned_member key first _ (breaks_layoutMembers closes _ ms),
      scanned_members keys others _ closes, scan_newline, scan_endObject, reread, rereadMembers,
      tokens]
    simp

theorem scanned {v : Json} (formed : v.WellFormed) : Scanned v := by
  induction formed with
  | null => exact fun _ _ _ breaks => scan_word rfl rfl rfl breaks
  | bool b => cases b <;> exact fun _ _ _ breaks => scan_word rfl rfl rfl breaks
  | number formed => exact fun _ _ _ breaks => scan_numeral formed breaks
  | text formed => exact fun _ _ _ _ => JsonMark.scan_quote formed
  | array formed ih => exact scanned_array ih
  | object keys formed ih => exact scanned_object keys ih

/-- A well-formed value is read back as it was written. -/
theorem parse?_pretty {v : Json} (formed : v.WellFormed) : parse? v.pretty = some v.reread := by
  have found := scanned formed 0 [] [] nofun
  rw [List.append_nil, List.append_nil] at found
  rw [parse?, ofString?, pretty, String.toList_ofList, found]
  have ended : scan .between v.reread.tokens.reverse [] = some v.reread.tokens := by
    rw [scan, finish, List.reverse_reverse]
  rw [ended]
  exact ofTokens?_tokens v.reread

end Json

end FlightBlocks
