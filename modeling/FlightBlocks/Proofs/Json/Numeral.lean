import FlightBlocks.Json.Printer
import FlightBlocks.Json.Token
/-!
Numbers written and read again. A number in its written form is read back as it is, and an integer
is written in that form and stands for itself.
-/

namespace FlightBlocks.Numeral

structure Decimal (digits : List Nat) : Prop where
  nonempty : digits ≠ []
  small : ∀ d ∈ digits, d < 10

/-- The form in which numbers are written. -/
structure WellFormed (n : Numeral) : Prop where
  whole : Decimal n.whole
  leading : ∀ d ds, n.whole ≠ 0 :: d :: ds
  fraction : ∀ ds ∈ n.fraction, Decimal ds
  exponent : ∀ part ∈ n.exponent, Decimal part.2

section Digits

variable {digits : List Nat} {rest : List Char}

theorem isDigit_digit : ∀ d, d < 10 → isDigit (Char.ofNat (48 + d)) = true := by decide

theorem digitValue_digit : ∀ d, d < 10 → digitValue (Char.ofNat (48 + d)) = d := by decide

theorem isDigit_of_mem_writeDigits (decimal : Decimal digits) {c : Char}
    (member : c ∈ writeDigits digits) : isDigit c = true := by
  obtain ⟨d, inside, rfl⟩ := List.mem_map.1 member
  exact isDigit_digit d (decimal.small d inside)

theorem map_digitValue (decimal : Decimal digits) :
    (writeDigits digits).map digitValue = digits := by
  have back : ∀ d ∈ digits, (digitValue ∘ fun d => Char.ofNat (48 + d)) d = id d :=
    fun d member => digitValue_digit d (decimal.small d member)
  rw [writeDigits, List.map_map, List.map_congr_left back, List.map_id]

theorem writeDigits_eq_cons (decimal : Decimal digits) :
    ∃ c cs, writeDigits digits = c :: cs ∧ isDigit c = true := by
  obtain ⟨d, ds, rfl⟩ := List.exists_cons_of_ne_nil decimal.nonempty
  exact ⟨_, _, rfl, isDigit_digit d (decimal.small d List.mem_cons_self)⟩

theorem digits?_writeDigits (decimal : Decimal digits) (stop : ∀ c ∈ rest.head?, ¬ isDigit c) :
    digits? (writeDigits digits ++ rest) = some (digits, rest) := by
  have all : ∀ c ∈ writeDigits digits, isDigit c = true :=
    fun c member => isDigit_of_mem_writeDigits decimal member
  have taken : (writeDigits digits ++ rest).takeWhile isDigit = writeDigits digits := by
    rw [List.takeWhile_append_of_pos all]
    cases rest with
    | nil => simp
    | cons c rest => rw [List.takeWhile_cons_of_neg (stop c rfl), List.append_nil]
  have left : (writeDigits digits ++ rest).dropWhile isDigit = rest := by
    rw [List.dropWhile_append_of_pos all]
    cases rest with
    | nil => rfl
    | cons c rest => rw [List.dropWhile_cons_of_neg (stop c rfl)]
  have back := map_digitValue decimal
  obtain ⟨c, cs, written, -⟩ := writeDigits_eq_cons decimal
  rw [written] at back taken left ⊢
  simp only [digits?, taken, left, back]

end Digits

section Write

variable {n : Numeral}

theorem whole?_writeDigits {digits : List Nat} {rest : List Char} (decimal : Decimal digits)
    (leading : ∀ d ds, digits ≠ 0 :: d :: ds) (stop : ∀ c ∈ rest.head?, ¬ isDigit c) :
    whole? (writeDigits digits ++ rest) = some (digits, rest) := by
  rw [whole?, digits?_writeDigits decimal stop]
  split
  next d ds _ same =>
    cases same
    exact absurd rfl (leading d ds)
  next => rfl

def fractionPart : Option (List Nat) → List Char
  | none => []
  | some ds => '.' :: writeDigits ds

def exponentPart : Option (Bool × List Nat) → List Char
  | none => []
  | some (negative, ds) => 'e' :: (if negative then ['-'] else []) ++ writeDigits ds

theorem write_eq (n : Numeral) :
    n.write = (if n.negative then ['-'] else []) ++
      (writeDigits n.whole ++ (fractionPart n.fraction ++ exponentPart n.exponent)) := by
  obtain ⟨negative, whole, fraction, exponent⟩ := n
  rw [write, List.append_assoc, List.append_assoc]
  rfl

theorem head_exponentPart (exponent : Option (Bool × List Nat)) :
    ∀ c ∈ (exponentPart exponent).head?, c = 'e' := by
  rcases exponent with _ | ⟨negative, ds⟩
  · nofun
  · rintro c ⟨⟩
    rfl

theorem head_fractionPart (fraction : Option (List Nat)) (exponent : Option (Bool × List Nat)) :
    ∀ c ∈ (fractionPart fraction ++ exponentPart exponent).head?, c = '.' ∨ c = 'e' := by
  cases fraction with
  | none => exact fun c head => .inr (head_exponentPart exponent c head)
  | some ds =>
    rintro c ⟨⟩
    exact .inl rfl

theorem ne_of_isDigit {c other : Char} (digit : isDigit c = true) (none : isDigit other = false) :
    c ≠ other := by
  rintro rfl
  exact absurd digit (none ▸ Bool.false_ne_true)

theorem exponent?_digit {c : Char} (digit : isDigit c = true) (cs : List Char) :
    exponent? ('e' :: c :: cs) =
      (digits? (c :: cs)).map fun found => (some (false, found.1), found.2) := by
  have notMinus : c ≠ '-' := ne_of_isDigit digit rfl
  have notPlus : c ≠ '+' := ne_of_isDigit digit rfl
  simp only [exponent?, true_or, if_true]
  split
  next same => exact absurd (List.cons.inj same).1 notMinus
  next same => exact absurd (List.cons.inj same).1 notPlus
  next => rfl

theorem ofChars?_minus (cs : List Char) : ofChars? ('-' :: cs) = unsigned? true cs := rfl

theorem ofChars?_digit {c : Char} (digit : isDigit c = true) (cs : List Char) :
    ofChars? (c :: cs) = unsigned? false (c :: cs) := by
  have notMinus : c ≠ '-' := ne_of_isDigit digit rfl
  unfold ofChars?
  split
  next same => exact absurd (List.cons.inj same).1 notMinus
  next => rfl

theorem exponent?_exponentPart {exponent : Option (Bool × List Nat)}
    (decimal : ∀ part ∈ exponent, Decimal part.2) :
    exponent? (exponentPart exponent) = some (exponent, []) := by
  rcases exponent with _ | ⟨negative, ds⟩
  · rfl
  · have some' : Decimal ds := decimal _ rfl
    have read : digits? (writeDigits ds ++ []) = some (ds, []) := digits?_writeDigits some' nofun
    rw [List.append_nil] at read
    cases negative with
    | true => simp [exponentPart, exponent?, read]
    | false =>
      obtain ⟨c, cs, written, digit⟩ := writeDigits_eq_cons some'
      rw [written] at read
      have part : exponentPart (some (false, ds)) = 'e' :: c :: cs := by
        rw [exponentPart, written]
        rfl
      rw [part, exponent?_digit digit, read]
      rfl

theorem fraction?_fractionPart {fraction : Option (List Nat)}
    (decimal : ∀ ds ∈ fraction, Decimal ds) (exponent : Option (Bool × List Nat)) :
    fraction? (fractionPart fraction ++ exponentPart exponent) =
      some (fraction, exponentPart exponent) := by
  have head := head_exponentPart exponent
  cases fraction with
  | none =>
    cases written : exponentPart exponent with
    | nil => rfl
    | cons c cs =>
      rw [written] at head
      cases head c rfl
      rfl
  | some ds =>
    have stop : ∀ c ∈ (exponentPart exponent).head?, ¬ isDigit c := by
      intro c member
      rw [head c member]
      decide
    have read := digits?_writeDigits (decimal ds rfl) stop
    simp only [fractionPart, List.cons_append, fraction?, read, Option.map_some]

theorem unsigned?_write (formed : n.WellFormed) (negative : Bool) :
    unsigned? negative
        (writeDigits n.whole ++ (fractionPart n.fraction ++ exponentPart n.exponent)) =
      some ⟨negative, n.whole, n.fraction, n.exponent⟩ := by
  have stop : ∀ c ∈ (fractionPart n.fraction ++ exponentPart n.exponent).head?, ¬ isDigit c := by
    intro c member
    rcases head_fractionPart _ _ c member with rfl | rfl <;> decide
  have whole := whole?_writeDigits formed.whole formed.leading stop
  have fraction := fraction?_fractionPart formed.fraction n.exponent
  have exponent := exponent?_exponentPart formed.exponent
  simp [unsigned?, whole, fraction, exponent]

theorem ofChars?_write (formed : n.WellFormed) : ofChars? n.write = some n := by
  have read := unsigned?_write formed n.negative
  rw [write_eq]
  cases negative : n.negative with
  | true =>
    rw [negative] at read
    rw [if_pos rfl, List.singleton_append, ofChars?_minus, read, ← negative]
  | false =>
    obtain ⟨c, cs, written, digit⟩ := writeDigits_eq_cons formed.whole
    rw [negative, written, List.cons_append] at read
    rw [if_neg nofun, List.nil_append, written, List.cons_append, ofChars?_digit digit, read,
      ← negative]

theorem write_eq_cons (formed : n.WellFormed) :
    ∃ c cs, n.write = c :: cs ∧ (c = '-' ∨ isDigit c = true) := by
  obtain ⟨c, cs, written, digit⟩ := writeDigits_eq_cons formed.whole
  rw [write_eq]
  cases n.negative with
  | true => exact ⟨'-', _, rfl, .inl rfl⟩
  | false => exact ⟨c, _, by rw [written]; rfl, .inr digit⟩

theorem inNumeral_of_mem_writeDigits {digits : List Nat} (decimal : Decimal digits) {c : Char}
    (member : c ∈ writeDigits digits) : JsonToken.inNumeral c = true := by
  have digit := isDigit_of_mem_writeDigits decimal member
  simp [JsonToken.inNumeral, digit]

theorem inNumeral_of_mem_fractionPart {fraction : Option (List Nat)}
    (decimal : ∀ ds ∈ fraction, Decimal ds) {c : Char} (member : c ∈ fractionPart fraction) :
    JsonToken.inNumeral c = true := by
  cases fraction with
  | none => cases member
  | some ds =>
    rcases List.mem_cons.1 member with rfl | member
    · rfl
    · exact inNumeral_of_mem_writeDigits (decimal ds rfl) member

theorem inNumeral_of_mem_exponentPart {exponent : Option (Bool × List Nat)}
    (decimal : ∀ part ∈ exponent, Decimal part.2) {c : Char} (member : c ∈ exponentPart exponent) :
    JsonToken.inNumeral c = true := by
  rcases exponent with _ | ⟨negative, ds⟩
  · cases member
  · rcases List.mem_cons.1 member with rfl | member
    · rfl
    · rcases List.mem_append.1 member with sign | member
      · cases negative with
        | true =>
          cases List.mem_singleton.1 sign
          rfl
        | false => cases sign
      · exact inNumeral_of_mem_writeDigits (decimal _ rfl) member

theorem inNumeral_of_mem_write (formed : n.WellFormed) {c : Char} (member : c ∈ n.write) :
    JsonToken.inNumeral c = true := by
  rw [write_eq, List.mem_append, List.mem_append, List.mem_append] at member
  rcases member with sign | whole | fraction | exponent
  · cases negative : n.negative with
    | true =>
      rw [negative] at sign
      cases List.mem_singleton.1 sign
      rfl
    | false =>
      rw [negative] at sign
      cases sign
  · exact inNumeral_of_mem_writeDigits formed.whole whole
  · exact inNumeral_of_mem_fractionPart formed.fraction fraction
  · exact inNumeral_of_mem_exponentPart formed.exponent exponent

end Write

section Integers

theorem digitsOf_small {n : Nat} (small : n < 10) : digitsOf n = [n] := by
  rw [digitsOf, Nat.toDigits_of_lt_base small, List.map_singleton,
    Nat.toNat_digitChar_sub_48_of_lt_ten small]

theorem digitsOf_large {n : Nat} (large : 10 ≤ n) :
    digitsOf n = digitsOf (n / 10) ++ [n % 10] := by
  have last : n % 10 < 10 := Nat.mod_lt n (by decide)
  rw [digitsOf, Nat.toDigits_of_base_le (by decide) large, List.map_append, List.map_singleton,
    Nat.toNat_digitChar_sub_48_of_lt_ten last]
  rfl

theorem decimal_digitsOf (n : Nat) : Decimal (digitsOf n) := by
  induction n using Nat.strongRecOn with
  | ind n ih =>
    rcases Nat.lt_or_ge n 10 with small | large
    · rw [digitsOf_small small]
      exact ⟨nofun, fun d member => List.mem_singleton.1 member ▸ small⟩
    · rw [digitsOf_large large]
      have before := ih (n / 10) (by omega)
      refine ⟨by simp, fun d member => ?_⟩
      rcases List.mem_append.1 member with member | member
      · exact before.small d member
      · rw [List.mem_singleton.1 member]
        exact Nat.mod_lt n (by decide)

theorem digitsOf_head {n : Nat} (positive : 0 < n) : ∀ ds, digitsOf n ≠ 0 :: ds := by
  induction n using Nat.strongRecOn with
  | ind n ih =>
    intro ds same
    rcases Nat.lt_or_ge n 10 with small | large
    · rw [digitsOf_small small] at same
      exact absurd (List.cons.inj same).1 (Nat.ne_of_gt positive)
    · rw [digitsOf_large large] at same
      obtain ⟨d, before, split⟩ := List.exists_cons_of_ne_nil (decimal_digitsOf (n / 10)).nonempty
      rw [split, List.cons_append] at same
      have zero : d = 0 := (List.cons.inj same).1
      exact ih (n / 10) (by omega) (by omega) before (zero ▸ split)

theorem digitsOf_leading (n d : Nat) (ds : List Nat) : digitsOf n ≠ 0 :: d :: ds := by
  cases n with
  | zero => exact nofun
  | succ n => exact digitsOf_head (Nat.succ_pos n) (d :: ds)

theorem ofDigits_digitsOf (n : Nat) : ofDigits (digitsOf n) = n := by
  induction n using Nat.strongRecOn with
  | ind n ih =>
    rcases Nat.lt_or_ge n 10 with small | large
    · rw [digitsOf_small small]
      exact Nat.zero_add n
    · have before := ih (n / 10) (by omega)
      rw [ofDigits] at before
      rw [digitsOf_large large, ofDigits, List.foldl_append, before]
      simp only [List.foldl_cons, List.foldl_nil]
      omega

theorem wellFormed_ofNat (n : Nat) : (ofNat n).WellFormed :=
  ⟨decimal_digitsOf n, digitsOf_leading n, nofun, nofun⟩

theorem wellFormed_ofInt (i : Int) : (ofInt i).WellFormed := by
  cases i with
  | ofNat n => exact wellFormed_ofNat n
  | negSucc n => exact ⟨decimal_digitsOf (n + 1), digitsOf_leading (n + 1), nofun, nofun⟩

theorem int?_ofInt (i : Int) : (ofInt i).int? = some i := by
  cases i with
  | ofNat n => simp [ofInt, ofNat, int?, ofDigits_digitsOf]
  | negSucc n =>
    simp [ofInt, int?, ofDigits_digitsOf]
    omega

theorem intIn?_ofInt {i low high : Int} (above : low ≤ i) (below : i ≤ high) :
    (ofInt i).intIn? low high = some i := by
  simp [intIn?, int?_ofInt, above, below]

end Integers

end FlightBlocks.Numeral
