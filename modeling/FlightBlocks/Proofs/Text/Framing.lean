import FlightBlocks.Proofs.Json.Numeral
import Mathlib.Data.List.Basic
/-!
Parts of a text that are told apart by what stands between them: a part ends at the first character
that cannot be in it. A number in digits ends before anything else, and the bytes of a text without
NUL end before a zero byte.
-/

namespace FlightBlocks.Text

/-- Two parts made of letters of one sort, each with a letter of another sort behind it. -/
theorem append_cons_inj {α : Type} {sort : α → Bool} {front front' rest rest' : List α} {a a' : α}
    (all : ∀ x ∈ front, sort x = true) (all' : ∀ x ∈ front', sort x = true)
    (stop : sort a = false) (stop' : sort a' = false)
    (same : front ++ a :: rest = front' ++ a' :: rest') :
    front = front' ∧ a = a' ∧ rest = rest' := by
  have cut {xs ys : List α} {x : α} (all : ∀ y ∈ xs, sort y = true) (stop : sort x = false) :
      (xs ++ x :: ys).takeWhile sort = xs := by
    rw [List.takeWhile_append_of_pos all, List.takeWhile_cons_of_neg (by simp [stop]),
      List.append_nil]
  have fronts : front = front' := by
    rw [← cut all stop, same]
    exact cut all' stop'
  subst fronts
  exact ⟨rfl, List.cons.inj (List.append_cancel_left same)⟩

theorem isDigit_of_mem_toString {n : Nat} {c : Char} (member : c ∈ (toString n).toList) :
    c.isDigit = true := by
  rw [Nat.toString_eq_repr, Nat.toList_repr] at member
  exact Nat.isDigit_of_mem_toDigits (by decide) (by decide) member

theorem toString_append_inj {m n : Nat} {rest rest' : List Char} {c c' : Char}
    (stop : c.isDigit = false) (stop' : c'.isDigit = false)
    (same : (toString m).toList ++ c :: rest = (toString n).toList ++ c' :: rest') :
    m = n ∧ c = c' ∧ rest = rest' := by
  have digits (k : Nat) : ∀ d ∈ (toString k).toList, d.isDigit = true :=
    fun _ member => isDigit_of_mem_toString member
  obtain ⟨number, rest⟩ := append_cons_inj (digits m) (digits n) stop stop' same
  simp only [Nat.toString_eq_repr, Nat.toList_repr] at number
  have read : Numeral.digitsOf m = Numeral.digitsOf n := by
    rw [Numeral.digitsOf, number, Numeral.digitsOf]
  exact ⟨by rw [← Numeral.ofDigits_digitsOf m, read, Numeral.ofDigits_digitsOf], rest⟩

theorem toList_loop (bytes : ByteArray) (left : Nat) :
    ∀ (i : Nat) (taken : List UInt8), bytes.size = i + left →
      ByteArray.toList.loop bytes i taken = taken.reverse ++ bytes.data.toList.drop i := by
  induction left with
  | zero =>
    intro i taken size
    have length : bytes.data.toList.length ≤ i := Nat.le_of_eq size
    rw [ByteArray.toList.loop, if_neg (by omega), List.drop_eq_nil_of_le length, List.append_nil]
  | succ left ih =>
    intro i taken size
    have inside : i < bytes.data.toList.length := by
      have : bytes.data.toList.length = bytes.size := rfl
      omega
    have byte : bytes.get! i = bytes.data.toList[i] := getElem!_pos bytes.data i inside
    rw [ByteArray.toList.loop, if_pos (by omega), ih (i + 1) _ (by omega), byte,
      List.drop_eq_getElem_cons inside, List.reverse_cons, List.append_assoc]
    rfl

theorem toList_eq_data (bytes : ByteArray) : bytes.toList = bytes.data.toList :=
  toList_loop bytes bytes.size 0 [] (by omega)

theorem toList_toUTF8 (s : String) : s.toUTF8.toList = s.toList.flatMap String.utf8EncodeChar := by
  have bytes : s.toUTF8 = (s.toList.flatMap String.utf8EncodeChar).toByteArray :=
    String.utf8Encode_toList.symm
  rw [bytes, toList_eq_data, List.data_toByteArray]

theorem toList_toUTF8_injective : Function.Injective fun s : String => s.toUTF8.toList := by
  intro s t same
  simp only [toList_eq_data] at same
  apply String.toByteArray_inj.1
  exact ByteArray.ext (Array.toList_inj.1 same)

theorem eq_nul_of_zero_mem {c : Char} (zero : 0 ∈ String.utf8EncodeChar c) : c = '\x00' := by
  have byte (n : Nat) (small : n < 256) : 0 = UInt8.ofNat n ↔ n = 0 := by
    rw [← UInt8.toNat_inj, UInt8.toNat_ofNat_of_lt' small]
    exact eq_comm
  have value : c.val.toNat = 0 := by
    revert zero
    fun_cases String.utf8EncodeChar c <;> intro zero <;>
      simp only [List.mem_cons, List.not_mem_nil, or_false] at zero
    case case1 small => rwa [byte _ (by omega)] at zero
    -- the bytes of a longer character have their highest bit set
    case case2 =>
      rw [byte _ (by omega), byte _ (by omega)] at zero
      omega
    case case3 =>
      rw [byte _ (by omega), byte _ (by omega), byte _ (by omega)] at zero
      omega
    case case4 =>
      rw [byte _ (by omega), byte _ (by omega), byte _ (by omega), byte _ (by omega)] at zero
      omega
  exact Char.ext (UInt32.toNat_inj.1 value)

theorem toUTF8_append_inj {s t : String} {rest rest' : List UInt8} (clean : '\x00' ∉ s.toList)
    (clean' : '\x00' ∉ t.toList)
    (same : s.toUTF8.toList ++ 0 :: rest = t.toUTF8.toList ++ 0 :: rest') :
    s = t ∧ rest = rest' := by
  have bytes {u : String} (clean : '\x00' ∉ u.toList) : ∀ b ∈ u.toUTF8.toList, (b != 0) = true := by
    rw [toList_toUTF8]
    intro b member
    obtain ⟨c, inside, byte⟩ := List.mem_flatMap.1 member
    rw [bne_iff_ne]
    rintro rfl
    exact clean (eq_nul_of_zero_mem byte ▸ inside)
  obtain ⟨text, -, rest⟩ := append_cons_inj (bytes clean) (bytes clean') rfl rfl same
  exact ⟨toList_toUTF8_injective text, rest⟩

end FlightBlocks.Text
