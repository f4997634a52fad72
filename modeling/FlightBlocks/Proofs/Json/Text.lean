import FlightBlocks.Json.Printer
import FlightBlocks.Json.Token
/-!
Texts written and read again. A control character that has no letter of its own is written by its
code and read back as that code; every other mark is read back as it is.
-/

namespace FlightBlocks

theorem Text.hexValue?_hexDigit : ∀ d, d < 16 → hexValue? (hexDigit d) = some d := by decide

namespace JsonMark

def lettered : List Char := ['\x08', '\t', '\n', '\x0c', '\r']

def reread : JsonMark → JsonMark
  | .char c => if c.toNat < 32 ∧ c ∉ lettered then .code c.toNat else .char c
  | .code u => .code u

def WellFormed : JsonMark → Prop
  | .char _ => True
  | .code u => u < 65536

section Scan

open JsonToken

variable {read : List JsonMark} {found : List JsonToken} {rest : List Char}

theorem scan_hexDigit {d code left : Nat} (small : d < 16) :
    scan (.hex read code left) found (Text.hexDigit d :: rest) =
      scan (if left ≤ 1 then .text (.code (code * 16 + d) :: read)
        else .hex read (code * 16 + d) (left - 1)) found rest := by
  simp [scan, step, Text.hexValue?_hexDigit d small]

theorem scan_code {u a b c d : Nat} (spelled : ((a * 16 + b) * 16 + c) * 16 + d = u)
    (ha : a < 16) (hb : b < 16) (hc : c < 16) (hd : d < 16) :
    scan (.text read) found (['\\', 'u', Text.hexDigit a, Text.hexDigit b, Text.hexDigit c,
        Text.hexDigit d] ++ rest) = scan (.text (.code u :: read)) found rest := by
  have opened (cs : List Char) : scan (.text read) found (['\\', 'u'] ++ cs) =
      scan (.hex read 0 4) found cs := rfl
  refine (opened (Text.hexDigit a :: Text.hexDigit b :: Text.hexDigit c :: Text.hexDigit d ::
    rest)).trans ?_
  rw [scan_hexDigit ha, if_neg (by decide), scan_hexDigit hb, if_neg (by decide),
    scan_hexDigit hc, if_neg (by decide), scan_hexDigit hd, if_pos (by decide), Nat.zero_mul,
    Nat.zero_add, spelled]

theorem scan_write {m : JsonMark} (formed : m.WellFormed) :
    scan (.text read) found (m.write ++ rest) = scan (.text (m.reread :: read)) found rest := by
  cases m with
  | code u =>
    have bounded : u < 65536 := formed
    have spelled : ((u / 4096 % 16 * 16 + u / 256 % 16) * 16 + u / 16 % 16) * 16 + u % 16 = u := by
      omega
    have mod (n : Nat) : n % 16 < 16 := Nat.mod_lt n (by decide)
    rw [write]
    exact scan_code spelled (mod _) (mod _) (mod _) (mod _)
  | char c =>
    simp only [write]
    -- Each of the seven escapes of one letter evaluates by itself.
    iterate 7
      split
      next same => subst same; rfl
    next notQuote notBackslash notB notT notN notF notR =>
      have unlettered : c ∉ lettered := by simp [lettered, *]
      split
      next control =>
        have spelled : ((0 * 16 + 0) * 16 + c.toNat / 16) * 16 + c.toNat % 16 = c.toNat := by omega
        have high : c.toNat / 16 < 16 := by omega
        have low : c.toNat % 16 < 16 := Nat.mod_lt _ (by decide)
        rw [reread, if_pos ⟨control, unlettered⟩]
        exact scan_code spelled (by decide) (by decide) high low
      next plain =>
        rw [reread, if_neg fun both => plain both.1, List.singleton_append, scan, step,
          if_neg notQuote, if_neg notBackslash, if_neg plain]

theorem scan_flatMap_write {marks : List JsonMark} (formed : ∀ m ∈ marks, m.WellFormed) :
    scan (.text read) found (marks.flatMap write ++ rest) =
      scan (.text ((marks.map reread).reverse ++ read)) found rest := by
  induction marks generalizing read with
  | nil => rfl
  | cons m marks ih =>
    obtain ⟨first, others⟩ := List.forall_mem_cons.1 formed
    rw [List.flatMap_cons, List.append_assoc, scan_write first, ih others, List.map_cons,
      List.reverse_cons, List.append_assoc, List.singleton_append]

theorem scan_quote {marks : List JsonMark} (formed : ∀ m ∈ marks, m.WellFormed) :
    scan .between found (quote marks ++ rest) =
      scan .between (.text (marks.map reread) :: found) rest := by
  have opened : scan .between found (quote marks ++ rest) =
      scan (.text []) found (marks.flatMap write ++ ('"' :: rest)) := by
    rw [quote, List.append_assoc]
    rfl
  have closed (read : List JsonMark) : scan (.text read) found ('"' :: rest) =
      scan .between (.text read.reverse :: found) rest := rfl
  rw [opened, scan_flatMap_write formed, List.append_nil, closed, List.reverse_reverse]

end Scan

theorem string?_reread (s : String) : string? ((ofString s).map reread) = some s := by
  have chars (cs : List Char) : chars? ((cs.map char).map reread) = some cs := by
    induction cs with
    | nil => rfl
    | cons c cs ih =>
      rw [List.map_cons, List.map_cons, reread]
      split
      next control =>
        have low : ¬ (0xD800 ≤ c.toNat ∧ c.toNat < 0xDC00) := by omega
        have low' : ¬ (0xDC00 ≤ c.toNat ∧ c.toNat < 0xE000) := by omega
        rw [chars?.eq_def]
        simp only [low, low', if_false, ih, Option.map_some, Char.ofNat_toNat]
      next => rw [chars?, ih, Option.map_some]
  rw [string?, ofString, chars, Option.map_some, String.ofList_toList]

theorem wellFormed_ofString (s : String) : ∀ m ∈ ofString s, m.WellFormed := by
  intro m member
  obtain ⟨c, -, rfl⟩ := List.mem_map.1 member
  exact trivial

end JsonMark

end FlightBlocks
