import AttributeTables.Text.CLiteral
import AttributeTables.Text.Digits
import Mathlib.Tactic.SplitIfs

/-!
# String literals that are read back

A reader for the inside of a string literal, which goes on up to the quote that ends the literal. It
gives back what was written, whatever follows: an escape by number always fills its three digits, so
the reader takes no digit of what comes after it.
-/

namespace AttributeTables.Text

/-! ## The reader -/

/-- The octal digits at the front, three at most. -/
def octalDigits (cs : List Char) : List Nat :=
  ((cs.take 3).takeWhile fun x => (octalDigit? x).isSome).filterMap octalDigit?

/-- The character with the number at the front, and what follows the number. Only the numbers of ASCII
are characters; a larger one is a byte, which is no character by itself. -/
def numberEscape? (cs : List Char) : Option (Char × List Char) :=
  if octalDigits cs ≠ [] ∧ ofDigits 8 (octalDigits cs) < 128 then
    some (Char.ofNat (ofDigits 8 (octalDigits cs)), cs.drop (octalDigits cs).length)
  else none

/-- The character that an escape stands for, from after its backslash, and what follows it. -/
def escape? : List Char → Option (Char × List Char)
  | '"' :: cs => some ('"', cs)
  | '\\' :: cs => some ('\\', cs)
  | 'n' :: cs => some ('\n', cs)
  | 't' :: cs => some ('\t', cs)
  | cs => numberEscape? cs

theorem length_of_numberEscape? {cs rest : List Char} {x : Char}
    (h : numberEscape? cs = some (x, rest)) : rest.length < cs.length := by
  rw [numberEscape?] at h
  split_ifs at h with hdigits
  cases h
  have hdigits_pos := List.length_pos_iff.mpr hdigits.1
  have hne : cs ≠ [] := by
    rintro rfl
    exact hdigits.1 rfl
  have hpos := List.length_pos_iff.mpr hne
  rw [List.length_drop]
  omega

theorem length_of_escape? {cs rest : List Char} {x : Char} (h : escape? cs = some (x, rest)) :
    rest.length < cs.length := by
  rw [escape?.eq_def] at h
  split at h
  case h_5 => exact length_of_numberEscape? h
  all_goals
    cases h
    exact Nat.lt_succ_self _

/-- Reads a literal from after its opening quote: the characters that it denotes, and what follows its
closing quote. -/
def readLiteral : List Char → Option (List Char × List Char)
  | [] => none
  | x :: cs =>
    if x = '"' then some ([], cs)
    else if x = '\\' then
      match _h : escape? cs with
      | some (y, rest) => (readLiteral rest).map fun (ys, rest) => (y :: ys, rest)
      | none => none
    else if x = '\n' then none
    else (readLiteral cs).map fun (ys, rest) => (x :: ys, rest)
termination_by cs => cs.length
decreasing_by
  · have := length_of_escape? _h
    simp only [List.length_cons]
    omega
  · simp

theorem readLiteral_escape {cs rest : List Char} {x : Char} (h : escape? cs = some (x, rest)) :
    readLiteral ('\\' :: cs) = (readLiteral rest).map fun (xs, rest) => (x :: xs, rest) := by
  rw [readLiteral, if_neg (by decide), if_pos rfl]
  split
  · rename_i h'
    cases h.symm.trans h'
    rfl
  · rename_i h'
    cases h.symm.trans h'

/-! ## Characters and texts -/

theorem octalDigit?_digitChar : ∀ n < 8, octalDigit? (Nat.digitChar n) = some n := by decide

theorem numberEscape?_octal3 {n : Nat} (hn : n < 128) (rest : List Char) :
    numberEscape? (octal3 n ++ rest) = some (Char.ofNat n, rest) := by
  have hdigits : octalDigits (octal3 n ++ rest) = [n / 64 % 8, n / 8 % 8, n % 8] := by
    have h : ∀ m, octalDigit? (Nat.digitChar (m % 8)) = some (m % 8) :=
      fun m => octalDigit?_digitChar _ (Nat.mod_lt m (by decide))
    simp [octalDigits, octal3, h]
  have hvalue : ofDigits 8 [n / 64 % 8, n / 8 % 8, n % 8] = n := by
    simp only [ofDigits, List.foldl_cons, List.foldl_nil]
    omega
  rw [numberEscape?, hdigits, hvalue, if_pos ⟨by simp, hn⟩]
  rfl

theorem escape?_octal3 {n : Nat} (hn : n < 128) (rest : List Char) :
    escape? (octal3 n ++ rest) = some (Char.ofNat n, rest) := by
  have hfirst : ∀ m < 8, Nat.digitChar m ∉ ['"', '\\', 'n', 't'] := by decide
  have hnot := hfirst (n / 64 % 8) (Nat.mod_lt _ (by decide))
  rw [← numberEscape?_octal3 hn rest, escape?.eq_def]
  split
  case h_5 => rfl
  all_goals simp_all [octal3]

/-- What is written for a character is read as that character, and what follows is left. -/
theorem readLiteral_literalChar (x : Char) (rest : List Char) :
    readLiteral (literalChar x ++ rest) =
      (readLiteral rest).map fun (xs, rest) => (x :: xs, rest) := by
  rw [literalChar]
  split_ifs with hquote hbackslash hnewline htab hcontrol
  · cases beq_iff_eq.mp hquote
    exact readLiteral_escape rfl
  · cases beq_iff_eq.mp hbackslash
    exact readLiteral_escape rfl
  · cases beq_iff_eq.mp hnewline
    exact readLiteral_escape rfl
  · cases beq_iff_eq.mp htab
    exact readLiteral_escape rfl
  · have hlt : x.toNat < 128 := by
      simp only [isAsciiControl, Bool.or_eq_true, decide_eq_true_eq, beq_iff_eq] at hcontrol
      omega
    have hescape := escape?_octal3 hlt rest
    rw [Char.ofNat_toNat] at hescape
    exact readLiteral_escape hescape
  · rw [List.singleton_append, readLiteral]
    simp_all

theorem readLiteral_literalChars (cs rest : List Char) :
    readLiteral (literalChars cs ++ '"' :: rest) = some (cs, rest) := by
  induction cs with
  | nil => simp [literalChars, readLiteral]
  | cons x cs ih =>
      rw [literalChars, List.flatMap_cons, List.append_assoc, readLiteral_literalChar,
        ← literalChars, ih]
      rfl

theorem readLiteral_literal (s : String) (rest : List Char) :
    readLiteral ((literal s).toList ++ '"' :: rest) = some (s.toList, rest) := by
  rw [literal, String.toList_ofList, readLiteral_literalChars]

/-! ## No control characters -/

theorem isAsciiControl_eq_false_iff {x : Char} :
    isAsciiControl x = false ↔ 32 ≤ x.toNat ∧ x.toNat ≠ 127 := by
  simp [isAsciiControl]

theorem isAsciiControl_of_mem_octal3 {n : Nat} {x : Char} (h : x ∈ octal3 n) :
    isAsciiControl x = false := by
  have hdigit : ∀ m < 8, isAsciiControl (Nat.digitChar m) = false := by decide
  simp only [octal3, List.mem_cons, List.not_mem_nil, or_false] at h
  rcases h with rfl | rfl | rfl <;> exact hdigit _ (Nat.mod_lt _ (by decide))

theorem isAsciiControl_of_mem_literalChar {x y : Char} (h : x ∈ literalChar y) :
    isAsciiControl x = false := by
  rw [literalChar] at h
  split_ifs at h with hquote hbackslash hnewline htab hcontrol
  all_goals simp only [List.mem_cons, List.not_mem_nil, or_false] at h
  · rcases h with rfl | rfl <;> rfl
  · rcases h with rfl | rfl <;> rfl
  · rcases h with rfl | rfl <;> rfl
  · rcases h with rfl | rfl <;> rfl
  · rcases h with rfl | h
    · rfl
    · exact isAsciiControl_of_mem_octal3 h
  · cases h
    exact Bool.eq_false_iff.mpr hcontrol

theorem isAsciiControl_of_mem_literal {s : String} {x : Char} (h : x ∈ (literal s).toList) :
    isAsciiControl x = false := by
  rw [literal, String.toList_ofList, literalChars] at h
  obtain ⟨y, -, h⟩ := List.mem_flatMap.mp h
  exact isAsciiControl_of_mem_literalChar h

theorem newline_not_mem_literal (s : String) : '\n' ∉ (literal s).toList :=
  fun h => absurd (isAsciiControl_of_mem_literal h) (by decide)

end AttributeTables.Text
