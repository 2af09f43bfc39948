import AttributeTables.Proofs.Text.Lines
import AttributeTables.Text.Digits
import AttributeTables.Text.Quoted
import Mathlib.Tactic.SplitIfs

/-!
# Quoted texts that are read back

What is written for a character inside quotes tells which character it was, and where the next one
starts. So a quoted text ends at the quote that its writer put there, whatever follows. It makes no
difference which characters are written as they are.
-/

namespace AttributeTables.Text

/-! ## Numbers in base sixteen -/

/-- The number with the given digits. -/
def ofHex (digits : List Char) : Nat := ofDigits 16 (digits.filterMap hexDigit?)

theorem hexDigit?_digitChar : ∀ n < 16, hexDigit? (Nat.digitChar n) = some n := by decide

theorem toDigits_hex_induction {motive : Nat → List Char → Prop}
    (digit : ∀ n < 16, motive n [Nat.digitChar n])
    (more : ∀ n d, d < 16 → motive n (Nat.toDigits 16 n) →
      motive (16 * n + d) (Nat.toDigits 16 n ++ [Nat.digitChar d]))
    (n : Nat) : motive n (Nat.toDigits 16 n) := by
  induction n using Nat.strongRecOn with
  | ind n ih =>
      rcases Nat.lt_or_ge n 16 with hlt | hge
      · rw [Nat.toDigits_of_lt_base hlt]
        exact digit n hlt
      · rw [Nat.toDigits_of_base_le (by decide) hge]
        have hmore := more (n / 16) (n % 16) (Nat.mod_lt n (by decide)) (ih (n / 16) (by omega))
        rwa [Nat.div_add_mod] at hmore

theorem ofHex_toDigits (n : Nat) : ofHex (Nat.toDigits 16 n) = n := by
  induction n using toDigits_hex_induction with
  | digit n hn => simp [ofHex, ofDigits, hexDigit?_digitChar n hn]
  | more n d hd ih =>
      rw [ofHex, ofDigits] at ih
      simp [ofHex, ofDigits, hexDigit?_digitChar d hd, ih]

theorem isSome_hexDigit?_of_mem_toDigits {n : Nat} {x : Char} (hx : x ∈ Nat.toDigits 16 n) :
    (hexDigit? x).isSome = true := by
  induction n using toDigits_hex_induction with
  | digit n hn =>
      rw [List.mem_singleton.mp hx, hexDigit?_digitChar n hn]
      rfl
  | more n d hd ih =>
      rcases List.mem_append.mp hx with hx | hx
      · exact ih hx
      · rw [List.mem_singleton.mp hx, hexDigit?_digitChar d hd]
        rfl

/-! ## Characters -/

/-- The character that an escape stands for, from after its backslash, and what follows the escape. -/
def unescape? : List Char → Option (Char × List Char)
  | '"' :: cs => some ('"', cs)
  | '\\' :: cs => some ('\\', cs)
  | 't' :: cs => some ('\t', cs)
  | 'r' :: cs => some ('\r', cs)
  | 'n' :: cs => some ('\n', cs)
  | '0' :: cs => some ('\x00', cs)
  | 'u' :: '\x7b' :: cs =>
    some (Char.ofNat (ofHex (cs.takeWhile (· != '\x7d'))), (cs.dropWhile (· != '\x7d')).drop 1)
  | _ => none

/-- The first character inside quotes, and what follows it; nothing is left before the last quote. -/
def unquote? : List Char → Option (Char × List Char)
  | [] => none
  | x :: cs =>
    if x = '"' then none
    else if x = '\\' then unescape? cs
    else some (x, cs)

theorem unescape?_numbered (c : Char) (rest : List Char) :
    unescape? ('u' :: '\x7b' :: ((hex c.toNat).toList ++ '\x7d' :: rest)) = some (c, rest) := by
  have hdigit : ∀ x ∈ Nat.toDigits 16 c.toNat, (x != '\x7d') = true := by
    intro x hx
    rw [bne_iff_ne]
    rintro rfl
    exact absurd (isSome_hexDigit?_of_mem_toDigits hx) (by decide)
  rw [unescape?, hex, String.toList_ofList, List.takeWhile_append_of_pos hdigit,
    List.dropWhile_append_of_pos hdigit, List.takeWhile_cons_of_neg (by decide),
    List.dropWhile_cons_of_neg (by decide), List.append_nil, ofHex_toDigits, Char.ofNat_toNat]
  rfl

theorem toList_toString (c : Char) : c.toString.toList = [c] := String.toList_singleton c

/-- What is written for a character is read as that character, and what follows is left. -/
theorem unquote?_quotedChar (c : Char) (rest : List Char) :
    unquote? ((quotedChar c).toList ++ rest) = some (c, rest) := by
  rw [quotedChar]
  split_ifs with hquote hbackslash htab hreturn hnewline hzero halone
  · cases beq_iff_eq.mp hquote
    rfl
  · cases beq_iff_eq.mp hbackslash
    rfl
  · cases beq_iff_eq.mp htab
    rfl
  · cases beq_iff_eq.mp hreturn
    rfl
  · cases beq_iff_eq.mp hnewline
    rfl
  · cases beq_iff_eq.mp hzero
    rfl
  · rw [toList_toString, List.singleton_append, unquote?, if_neg (mt beq_iff_eq.mpr hquote),
      if_neg (mt beq_iff_eq.mpr hbackslash)]
  · have htext : (numbered c).toList ++ rest =
        '\\' :: 'u' :: '\x7b' :: ((hex c.toNat).toList ++ '\x7d' :: rest) := by
      simp [numbered]
    rw [htext, unquote?, if_neg (by decide), if_pos rfl, unescape?_numbered]

theorem isLine_quotedChar (c : Char) : IsLine (quotedChar c) := by
  rw [quotedChar]
  split_ifs with hquote hbackslash htab hreturn hnewline hzero halone
  · decide
  · decide
  · decide
  · decide
  · decide
  · decide
  · intro x hx
    rw [toList_toString] at hx
    rw [List.mem_singleton.mp hx]
    exact ⟨mt beq_iff_eq.mpr hnewline, mt beq_iff_eq.mpr hreturn⟩
  · simp only [numbered, isLine_append]
    refine ⟨⟨by decide, fun x hx => ?_⟩, by decide⟩
    rw [hex, String.toList_ofList] at hx
    have hsome := isSome_hexDigit?_of_mem_toDigits hx
    constructor <;> rintro rfl <;> exact absurd hsome (by decide)

/-! ## Texts -/

theorem toList_quoted (s : String) : (quoted s).toList =
    '"' :: (s.toList.flatMap fun c => (quotedChar c).toList) ++ ['"'] := by
  simp [quoted, String.toList_join, List.flatMap_map]

theorem isLine_quoted (s : String) : IsLine (quoted s) := by
  intro x hx
  rw [toList_quoted] at hx
  rcases List.mem_append.mp hx with hx | hx
  · rcases List.mem_cons.mp hx with rfl | hx
    · decide
    · obtain ⟨c, -, hx⟩ := List.mem_flatMap.mp hx
      exact isLine_quotedChar c x hx
  · rw [List.mem_singleton.mp hx]
    decide

theorem quotedChars_append_inj {cs ds x y : List Char}
    (h : (cs.flatMap fun c => (quotedChar c).toList) ++ '"' :: x =
      (ds.flatMap fun c => (quotedChar c).toList) ++ '"' :: y) : cs = ds ∧ x = y := by
  have hread : ∀ (c : Char) (cs rest : List Char),
      unquote? (((c :: cs).flatMap fun c => (quotedChar c).toList) ++ rest) =
        some (c, (cs.flatMap fun c => (quotedChar c).toList) ++ rest) := by
    intro c cs rest
    rw [List.flatMap_cons, List.append_assoc, unquote?_quotedChar]
  -- A quote of the text is escaped, so the first bare one ends both texts.
  induction cs generalizing ds with
  | nil =>
      cases ds with
      | nil => exact ⟨rfl, List.tail_eq_of_cons_eq h⟩
      | cons d ds =>
          have hnone := congrArg unquote? h
          rw [hread] at hnone
          cases hnone
  | cons c cs ih =>
      cases ds with
      | nil =>
          have hnone := congrArg unquote? h
          rw [hread] at hnone
          cases hnone
      | cons d ds =>
          have hsome := congrArg unquote? h
          rw [hread, hread] at hsome
          obtain ⟨rfl, hrest⟩ := Prod.mk.inj (Option.some.inj hsome)
          obtain ⟨rfl, hxy⟩ := ih hrest
          exact ⟨rfl, hxy⟩

/-- Of two texts that start with a quoted text each, both the quoted texts and what follows them can be
compared. -/
theorem quoted_append_inj {s t : String} {x y : List Char}
    (h : (quoted s).toList ++ x = (quoted t).toList ++ y) : s = t ∧ x = y := by
  rw [toList_quoted, toList_quoted, List.cons_append, List.cons_append, List.append_assoc,
    List.append_assoc] at h
  obtain ⟨hst, hxy⟩ := quotedChars_append_inj (List.tail_eq_of_cons_eq h)
  exact ⟨String.toList_inj.mp hst, hxy⟩

end AttributeTables.Text
