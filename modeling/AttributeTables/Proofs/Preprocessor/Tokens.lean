import Mathlib.Tactic.SplitIfs

/-!
# Literals and comments of C

Before macros are looked for, a text is cut into tokens. A string or character literal is one token,
whatever it holds, and a comment counts as a blank. A text comes through this as it stands exactly if
each literal in it is closed and no comment starts outside of a literal.
-/

namespace AttributeTables.Preprocessor

variable {cs rest tail : List Char} {quote x : Char}

/-! ## Literals -/

/-- A literal starts with the character. -/
def isQuote (x : Char) : Bool := x == '"' || x == '\''

/-- What follows the opening quote of a literal, up to the quote that closes it. A backslash takes the
next character with it. -/
inductive LiteralTail (quote : Char) : List Char → Prop where
  | close : LiteralTail quote [quote]
  | escape (x : Char) {tail : List Char} (h : LiteralTail quote tail) :
      LiteralTail quote ('\\' :: x :: tail)
  | char {x : Char} {tail : List Char} (hquote : x ≠ quote) (hescape : x ≠ '\\')
      (h : LiteralTail quote tail) : LiteralTail quote (x :: tail)

/-- The tail of the literal at the front, and what follows it. -/
def closeLiteral? (quote : Char) : List Char → Option (List Char × List Char)
  | [] => none
  | '\\' :: x :: cs => (closeLiteral? quote cs).map fun (tail, rest) => ('\\' :: x :: tail, rest)
  | x :: cs =>
    if x = quote then some ([x], cs)
    else (closeLiteral? quote cs).map fun (tail, rest) => (x :: tail, rest)

theorem closeLiteral?_append (hquote : quote ≠ '\\') (h : LiteralTail quote tail)
    (rest : List Char) : closeLiteral? quote (tail ++ rest) = some (tail, rest) := by
  induction h with
  | close =>
      rw [List.singleton_append, closeLiteral?.eq_3 _ _ _ fun y cs hx _ => hquote hx, if_pos rfl]
  | escape x h ih =>
      rw [List.cons_append, List.cons_append, closeLiteral?, ih]
      rfl
  | @char x tail hne hescape h ih =>
      rw [List.cons_append, closeLiteral?.eq_3 _ _ _ fun y cs hx _ => hescape hx, if_neg hne, ih]
      rfl

theorem closeLiteral?_eq_some (h : closeLiteral? quote cs = some (tail, rest)) :
    LiteralTail quote tail ∧ cs = tail ++ rest := by
  fun_induction closeLiteral? quote cs generalizing tail with
  | case1 => cases h
  | case2 x cs ih =>
      obtain ⟨⟨tail', rest'⟩, hclose, heq⟩ := Option.map_eq_some_iff.mp h
      cases heq
      obtain ⟨htail, rfl⟩ := ih hclose
      exact ⟨.escape x htail, rfl⟩
  | case3 cs hlast =>
      cases h
      exact ⟨.close, rfl⟩
  | case4 x cs hlast hne ih =>
      obtain ⟨⟨tail', rest'⟩, hclose, heq⟩ := Option.map_eq_some_iff.mp h
      cases heq
      obtain ⟨htail, rfl⟩ := ih hclose
      refine ⟨.char hne ?_ htail, rfl⟩
      rintro rfl
      -- A backslash that takes nothing with it stands at the end, where no literal is closed.
      cases htail <;> exact hlast _ _ rfl rfl

/-! ## Comments -/

/-- What follows the end of a comment. -/
def closeComment? : List Char → Option (List Char)
  | [] => none
  | '*' :: '/' :: cs => some cs
  | _ :: cs => closeComment? cs

theorem length_of_closeComment? (h : closeComment? cs = some rest) : rest.length < cs.length := by
  fun_induction closeComment? cs with
  | case1 => cases h
  | case2 cs =>
      cases h
      exact Nat.lt_succ_of_lt (Nat.lt_succ_self _)
  | case3 x cs _ ih => exact Nat.lt_succ_of_lt (ih h)

/-! ## Tokens -/

/-- What is read at once: a literal with its quotes, or a character outside of literals. -/
inductive Token where
  | char (x : Char)
  | literal (text : List Char)
  deriving DecidableEq

/-- The characters of the token. -/
def Token.spelling : Token → List Char
  | .char x => [x]
  | .literal text => text

/-- The characters of the tokens one after the other. -/
def spelling (ts : List Token) : List Char := ts.flatMap Token.spelling

@[simp] theorem spelling_nil : spelling [] = [] := rfl

@[simp] theorem spelling_cons (t : Token) (ts : List Token) :
    spelling (t :: ts) = t.spelling ++ spelling ts := List.flatMap_cons

/-- The tokens of a text on one line. A literal or a comment that is not closed has no reading. -/
def tokens? : List Char → Option (List Token)
  | [] => some []
  | '/' :: '/' :: _ => some [.char ' ']
  | '/' :: '*' :: cs =>
    match _h : closeComment? cs with
    | some rest => (tokens? rest).map (.char ' ' :: ·)
    | none => none
  | x :: cs =>
    if isQuote x then
      match _h : closeLiteral? x cs with
      | some (tail, rest) => (tokens? rest).map (.literal (x :: tail) :: ·)
      | none => none
    else (tokens? cs).map (.char x :: ·)
termination_by cs => cs.length
decreasing_by
  · have := length_of_closeComment? _h
    simp only [List.length_cons]
    omega
  · obtain ⟨-, rfl⟩ := closeLiteral?_eq_some _h
    simp only [List.length_cons, List.length_append]
    omega
  · exact Nat.lt_succ_self _

/-- No comment starts with the character before the text. -/
def OpensNoComment (x : Char) (cs : List Char) : Prop :=
  x = '/' → cs.head? ≠ some '/' ∧ cs.head? ≠ some '*'

/-- Complete literals and other characters, with no comment among them. -/
inductive IsPlain : List Char → Prop where
  | nil : IsPlain []
  | char {x : Char} {cs : List Char} (hquote : isQuote x = false) (hopens : OpensNoComment x cs)
      (h : IsPlain cs) : IsPlain (x :: cs)
  | literal {quote : Char} {tail cs : List Char} (hquote : isQuote quote = true)
      (htail : LiteralTail quote tail) (h : IsPlain cs) : IsPlain (quote :: (tail ++ cs))

theorem opensNoComment_of_ne (h : x ≠ '/') (cs : List Char) : OpensNoComment x cs :=
  fun hx => absurd hx h

theorem isPlain_cons_iff (hquote : isQuote x = false) :
    IsPlain (x :: cs) ↔ OpensNoComment x cs ∧ IsPlain cs := by
  constructor
  · intro h
    cases h with
    | char _ hopens h => exact ⟨hopens, h⟩
    | literal hquote' => cases hquote.symm.trans hquote'
  · exact fun h => .char hquote h.1 h.2

theorem LiteralTail.eq_concat (h : LiteralTail quote tail) : ∃ body, tail = body ++ [quote] := by
  induction h with
  | close => exact ⟨[], rfl⟩
  | escape x h ih =>
      obtain ⟨body, rfl⟩ := ih
      exact ⟨'\\' :: x :: body, rfl⟩
  | @char x tail hquote hescape h ih =>
      obtain ⟨body, rfl⟩ := ih
      exact ⟨x :: body, rfl⟩

/-- A character that closes no literal can be taken away from the end. -/
theorem IsPlain.of_concat (hx : isQuote x = false) (h : IsPlain (cs ++ [x])) : IsPlain cs := by
  generalize hconcat : cs ++ [x] = ds at h
  induction h generalizing cs with
  | nil => simp at hconcat
  | @char y ds hquote hopens h ih =>
      cases cs with
      | nil => exact .nil
      | cons z cs =>
          obtain ⟨rfl, rfl⟩ := List.cons.inj hconcat
          refine .char hquote (fun hz => ?_) (ih rfl)
          cases cs with
          | nil => exact ⟨nofun, nofun⟩
          | cons _ _ => exact hopens hz
  | @literal quote tail ds hquote htail h ih =>
      obtain ⟨body, rfl⟩ := htail.eq_concat
      rcases List.eq_nil_or_concat ds with rfl | ⟨ds, y, rfl⟩
      · have hend : cs ++ [x] = (quote :: body) ++ [quote] := by simpa using hconcat
        obtain ⟨-, hlast⟩ := List.append_inj' hend rfl
        cases hlast
        cases hx.symm.trans hquote
      · have hend : cs ++ [x] = (quote :: (body ++ [quote] ++ ds)) ++ [y] := by
          simpa using hconcat
        obtain ⟨rfl, hlast⟩ := List.append_inj' hend rfl
        cases hlast
        exact .literal hquote htail (ih List.concat_eq_append.symm)

theorem tokens?_char (hquote : isQuote x = false) (hopens : OpensNoComment x cs) :
    tokens? (x :: cs) = (tokens? cs).map (.char x :: ·) := by
  rw [tokens?.eq_4, if_neg (by simp [hquote])]
  · rintro cs' rfl rfl
    exact (hopens rfl).1 rfl
  · rintro cs' rfl rfl
    exact (hopens rfl).2 rfl

theorem tokens?_literal (hquote : isQuote quote = true) (htail : LiteralTail quote tail)
    (cs : List Char) :
    tokens? (quote :: (tail ++ cs)) = (tokens? cs).map (.literal (quote :: tail) :: ·) := by
  have hslash : quote ≠ '/' := by
    rintro rfl
    cases hquote
  have hbackslash : quote ≠ '\\' := by
    rintro rfl
    cases hquote
  rw [tokens?.eq_4 _ _ (fun _ h => absurd h hslash) fun _ h => absurd h hslash, if_pos hquote]
  split
  · rename_i tail' rest hclose
    cases (closeLiteral?_append hbackslash htail cs).symm.trans hclose
    rfl
  · rename_i hclose
    cases (closeLiteral?_append hbackslash htail cs).symm.trans hclose

/-- The tokens of a plain text before any other text that does not make a comment out of its end. -/
theorem IsPlain.tokens?_append (h : IsPlain cs) (rest : List Char)
    (hrest : OpensNoComment '/' rest) :
    ∃ ts, spelling ts = cs ∧ tokens? (cs ++ rest) = (tokens? rest).map (ts ++ ·) := by
  induction h with
  | nil =>
      refine ⟨[], rfl, ?_⟩
      simp
  | @char x cs hquote hopens h ih =>
      obtain ⟨ts, hspelling, hts⟩ := ih
      have hopens' : OpensNoComment x (cs ++ rest) := by
        cases cs with
        | nil => exact fun _ => hrest rfl
        | cons y cs => exact hopens
      refine ⟨.char x :: ts, by simp [Token.spelling, hspelling], ?_⟩
      rw [List.cons_append, tokens?_char hquote hopens', hts, Option.map_map]
      rfl
  | @literal quote tail cs hquote htail h ih =>
      obtain ⟨ts, hspelling, hts⟩ := ih
      refine ⟨.literal (quote :: tail) :: ts, by simp [Token.spelling, hspelling], ?_⟩
      rw [List.cons_append, List.append_assoc, tokens?_literal hquote htail, hts, Option.map_map]
      rfl

/-- Tokens are spelled as the text is, which is plain then, or shorter where there was a comment. -/
theorem isPlain_or_length_lt {ts : List Token} (h : tokens? cs = some ts) :
    IsPlain cs ∧ spelling ts = cs ∨ (spelling ts).length < cs.length := by
  fun_induction tokens? cs generalizing ts with
  | case1 =>
      cases h
      exact .inl ⟨.nil, rfl⟩
  | case2 cs =>
      cases h
      exact .inr (by simp [Token.spelling])
  | case3 cs rest hclose ih =>
      obtain ⟨us, hus, rfl⟩ := Option.map_eq_some_iff.mp h
      have hlength := length_of_closeComment? hclose
      have hle : (spelling us).length ≤ rest.length := by
        rcases ih hus with ⟨-, heq⟩ | hlt
        · exact Nat.le_of_eq (congrArg List.length heq)
        · exact Nat.le_of_lt hlt
      refine .inr ?_
      simp only [spelling_cons, Token.spelling, List.length_append, List.length_cons, List.length_nil]
      omega
  | case4 cs hclose => cases h
  | case5 x cs hline hblock hquote tail rest hclose ih =>
      obtain ⟨us, hus, rfl⟩ := Option.map_eq_some_iff.mp h
      obtain ⟨htail, rfl⟩ := closeLiteral?_eq_some hclose
      rcases ih hus with ⟨hplain, heq⟩ | hlt
      · exact .inl ⟨.literal hquote htail hplain, by simp [Token.spelling, heq]⟩
      · refine .inr ?_
        simp only [spelling_cons, Token.spelling, List.length_append, List.length_cons]
        omega
  | case6 x cs hline hblock hquote hclose => cases h
  | case7 x cs hline hblock hquote ih =>
      obtain ⟨us, hus, rfl⟩ := Option.map_eq_some_iff.mp h
      have hopens : OpensNoComment x cs := by
        rintro rfl
        constructor <;> intro hhead <;> obtain ⟨cs', rfl⟩ := List.head?_eq_some_iff.mp hhead
        · exact hline cs' rfl rfl
        · exact hblock cs' rfl rfl
      rcases ih hus with ⟨hplain, heq⟩ | hlt
      · exact .inl ⟨.char (by simpa using hquote) hopens hplain, by simp [Token.spelling, heq]⟩
      · exact .inr (Nat.succ_lt_succ hlt)

/-- A text is plain exactly if it comes through as it stands. -/
theorem isPlain_iff : IsPlain cs ↔ (tokens? cs).map spelling = some cs := by
  constructor
  · intro h
    obtain ⟨ts, hspelling, hts⟩ := h.tokens?_append [] fun _ => ⟨nofun, nofun⟩
    rw [List.append_nil, tokens?, Option.map_some, List.append_nil] at hts
    rw [hts, Option.map_some, hspelling]
  · intro h
    obtain ⟨ts, hts, hspelling⟩ := Option.map_eq_some_iff.mp h
    rcases isPlain_or_length_lt hts with ⟨hplain, -⟩ | hlt
    · exact hplain
    · rw [hspelling] at hlt
      exact absurd hlt (Nat.lt_irrefl _)

instance : DecidablePred IsPlain := fun _ => decidable_of_iff _ isPlain_iff.symm

end AttributeTables.Preprocessor
