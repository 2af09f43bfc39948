import AttributeTables.Proofs.Preprocessor.Tokens
import Mathlib.Data.List.Infix

/-!
# Block comments

A line that ends in a backslash is spliced with the next one before comments are looked for, so a
comment may also be closed by a star and a slash with such a line end between them.
-/

namespace AttributeTables.Preprocessor

variable {cs ds rest body : List Char} {x : Char}

/-- Two characters that do not follow each other in a text do not do so either when it goes on, but
for the seam. -/
theorem not_adjacent_append {a b : Char} (hcs : ∀ tail, x = a → cs = b :: tail → False)
    (hseam : cs = [] → ∀ tail, ds ≠ b :: tail) : ∀ tail, x = a → cs ++ ds = b :: tail → False := by
  intro tail hx htail
  cases cs with
  | nil => exact hseam rfl tail htail
  | cons y cs =>
      obtain ⟨rfl, -⟩ := List.cons.inj htail
      exact hcs cs hx rfl

/-! ## Splicing -/

/-- Each backslash is taken out with the newline right after it. -/
def splice : List Char → List Char
  | [] => []
  | '\\' :: '\n' :: cs => splice cs
  | x :: cs => x :: splice cs

theorem splice_cons (hx : x ≠ '\\') (cs : List Char) : splice (x :: cs) = x :: splice cs :=
  splice.eq_3 x cs fun _ h _ => hx h

/-- Nothing is spliced across a character that is neither a backslash nor a newline. -/
theorem splice_append_cons (hbackslash : x ≠ '\\') (hnewline : x ≠ '\n') (cs ds : List Char) :
    splice (cs ++ x :: ds) = splice cs ++ x :: splice ds := by
  fun_induction splice cs with
  | case1 => exact splice_cons hbackslash ds
  | case2 cs ih => exact ih
  | case3 y cs hne ih =>
      have hseam : ∀ tail, y = '\\' → cs ++ x :: ds = '\n' :: tail → False :=
        not_adjacent_append hne fun _ _ htail => hnewline (List.cons.inj htail).1
      rw [List.cons_append, splice.eq_3 _ _ hseam, ih, List.cons_append]

/-! ## Where a comment ends -/

theorem closeComment?_cons (hx : x ≠ '*') (cs : List Char) :
    closeComment? (x :: cs) = closeComment? cs :=
  closeComment?.eq_3 x cs fun _ h _ => hx h

theorem closeComment?_eq_some (h : closeComment? cs = some rest) :
    ∃ body, cs = body ++ '*' :: '/' :: rest := by
  fun_induction closeComment? cs with
  | case1 => cases h
  | case2 cs =>
      cases h
      exact ⟨[], rfl⟩
  | case3 x cs _ ih =>
      obtain ⟨body, rfl⟩ := ih h
      exact ⟨x :: body, rfl⟩

/-- Wherever a closer stands, the comment ends there at the latest. -/
theorem exists_closeComment? (body rest : List Char) :
    ∃ before, closeComment? (body ++ '*' :: '/' :: rest) = some (before ++ rest) := by
  fun_induction closeComment? body with
  | case1 => exact ⟨[], rfl⟩
  | case2 body => exact ⟨body ++ ['*', '/'], by simp [closeComment?]⟩
  | case3 x body hne ih =>
      rw [List.cons_append, closeComment?.eq_3 _ _ (not_adjacent_append hne (by simp))]
      exact ih

theorem closeComment?_eq_none_iff : closeComment? cs = none ↔ ¬ ['*', '/'] <:+: cs := by
  constructor
  · rintro h ⟨body, rest, rfl⟩
    obtain ⟨before, hbefore⟩ := exists_closeComment? body rest
    rw [List.append_assoc] at h
    cases h.symm.trans hbefore
  · intro h
    cases hclose : closeComment? cs with
    | none => rfl
    | some rest =>
        obtain ⟨body, hbody⟩ := closeComment?_eq_some hclose
        exact absurd ⟨body, rest, by rw [hbody, List.append_assoc]; rfl⟩ h

theorem closeComment?_append (h : closeComment? cs = some rest) (ds : List Char) :
    closeComment? (cs ++ ds) = some (rest ++ ds) := by
  fun_induction closeComment? cs with
  | case1 => cases h
  | case2 cs =>
      cases h
      rfl
  | case3 x cs hne ih =>
      have hseam : cs = [] → ∀ tail, ds ≠ '/' :: tail := by
        rintro rfl
        cases h
      rw [List.cons_append, closeComment?.eq_3 _ _ (not_adjacent_append hne hseam), ih h]

/-- A comment that is still open is not closed by a character other than a slash. -/
theorem closeComment?_append_cons (h : closeComment? cs = none) (hx : x ≠ '/') (ds : List Char) :
    closeComment? (cs ++ x :: ds) = closeComment? (x :: ds) := by
  fun_induction closeComment? cs with
  | case1 => rfl
  | case2 cs => cases h
  | case3 y cs hne ih =>
      have hseam : cs = [] → ∀ tail, x :: ds ≠ '/' :: tail :=
        fun _ _ htail => hx (List.cons.inj htail).1
      rw [List.cons_append, closeComment?.eq_3 _ _ (not_adjacent_append hne hseam), ih h]

/-- A comment ends with its text exactly if the closer at the end is the only one. -/
theorem closeComment?_closer_eq_nil_iff :
    closeComment? (body ++ ['*', '/']) = some [] ↔
      ∀ before after, body ++ ['*', '/'] = before ++ '*' :: '/' :: after → after = [] := by
  constructor
  · intro h before after heq
    obtain ⟨between, hbetween⟩ := exists_closeComment? before after
    rw [← heq, h, Option.some.injEq] at hbetween
    exact (List.append_eq_nil_iff.mp hbetween.symm).2
  · intro honly
    obtain ⟨between, hbetween⟩ := exists_closeComment? body []
    obtain ⟨before, hbefore⟩ := closeComment?_eq_some hbetween
    rw [hbetween, honly before _ hbefore]

/-- Text without stars and backslashes leaves a comment open. -/
theorem closeComment?_splice_append (h : ∀ x ∈ cs, x ≠ '*' ∧ x ≠ '\\') (ds : List Char) :
    closeComment? (splice (cs ++ ds)) = closeComment? (splice ds) := by
  induction cs with
  | nil => rfl
  | cons x cs ih =>
      obtain ⟨⟨hstar, hbackslash⟩, hcs⟩ := List.forall_mem_cons.mp h
      rw [List.cons_append, splice_cons hbackslash, closeComment?_cons hstar, ih hcs]

theorem closeComment?_splice_replicate {x : Char} (h : x ≠ '*' ∧ x ≠ '\\') (n : Nat)
    (ds : List Char) :
    closeComment? (splice (List.replicate n x ++ ds)) = closeComment? (splice ds) :=
  closeComment?_splice_append (fun _ hy => List.eq_of_mem_replicate hy ▸ h) ds

/-! ## Comments and what follows them -/

/-- The text is one block comment: it starts with an opener and ends with a closer, and when its
lines are spliced there is no other closer after the opener. -/
def IsBlockComment (cs : List Char) : Prop :=
  ∃ body, cs = '/' :: '*' :: (body ++ ['*', '/']) ∧
    ∀ before after, splice (body ++ ['*', '/']) = before ++ '*' :: '/' :: after → after = []

/-- What follows the comment that a text starts with. -/
def afterComment? : List Char → Option (List Char)
  | '/' :: '*' :: cs => closeComment? cs
  | _ => none

theorem splice_closer (body ds : List Char) :
    splice (body ++ '*' :: '/' :: ds) = splice body ++ '*' :: '/' :: splice ds := by
  rw [splice_append_cons (by decide) (by decide), splice_cons (by decide)]

theorem afterComment?_splice (cs : List Char) :
    afterComment? (splice ('/' :: '*' :: cs)) = closeComment? (splice cs) := by
  rw [splice_cons (by decide), splice_cons (by decide), afterComment?]

/-- A text with an opener and a closer at its ends is one comment exactly if nothing follows the
comment that it starts with. -/
theorem isBlockComment_iff :
    IsBlockComment ('/' :: '*' :: (body ++ ['*', '/'])) ↔
      afterComment? (splice ('/' :: '*' :: (body ++ ['*', '/']))) = some [] := by
  have honly : afterComment? (splice ('/' :: '*' :: (body ++ ['*', '/']))) = some [] ↔
      ∀ before after, splice (body ++ ['*', '/']) = before ++ '*' :: '/' :: after → after = [] := by
    rw [afterComment?_splice, splice_closer]
    exact closeComment?_closer_eq_nil_iff
  rw [honly]
  constructor
  · rintro ⟨body', heq, h⟩
    obtain rfl : body = body' := List.append_cancel_right (List.cons.inj (List.cons.inj heq).2).2
    exact h
  · exact fun h => ⟨body, rfl, h⟩

/-- After a block comment the text is read on from its end. -/
theorem IsBlockComment.afterComment?_append (h : IsBlockComment cs) (ds : List Char) :
    afterComment? (splice (cs ++ ds)) = some (splice ds) := by
  obtain ⟨body, rfl, -⟩ := id h
  have hclose := isBlockComment_iff.mp h
  rw [afterComment?_splice, splice_closer] at hclose
  have hrest := closeComment?_append hclose (splice ds)
  rw [List.append_assoc] at hrest
  rw [List.cons_append, List.cons_append, List.append_assoc, afterComment?_splice]
  exact (congrArg closeComment? (splice_closer body ds)).trans hrest

end AttributeTables.Preprocessor
