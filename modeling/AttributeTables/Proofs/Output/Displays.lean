import AttributeTables.Proofs.Output.Texts
import AttributeTables.Proofs.Preprocessor.Invocation
import AttributeTables.Proofs.Preprocessor.Tokens
import AttributeTables.Proofs.Registry.History

/-!
# Display strings as arguments

The line for an attribute passes its name and its display string to a callback. A registry keeps
blanks, commas and parentheses out of display strings, but neither quotes nor the signs that start a
comment. So the line is read as it is meant exactly if the display string is plain.
-/

namespace AttributeTables

namespace Preprocessor

variable {ts us after : List Token} {cs : List Char} {depth : Nat}

/-! ## Lists of arguments -/

/-- Puts a token in front of the first argument. -/
def prependToken (t : Token) : List (List Token) × List Token → List (List Token) × List Token
  | (first :: others, after) => ((t :: first) :: others, after)
  | ([], after) => ([[t]], after)

/-- The arguments up to the parenthesis that ends them, and the tokens after it. Commas and parentheses
inside of other parentheses, of which `depth` are open, belong to an argument. -/
def splitArguments? : Nat → List Token → Option (List (List Token) × List Token)
  | _, [] => none
  | 0, .char ')' :: ts => some ([[]], ts)
  | 0, .char ',' :: ts => (splitArguments? 0 ts).map fun (others, after) => ([] :: others, after)
  | depth + 1, .char ')' :: ts => (splitArguments? depth ts).map (prependToken (.char ')'))
  | depth, .char '(' :: ts => (splitArguments? (depth + 1) ts).map (prependToken (.char '('))
  | depth, t :: ts => (splitArguments? depth ts).map (prependToken t)

/-- The invocation that fills a line, once literals and comments are told apart from it. -/
def Invocation.read? (line : String) : Option Invocation := do
  let name := line.toList.takeWhile Text.isIdentifierPart
  let list ← ['('].isPrefixOf? (line.toList.dropWhile Text.isIdentifierPart)
  let (arguments, after) ← splitArguments? 0 (← tokens? list)
  if Text.isIdentifierList name && after.isEmpty then
    some ⟨String.ofList name, arguments.map fun a => String.ofList (trim (spelling a))⟩
  else none

/-- The token has a meaning in a list of arguments. -/
def separates (t : Token) : Bool := [.char ',', .char '(', .char ')'].contains t

theorem splitArguments?_cons {t : Token} (ht : separates t = false) (ts : List Token) :
    splitArguments? 0 (t :: ts) = (splitArguments? 0 ts).map (prependToken t) := by
  refine splitArguments?.eq_6 0 t ts ?_ ?_ ?_ nofun
  · rintro rfl
    cases ht
  · rintro - rfl
    cases ht
  · rintro - rfl
    cases ht

theorem splitArguments?_comma (hts : ∀ t ∈ ts, separates t = false) (us : List Token) :
    splitArguments? 0 (ts ++ .char ',' :: us) =
      (splitArguments? 0 us).map fun (others, after) => (ts :: others, after) := by
  induction ts with
  | nil => rfl
  | cons t ts ih =>
      obtain ⟨ht, hts⟩ := List.forall_mem_cons.mp hts
      rw [List.cons_append, splitArguments?_cons ht, ih hts, Option.map_map]
      rfl

theorem splitArguments?_close (hts : ∀ t ∈ ts, separates t = false) (us : List Token) :
    splitArguments? 0 (ts ++ .char ')' :: us) = some ([ts], us) := by
  induction ts with
  | nil => rfl
  | cons t ts ih =>
      obtain ⟨ht, hts⟩ := List.forall_mem_cons.mp hts
      rw [List.cons_append, splitArguments?_cons ht, ih hts]
      rfl

/-- The arguments with their commas and the parenthesis that ends them, and what follows, are spelled
like the tokens. -/
structure SpelledLike (ts : List Token) (as : List (List Token)) (after : List Token) : Prop where
  ne_nil : as ≠ []
  spelling_eq : spelling ts = [','].intercalate (as.map spelling) ++ ')' :: spelling after

theorem SpelledLike.prepend {as bs : List (List Token)} {t : Token}
    (h : SpelledLike ts as us) (heq : prependToken t (as, us) = (bs, after)) :
    SpelledLike (t :: ts) bs after := by
  obtain ⟨hne, hspelling⟩ := h
  cases as with
  | nil => exact absurd rfl hne
  | cons first others =>
      cases heq
      refine ⟨List.cons_ne_nil _ _, ?_⟩
      rw [spelling_cons, hspelling]
      cases others <;> simp [List.intercalate_cons_cons]

theorem SpelledLike.comma {as : List (List Token)} (h : SpelledLike ts as after) :
    SpelledLike (.char ',' :: ts) ([] :: as) after := by
  obtain ⟨hne, hspelling⟩ := h
  refine ⟨List.cons_ne_nil _ _, ?_⟩
  rw [spelling_cons, hspelling]
  cases as with
  | nil => exact absurd rfl hne
  | cons first others => simp [List.intercalate_cons_cons, Token.spelling]

theorem spelledLike_of_splitArguments? {as : List (List Token)}
    (h : splitArguments? depth ts = some (as, after)) : SpelledLike ts as after := by
  fun_induction splitArguments? depth ts generalizing as after with
  | case1 => cases h
  | case2 ts =>
      cases h
      exact ⟨List.cons_ne_nil _ _, rfl⟩
  | case3 ts ih =>
      obtain ⟨⟨bs, us⟩, hsplit, heq⟩ := Option.map_eq_some_iff.mp h
      cases heq
      exact (ih hsplit).comma
  | case4 depth ts ih | case5 depth ts ih | case6 depth t ts _ _ _ _ ih =>
      obtain ⟨⟨bs, us⟩, hsplit, heq⟩ := Option.map_eq_some_iff.mp h
      exact (ih hsplit).prepend heq

/-! ## Plain texts in an invocation -/

theorem length_trim_le (cs : List Char) : (trim cs).length ≤ cs.length :=
  ((List.rdropWhile_prefix _ _).sublist.trans (List.dropWhile_sublist _)).length_le

theorem separates_eq_false_of_mem (h : ∀ x ∈ spelling ts, x ≠ ',' ∧ x ≠ '(' ∧ x ≠ ')') :
    ∀ t ∈ ts, separates t = false := by
  intro t ht
  cases t with
  | literal text => rfl
  | char x =>
      have hx := h x (List.mem_flatMap.mpr ⟨_, ht, List.mem_singleton_self x⟩)
      simpa [separates] using hx

theorem isPlain_append_iff {front : List Char}
    (hfront : ∀ x ∈ front, isQuote x = false ∧ x ≠ '/') : IsPlain (front ++ cs) ↔ IsPlain cs := by
  induction front with
  | nil => rfl
  | cons x front ih =>
      obtain ⟨⟨hquote, hslash⟩, hfront⟩ := List.forall_mem_cons.mp hfront
      rw [List.cons_append, isPlain_cons_iff hquote, ih hfront]
      exact and_iff_right (opensNoComment_of_ne hslash _)

theorem Invocation.read?_eq {line callback : String} {list : List Char}
    (hcallback : Text.IsIdentifier callback) (hline : line.toList = callback.toList ++ '(' :: list) :
    read? line = (tokens? list).bind fun ts => (splitArguments? 0 ts).bind fun (as, after) =>
      if after.isEmpty then
        some ⟨callback, as.map fun a => String.ofList (trim (spelling a))⟩
      else none := by
  have hpart : ∀ x ∈ callback.toList, Text.isIdentifierPart x = true :=
    fun x hx => hcallback.isPart hx
  have htake : line.toList.takeWhile Text.isIdentifierPart = callback.toList := by
    rw [hline, List.takeWhile_append_of_pos hpart]
    exact List.append_nil _
  have hopen : ['('].isPrefixOf? (line.toList.dropWhile Text.isIdentifierPart) = some list := by
    rw [hline, List.dropWhile_append_of_pos hpart]
    rfl
  have hlist : Text.isIdentifierList callback.toList = true := Text.isIdentifier_iff.mpr hcallback
  simp only [read?, htake, hopen, hlist, Option.bind_eq_bind, Option.bind_some, Bool.true_and,
    String.ofList_toList]

theorem ne_of_isPart {x y : Char} (hx : Text.isIdentifierPart x = true)
    (hy : Text.isIdentifierPart y = false) : x ≠ y := by
  rintro rfl
  cases hx.symm.trans hy

theorem isQuote_of_isPart {x : Char} (h : Text.isIdentifierPart x = true) : isQuote x = false := by
  have hdouble : x ≠ '"' := ne_of_isPart h rfl
  have hsingle : x ≠ '\'' := ne_of_isPart h rfl
  simp [isQuote, hdouble, hsingle]

section Reading

variable {line callback : String} {first second : List Char}
  (hcallback : Text.IsIdentifier callback) (hfirst : ∀ x ∈ first, Text.isIdentifierPart x = true)
  (hline : line.toList = callback.toList ++ '(' :: (first ++ ',' :: (second ++ [')'])))
include hcallback hfirst hline

/-- A line that passes two texts, the second one plain and without separators, is read so. -/
theorem Invocation.read?_of_isPlain (hsecond : ∀ x ∈ second, x ≠ ',' ∧ x ≠ '(' ∧ x ≠ ')')
    (hplain : IsPlain second) : read? line =
      some ⟨callback, [String.ofList (trim first), String.ofList (trim second)]⟩ := by
  have hplain' : IsPlain first := by
    rw [← List.append_nil first]
    refine (isPlain_append_iff fun x hx => ?_).mpr .nil
    exact ⟨isQuote_of_isPart (hfirst x hx), ne_of_isPart (hfirst x hx) rfl⟩
  obtain ⟨ts, rfl, hts⟩ := hplain'.tokens?_append (',' :: (second ++ [')']))
    fun _ => ⟨nofun, nofun⟩
  obtain ⟨us, rfl, hus⟩ := hplain.tokens?_append [')'] fun _ => ⟨nofun, nofun⟩
  have htokens : tokens? (spelling ts ++ ',' :: (spelling us ++ [')'])) =
      some (ts ++ .char ',' :: (us ++ [.char ')'])) := by
    have hclose : tokens? [')'] = some [.char ')'] := by
      rw [tokens?_char rfl (opensNoComment_of_ne (by decide) _), tokens?]
      rfl
    rw [hts, tokens?_char rfl (opensNoComment_of_ne (by decide) _), hus, hclose]
    rfl
  have hseparates : ∀ t ∈ ts, separates t = false := separates_eq_false_of_mem fun x hx =>
    ⟨ne_of_isPart (hfirst x hx) rfl, ne_of_isPart (hfirst x hx) rfl, ne_of_isPart (hfirst x hx) rfl⟩
  rw [read?_eq hcallback hline, htokens, Option.bind_some, splitArguments?_comma hseparates,
    splitArguments?_close (separates_eq_false_of_mem hsecond)]
  rfl

/-- A line is only read as passing its two texts if the second one is plain. -/
theorem Invocation.isPlain_of_read?
    (h : read? line = some ⟨callback, [String.ofList first, String.ofList second]⟩) :
    IsPlain second := by
  rw [read?_eq hcallback hline] at h
  obtain ⟨ts, hts, h⟩ := Option.bind_eq_some_iff.mp h
  obtain ⟨⟨as, after⟩, hsplit, h⟩ := Option.bind_eq_some_iff.mp h
  dsimp only at h
  split_ifs at h with hafter
  have hmap : as.map (fun a => trim (spelling a)) = [first, second] := by
    have harguments := congrArg (fun i : Invocation => i.arguments.map String.toList)
      (Option.some.inj h)
    simpa [Function.comp_def] using harguments
  obtain ⟨a, others, rfl, rfl, hothers⟩ := List.map_eq_cons_iff.mp hmap
  obtain ⟨b, others, rfl, rfl, hnone⟩ := List.map_eq_cons_iff.mp hothers
  cases List.map_eq_nil_iff.mp hnone
  -- A comment would leave fewer characters than the two texts have.
  have hplain : IsPlain (trim (spelling a) ++ ',' :: (trim (spelling b) ++ [')'])) := by
    rcases isPlain_or_length_lt hts with ⟨hplain, -⟩ | hlt
    · exact hplain
    · have ha := length_trim_le (spelling a)
      have hb := length_trim_le (spelling b)
      rw [(spelledLike_of_splitArguments? hsplit).spelling_eq] at hlt
      simp [List.intercalate_cons_cons] at hlt
      omega
  have hrest : IsPlain (',' :: (trim (spelling b) ++ [')'])) :=
    (isPlain_append_iff fun x hx =>
      ⟨isQuote_of_isPart (hfirst x hx), ne_of_isPart (hfirst x hx) rfl⟩).mp hplain
  exact ((isPlain_cons_iff rfl).mp hrest).2.of_concat rfl

end Reading

end Preprocessor

namespace Output

open Preprocessor

variable {d : Definition}

theorem invocation_mem_namesLines {k : Catalogue} {c : Category} (hd : d ∈ k.listed c) :
    invocation c.group.callback d ∈ namesLines k := by
  have hmember : d ∈ groupMembers k c.group :=
    List.mem_flatMap.mpr ⟨c, c.mem_categories_group, hd⟩
  have hgroup : c.group ∈ NameGroup.all := by cases c <;> decide
  have hline : invocation c.group.callback d ∈ groupLines k c.group :=
    List.mem_append_left _ (List.mem_append_right _ (List.mem_map_of_mem hmember))
  exact List.mem_append_left _ (List.mem_append_right _ (List.mem_flatMap.mpr ⟨_, hgroup, hline⟩))

theorem read?_invocation_iff (hname : Text.IsIdentifier d.name) (hdisplay : IsArgument d.display)
    (g : NameGroup) :
    Invocation.read? (invocation g.callback d) = some ⟨g.callback, [d.name, d.display]⟩ ↔
      IsPlain d.display.toList := by
  have hline : (invocation g.callback d).toList =
      g.callback.toList ++ '(' :: (d.name.toList ++ ',' :: (d.display.toList ++ [')'])) := by
    simp [invocation]
  have hfirst : ∀ x ∈ d.name.toList, Text.isIdentifierPart x = true := fun x hx => hname.isPart hx
  constructor
  · intro h
    refine Invocation.isPlain_of_read? (isIdentifier_callback g) hfirst hline ?_
    rw [h, String.ofList_toList, String.ofList_toList]
  · intro h
    rw [Invocation.read?_of_isPlain (isIdentifier_callback g) hfirst hline
      (fun x hx => (hdisplay.2 x hx).2) h, trim_identifier hname, trim_argument hdisplay,
      String.ofList_toList, String.ofList_toList]

/-- A registry has a line for each of its attributes. The line is one invocation with two arguments,
the name and the display string, exactly if the display string is plain. -/
theorem displays_read_iff (calls : List Call) (style : Style) :
    let r := Registry.ofCalls calls
    ∃ text, sectionText r.catalogue style .names = .ok text ∧
      ∀ c, ∀ d ∈ r.listed c,
        let line := c.group.callback ++ "(" ++ d.name ++ "," ++ d.display ++ ")"
        line ∈ Text.readLines text ∧
          (Invocation.read? line = some ⟨c.group.callback, [d.name, d.display]⟩ ↔
            IsPlain d.display.toList) := by
  intro r
  have hwf := Registry.wellFormed_ofCalls calls
  refine ⟨Text.unlines (namesLines r.catalogue), rfl, fun c d hd => ⟨?_, ?_⟩⟩
  · rw [readLines_namesLines hwf]
    exact invocation_mem_namesLines hd
  · exact read?_invocation_iff (hwf.identifier c d hd) (hwf.argument c d hd) c.group

/-- Quotes and signs of comments do no harm where they are in complete literals. -/
theorem displays_read_literal :
    let d : Definition := ⟨"Path", .strBool, "a=\"//\"/'\"'", []⟩
    let r := Registry.ofCalls [.insert ⟨"9", .enum, "a", []⟩, .insert d]
    d ∈ r.listed .strBool ∧
      Invocation.read? "ATTRIBUTE_STRBOOL(Path,a=\"//\"/'\"')" =
        some ⟨"ATTRIBUTE_STRBOOL", ["Path", "a=\"//\"/'\"'"]⟩ := by
  intro d r
  have hd : d ∈ r.listed .strBool := by decide
  have hplain : IsPlain d.display.toList := by decide +kernel
  obtain ⟨text, -, hread⟩ := displays_read_iff [.insert ⟨"9", .enum, "a", []⟩, .insert d] .numeric
  exact ⟨hd, (hread .strBool d hd).2.mpr hplain⟩

/-- A quote is accepted as a display string, and the literal that starts with it is not closed on its
line. -/
theorem displays_unread_quote :
    let d : Definition := ⟨"Quote", .enum, "\"", []⟩
    let calls : List Call := [.insert d]
    (Registry.perform {} calls).1 = [.ok ()] ∧ d ∈ (Registry.ofCalls calls).listed .enum ∧
      "ATTRIBUTE_ENUM(Quote,\")" ∈ namesLines (Registry.ofCalls calls).catalogue ∧
      Invocation.read? "ATTRIBUTE_ENUM(Quote,\")" = none := by
  intro d calls
  exact ⟨by decide +kernel, by decide, by decide, by decide +kernel⟩

end Output

end AttributeTables
