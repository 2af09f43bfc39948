import AttributeTables.Proofs.Output.Reading
import Mathlib.Data.List.DropRight

/-!
# Invocations of macros

A line that invokes a macro: its name, and arguments in parentheses with commas between them.
Blanks around an argument do not belong to it. Arguments are taken as they stand, as long as they
hold no parentheses of their own.
-/

namespace AttributeTables

namespace Preprocessor

/-! ## Blanks -/

def trim (cs : List Char) : List Char :=
  (cs.dropWhile Char.isWhitespace).rdropWhile Char.isWhitespace

theorem trim_eq_self {cs : List Char} (h : ∀ x ∈ cs, x.isWhitespace = false) : trim cs = cs := by
  have hhead : cs.dropWhile Char.isWhitespace = cs := by
    refine List.dropWhile_eq_self_iff.mpr fun hlength => ?_
    rw [h _ (List.getElem_mem hlength)]
    exact Bool.false_ne_true
  rw [trim, hhead]
  refine List.rdropWhile_eq_self_iff.mpr fun hne => ?_
  rw [h _ (List.getLast_mem hne)]
  exact Bool.false_ne_true

theorem trim_append {blanks : List Char} (h : ∀ x ∈ blanks, x.isWhitespace = true) (cs : List Char) :
    trim (blanks ++ cs) = trim cs := by
  rw [trim, List.dropWhile_append_of_pos h, trim]

/-! ## Invocations -/

structure Invocation where
  name : String
  arguments : List String
  deriving DecidableEq

/-- The invocation that fills a line. -/
def Invocation.ofLine? (line : String) : Option Invocation := do
  let name := line.toList.takeWhile Text.isIdentifierPart
  let rest ← ['('].isPrefixOf? (line.toList.dropWhile Text.isIdentifierPart)
  let arguments ← [')'].isSuffixOf? rest
  if Text.isIdentifierList name && arguments.all fun c => c != '(' && c != ')' then
    some ⟨String.ofList name, (Text.pieces ',' arguments).map fun a => String.ofList (trim a)⟩
  else none

/-- Nothing is invoked on an empty line or by a directive. -/
theorem Invocation.ofLine?_eq_none {line : String}
    (h : line = "" ∨ line.toList.head? = some '#') : ofLine? line = none := by
  rcases h with rfl | h
  · rfl
  · obtain ⟨rest, hline⟩ := List.head?_eq_some_iff.mp h
    simp only [ofLine?, hline]
    rfl

/-- A macro that is invoked with two arguments. -/
theorem Invocation.ofLine?_eq_some {line name : String} {first second : List Char}
    (hname : Text.IsIdentifier name) (hfirst : ∀ x ∈ first, x ≠ ',' ∧ x ≠ '(' ∧ x ≠ ')')
    (hsecond : ∀ x ∈ second, x ≠ ',' ∧ x ≠ '(' ∧ x ≠ ')')
    (hline : line.toList = name.toList ++ '(' :: (first ++ ',' :: second ++ [')'])) :
    ofLine? line =
      some ⟨name, [String.ofList (trim first), String.ofList (trim second)]⟩ := by
  have hpart : ∀ x ∈ name.toList, Text.isIdentifierPart x = true := fun x hx => hname.isPart hx
  have htake : line.toList.takeWhile Text.isIdentifierPart = name.toList := by
    rw [hline, List.takeWhile_append_of_pos hpart]
    exact List.append_nil _
  have hrest : ['('].isPrefixOf? (line.toList.dropWhile Text.isIdentifierPart) =
      some (first ++ ',' :: second ++ [')']) := by
    rw [hline, List.dropWhile_append_of_pos hpart]
    rfl
  have hsuffix : [')'].isSuffixOf? (first ++ ',' :: second ++ [')']) = some (first ++ ',' :: second) :=
    List.isSuffixOf?_eq_some_iff_append_eq.mpr rfl
  have hlist : Text.isIdentifierList name.toList = true := Text.isIdentifier_iff.mpr hname
  have hplain : (first ++ ',' :: second).all (fun c => c != '(' && c != ')') = true := by
    simp only [List.all_append, List.all_cons, Bool.and_eq_true, List.all_eq_true, bne_iff_ne]
    exact ⟨fun x hx => (hfirst x hx).2, by decide, fun x hx => (hsecond x hx).2⟩
  have hcomma : ',' ∉ first := fun hmem => (hfirst ',' hmem).1 rfl
  have hlast : ',' ∉ second := fun hmem => (hsecond ',' hmem).1 rfl
  simp only [ofLine?, htake, hrest, hsuffix, Option.bind_eq_bind, Option.bind_some, hlist, hplain,
    Bool.and_true, if_true, Text.pieces_append_cons hcomma, Text.pieces_eq_singleton hlast,
    List.map_cons, List.map_nil, String.ofList_toList]

/-! ## Invocations for attributes -/

theorem isWhitespace_of_isPart {x : Char} (h : Text.isIdentifierPart x = true) :
    x.isWhitespace = false := by
  by_contra hblank
  simp only [Bool.not_eq_false, Char.isWhitespace, Bool.or_eq_true, decide_eq_true_eq] at hblank
  rcases hblank with ((rfl | rfl) | rfl) | rfl <;> cases h

theorem isWhitespace_eq_false {s : String} (h : Text.IsIdentifier s) {x : Char}
    (hx : x ∈ s.toList) : x.isWhitespace = false :=
  isWhitespace_of_isPart (h.isPart hx)

theorem trim_identifier {s : String} (h : Text.IsIdentifier s) : trim s.toList = s.toList :=
  trim_eq_self fun _ hx => isWhitespace_eq_false h hx

theorem trim_argument {s : String} (h : IsArgument s) : trim s.toList = s.toList := by
  refine trim_eq_self fun x hx => ?_
  by_contra hblank
  rw [Bool.not_eq_false] at hblank
  exact Bool.false_ne_true ((h.2 x hx).1.symm.trans (Text.isBlank_of_isWhitespace hblank))

theorem callback_injective {g g' : NameGroup} (h : g.callback = g'.callback) : g = g' := by
  cases g <;> cases g' <;> first | rfl | exact absurd h (by decide)

theorem isIdentifier_callback (g : NameGroup) : Text.IsIdentifier g.callback := by
  cases g <;> decide

/-- A line that passes the name and the display string of an attribute, the latter after any number
of blanks. -/
theorem Invocation.ofLine?_attribute {d : Definition} (hname : Text.IsIdentifier d.name)
    (hdisplay : IsArgument d.display) {callback line : String}
    (hcallback : Text.IsIdentifier callback) (blanks : List Char) (hblanks : ∀ x ∈ blanks, x = ' ')
    (hline : line.toList =
      callback.toList ++ '(' :: (d.name.toList ++ ',' :: (blanks ++ d.display.toList) ++ [')'])) :
    ofLine? line = some ⟨callback, [d.name, d.display]⟩ := by
  have hfirst : ∀ x ∈ d.name.toList, x ≠ ',' ∧ x ≠ '(' ∧ x ≠ ')' := by
    intro x hx
    refine ⟨?_, ?_, ?_⟩ <;> rintro rfl <;> exact hname.not_mem rfl hx
  have hsecond : ∀ x ∈ blanks ++ d.display.toList, x ≠ ',' ∧ x ≠ '(' ∧ x ≠ ')' := by
    intro x hx
    rcases List.mem_append.mp hx with hx | hx
    · obtain rfl := hblanks x hx
      decide
    · exact (hdisplay.2 x hx).2
  have hspace : ∀ x ∈ blanks, x.isWhitespace = true := by
    intro x hx
    obtain rfl := hblanks x hx
    rfl
  rw [ofLine?_eq_some hcallback hfirst hsecond hline, trim_identifier hname, trim_append hspace,
    trim_argument hdisplay, String.ofList_toList, String.ofList_toList]

theorem Invocation.ofLine?_invocation {d : Definition} (hname : Text.IsIdentifier d.name)
    (hdisplay : IsArgument d.display) (g : NameGroup) :
    ofLine? (Output.invocation g.callback d) = some ⟨g.callback, [d.name, d.display]⟩ :=
  ofLine?_attribute hname hdisplay (isIdentifier_callback g) [] (by simp)
    (by simp [Output.invocation])

end Preprocessor

end AttributeTables
