import AttributeTables.Output
import AttributeTables.Proofs.Registry.Steps
import AttributeTables.Proofs.Text.Lines
import Mathlib.Data.List.Basic

/-!
# Reading the generated sections

Readers for the three sections with a line for each attribute. An attribute may be named like a
marker, so a bracket is not left at the first line that looks like its last marker: the lines
between two markers are told by their values, which count up.
-/

namespace AttributeTables

/-! ## Names and display strings -/

theorem Text.IsIdentifier.isPart {s : String} (h : Text.IsIdentifier s) {x : Char}
    (hx : x ∈ s.toList) : Text.isIdentifierPart x = true := by
  obtain ⟨first, rest, hs, hfirst, hrest⟩ := h
  have hpart : IsLetter x ∨ ('0' ≤ x ∧ x ≤ '9') ∨ x = '_' := by
    rw [hs] at hx
    rcases List.mem_cons.mp hx with rfl | hx
    · rcases hfirst with hletter | rfl
      · exact .inl hletter
      · exact .inr (.inr rfl)
    · exact hrest x hx
  simpa [isIdentifierPart, Char.isAlphanum, isAlpha_iff, isDigit_iff, or_assoc] using hpart

/-- What is no part of an identifier is not in one. -/
theorem Text.IsIdentifier.not_mem {s : String} (h : Text.IsIdentifier s) {x : Char}
    (hx : Text.isIdentifierPart x = false) : x ∉ s.toList := by
  intro hmem
  rw [h.isPart hmem] at hx
  cases hx

theorem Text.IsIdentifier.isLine {s : String} (h : Text.IsIdentifier s) : Text.IsLine s := by
  intro x hx
  constructor
  · rintro rfl
    exact h.not_mem rfl hx
  · rintro rfl
    exact h.not_mem rfl hx

theorem IsArgument.isLine {s : String} (h : IsArgument s) : Text.IsLine s := by
  intro x hx
  have hblank := (h.2 x hx).1
  constructor
  · rintro rfl
    cases hblank
  · rintro rfl
    cases hblank

namespace Output

/-! ## Single lines -/

/-- The name that an invocation of the callback passes first. -/
def invokedName? (callback : String) (line : String) : Option String :=
  ((callback ++ "(").toList.isPrefixOf? line.toList).map fun arguments =>
    String.ofList (arguments.takeWhile (· != ','))

/-- The number with the given decimal digits. -/
def decimal? (digits : List Char) : Option Nat :=
  if digits ≠ [] ∧ digits.all Char.isDigit then some (Nat.ofDigitChars 10 digits 0) else none

/-- The value in a line that defines a name as a value. -/
def value? (line : String) : Option Nat := do
  let value ← " = ".toList.isPrefixOf? (line.toList.dropWhile (· != ' '))
  let digits ← ",".toList.isSuffixOf? value
  decimal? digits

/-- The value of the marker at the front, and the lines after it. -/
def marker? (name : String) : List String → Option (Nat × List String)
  | [] => none
  | line :: lines =>
    if (name ++ " = ").toList.isPrefixOf line.toList then (value? line).map (·, lines) else none

/-- What stands between an opening and a closing. -/
def body? (opening closing lines : List String) : Option (List String) :=
  (opening.isPrefixOf? lines).bind closing.isSuffixOf?

/-! ## Sections -/

/-- The names that get codes, read from the name tables. -/
def readNames (text : String) : List String :=
  (Text.readLines text).filterMap (invokedName? "ATTRIBUTE_ENUM")

/-- The lines between the two markers of a category. -/
structure Bracket where
  category : Category
  definitions : List String
  deriving DecidableEq

/-- The lines at the front whose values count up from a number, and the lines after them. -/
def splitCount (n : Nat) : List String → List String × List String
  | [] => ([], [])
  | line :: lines =>
    if value? line = some n then
      let (counted, others) := splitCount (n + 1) lines
      (line :: counted, others)
    else ([], line :: lines)

/-- The brackets of the categories, and nothing else. -/
def brackets? : List Category → List String → Option (List Bracket)
  | [], [] => some []
  | [], _ :: _ => none
  | c :: cs, lines => do
    let (first, lines) ← marker? ("First" ++ c.name) lines
    let (definitions, lines) := splitCount first lines
    let (_, lines) ← marker? ("Last" ++ c.name) lines
    let brackets ← brackets? cs lines
    return ⟨c, definitions⟩ :: brackets

/-- The brackets of the enumerators. -/
def readBrackets (text : String) : Option (List Bracket) :=
  (body? ["#ifdef GET_ATTR_ENUM", "#undef GET_ATTR_ENUM"] ["#endif", ""] (Text.readLines text)).bind
    (brackets? Category.codeBearing)

/-- The rows of the property table. -/
def readRows (text : String) : Option (List String) :=
  body? ["#ifdef GET_ATTR_PROP_TABLE", "#undef GET_ATTR_PROP_TABLE",
    "static const uint8_t AttrPropTable[] = \x7b"] ["\x7d;", "#endif"] (Text.readLines text)

/-! ## Reading lines back -/

theorem invokedName?_invocation {d : Definition} (hname : Text.IsIdentifier d.name)
    (callback : String) : invokedName? callback (invocation callback d) = some d.name := by
  have hcomma : ∀ x ∈ d.name.toList, (x != ',') = true := by
    intro x hx
    rw [bne_iff_ne]
    rintro rfl
    exact hname.not_mem rfl hx
  have hprefix : (callback ++ "(").toList.isPrefixOf? (invocation callback d).toList =
      some (d.name.toList ++ ',' :: (d.display ++ ")").toList) := by
    simp [invocation, List.isPrefixOf?_eq_some_iff_append_eq]
  rw [invokedName?, hprefix, Option.map_some, List.takeWhile_append_of_pos hcomma]
  simp

theorem decimal?_toDigits (n : Nat) : decimal? (Nat.toDigits 10 n) = some n := by
  have hdigits : (Nat.toDigits 10 n).all Char.isDigit = true :=
    List.all_eq_true.mpr fun x hx => Nat.isDigit_of_mem_toDigits (by decide) (by decide) hx
  rw [decimal?, if_pos ⟨Nat.toDigits_ne_nil, hdigits⟩, Nat.ofDigitChars_ten_toDigits]

/-- An enumerator with a value of any size. -/
def definitionLine (name : String) (n : Nat) : String := name ++ " = " ++ toString n ++ ","

theorem value?_definitionLine {name : String} (hname : ' ' ∉ name.toList) (n : Nat) :
    value? (definitionLine name n) = some n := by
  have hblank : ∀ x ∈ name.toList, (x != ' ') = true := by
    intro x hx
    rw [bne_iff_ne]
    rintro rfl
    exact hname hx
  have hline : (definitionLine name n).toList =
      name.toList ++ " = ".toList ++ (Nat.toDigits 10 n ++ ",".toList) := by
    simp [definitionLine]
  have hprefix : " = ".toList.isPrefixOf? ((definitionLine name n).toList.dropWhile (· != ' ')) =
      some (Nat.toDigits 10 n ++ ",".toList) := by
    rw [hline, List.append_assoc, List.dropWhile_append_of_pos hblank]
    rfl
  have hsuffix : ",".toList.isSuffixOf? (Nat.toDigits 10 n ++ ",".toList) =
      some (Nat.toDigits 10 n) := List.isSuffixOf?_eq_some_iff_append_eq.mpr rfl
  simp only [value?, hprefix, hsuffix, Option.bind_eq_bind, Option.bind_some, decimal?_toDigits]

theorem marker?_definitionLine {name : String} (hname : ' ' ∉ name.toList) (n : Nat)
    (lines : List String) : marker? name (definitionLine name n :: lines) = some (n, lines) := by
  have hprefix : (name ++ " = ").toList.isPrefixOf (definitionLine name n).toList = true := by
    have hline : (definitionLine name n).toList =
        (name ++ " = ").toList ++ (toString n ++ ",").toList := by simp [definitionLine]
    rw [hline, List.isPrefixOf_iff_prefix]
    exact List.prefix_append _ _
  rw [marker?, if_pos hprefix, value?_definitionLine hname, Option.map_some]

theorem body?_append (opening closing lines : List String) :
    body? opening closing (opening ++ lines ++ closing) = some lines := by
  have hopening : opening.isPrefixOf? (opening ++ lines ++ closing) = some (lines ++ closing) := by
    rw [List.isPrefixOf?_eq_some_iff_append_eq, List.append_assoc]
  rw [body?, hopening, Option.bind_some, List.isSuffixOf?_eq_some_iff_append_eq]

/-! ## Reading brackets back -/

/-- The definitions of attributes that are numbered from `n` on. -/
def numbered (ds : List Definition) (n : Nat) : List String :=
  (ds.zipIdx n).map fun p => definitionLine p.1.name p.2

@[simp] theorem numbered_cons (d : Definition) (ds : List Definition) (n : Nat) :
    numbered (d :: ds) n = definitionLine d.name n :: numbered ds (n + 1) := rfl

theorem numbered_append (ds es : List Definition) (n : Nat) :
    numbered (ds ++ es) n = numbered ds n ++ numbered es (n + ds.length) := by
  simp [numbered, List.zipIdx_append]

theorem splitCount_numbered {ds : List Definition} (hnames : ∀ d ∈ ds, ' ' ∉ d.name.toList)
    {n : Nat} {line : String} (hline : value? line ≠ some (n + ds.length)) (lines : List String) :
    splitCount n (numbered ds n ++ line :: lines) = (numbered ds n, line :: lines) := by
  induction ds generalizing n with
  | nil => exact if_neg hline
  | cons d ds ih =>
      obtain ⟨hname, hnames⟩ := List.forall_mem_cons.mp hnames
      have hnext : n + (d :: ds).length = n + 1 + ds.length := by
        rw [List.length_cons]; omega
      rw [hnext] at hline
      rw [numbered_cons, List.cons_append, splitCount, if_pos (value?_definitionLine hname n),
        ih hnames hline]

theorem blank_not_mem_firstMarker (c : Category) : ' ' ∉ (firstMarker c).toList := by
  cases c <;> decide

theorem blank_not_mem_lastMarker (c : Category) : ' ' ∉ (lastMarker c).toList := by
  cases c <;> decide

/-- A bracket is left at its last marker, since the value of that one does not count on. -/
theorem brackets?_cons {ds : List Definition} (hnames : ∀ d ∈ ds, ' ' ∉ d.name.toList) {n last : Nat}
    (hlast : last ≠ n + ds.length) (c : Category) (cs : List Category) (lines : List String) :
    brackets? (c :: cs) (definitionLine (firstMarker c) n ::
        (numbered ds n ++ definitionLine (lastMarker c) last :: lines)) =
      (brackets? cs lines).map (⟨c, numbered ds n⟩ :: ·) := by
  have hvalue : value? (definitionLine (lastMarker c) last) ≠ some (n + ds.length) := by
    rw [value?_definitionLine (blank_not_mem_lastMarker c)]
    simpa using hlast
  rw [brackets?]
  change (marker? (firstMarker c) _).bind _ = _
  rw [marker?_definitionLine (blank_not_mem_firstMarker c), Option.bind_some]
  simp only [splitCount_numbered hnames hvalue]
  change (marker? (lastMarker c) _).bind _ = _
  rw [marker?_definitionLine (blank_not_mem_lastMarker c), Option.bind_some]
  simp only [Option.bind_eq_bind, Option.pure_def, Option.map_eq_bind]
  rfl

end Output

end AttributeTables
