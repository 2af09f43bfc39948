import AttributeTables.Proofs.Manifest.FirstFault
import AttributeTables.Proofs.Output.Alignment
import AttributeTables.Proofs.Output.Selections

/-!
# The two styles of the property table

A row holds its byte as a number, or the tags of the attribute as an expression over the names of
single bits. Read back, number and expression have the same value, unless a tag has the bit without a
name.
-/

namespace AttributeTables

variable {k : Catalogue} {t : PropertyTable}

namespace Output

/-! ## Reading rows -/

/-- The names after the operators. -/
def operands? : List (List Char) → Option (List String)
  | [] => some []
  | operator :: operand :: rest => do
    let name ← if operator = ['|'] then "AttributeProperty::".toList.isPrefixOf? operand else none
    let names ← operands? rest
    return String.ofList name :: names
  | [_] => none

/-- The names in an expression that starts with a zero. -/
def readExpression? (row : String) : Option (List String) := do
  let expression ← [','].isSuffixOf? row.toList
  match Text.pieces ' ' expression with
  | ['0'] :: operands => operands? operands
  | _ => none

def readNumber? (row : String) : Option Nat := ([','].isSuffixOf? row.toList).bind decimal?

/-- The enumerators of the tags with their values. -/
def symbolValues : List (String × Nat) :=
  [("FnAttr", 1), ("ParamAttr", 2), ("RetAttr", 4), ("IntersectPreserve", 8), ("IntersectAnd", 16),
    ("IntersectMin", 32), ("IntersectCustom", 64)]

def symbolValue? (name : String) : Option Nat := symbolValues.lookup name

/-- The value of an expression, if all names in it have one. -/
def expressionValue? (names : List String) : Option Nat :=
  names.foldlM (fun value name => (symbolValue? name).map (value ||| ·)) 0

/-! ## Numbers -/

theorem readNumber?_toString (n : Nat) : readNumber? (toString n ++ ",") = some n := by
  have hsuffix : [','].isSuffixOf? (toString n ++ ",").toList = some (Nat.toDigits 10 n) := by
    rw [List.isSuffixOf?_eq_some_iff_append_eq]
    simp
  rw [readNumber?, hsuffix, Option.bind_some, decimal?_toDigits]

/-! ## Expressions -/

theorem toList_symbol (item : PropertySet) :
    (symbol item).toList = "AttributeProperty::".toList ++ item.name.toList :=
  String.toList_append

theorem blank_not_mem_symbol (item : PropertySet) : ' ' ∉ (symbol item).toList := by
  have hblank : ∀ s ∈ symbols, ' ' ∉ s.toList := by decide
  exact hblank _ (symbol_mem_symbols item)

theorem pieces_symbols {first : List Char} (hfirst : ' ' ∉ first) (items : List PropertySet) :
    Text.pieces ' ' (first ++ items.flatMap fun item => (" | " ++ symbol item).toList) =
      first :: items.flatMap fun item => [['|'], (symbol item).toList] := by
  have hpieces := Text.pieces_append_operands hfirst
    (List.forall_mem_map.mpr fun item _ => blank_not_mem_symbol item : ∀ s ∈ items.map symbol, _)
  rwa [List.flatMap_map, List.flatMap_map] at hpieces

theorem operands?_symbols (items : List PropertySet) :
    operands? (items.flatMap fun item => [['|'], (symbol item).toList]) =
      some (items.map PropertySet.name) := by
  induction items with
  | nil => rfl
  | cons item items ih =>
      have hprefix : "AttributeProperty::".toList.isPrefixOf? (symbol item).toList =
          some item.name.toList := by
        rw [List.isPrefixOf?_eq_some_iff_append_eq, toList_symbol]
      rw [List.flatMap_cons, List.cons_append, List.singleton_append, operands?, hprefix, ih]
      simp

theorem readExpression?_row (e : PropertyEntry) :
    readExpression? (row .symbolic e) =
      some ((e.tags.flatMap PropertySet.items).map PropertySet.name) := by
  have hsuffix : [','].isSuffixOf? (row .symbolic e).toList =
      some (['0'] ++ (e.tags.flatMap PropertySet.items).flatMap
        fun item => (" | " ++ symbol item).toList) := by
    rw [List.isSuffixOf?_eq_some_iff_append_eq]
    simp [row, String.toList_join, List.flatMap_map]
  rw [readExpression?, hsuffix, Option.bind_eq_bind, Option.bind_some, pieces_symbols (by decide)]
  exact operands?_symbols _

/-! ## Values -/

theorem symbolValue?_single (p : Property) :
    symbolValue? (PropertySet.single p).name = some (PropertySet.single p).bits.toNat := by
  cases p <;> rfl

theorem isName_single (p : Property) : Property.IsName (PropertySet.single p).name :=
  ⟨p, by cases p <;> rfl⟩

theorem not_isName_unknownBit : ¬ Property.IsName (PropertySet.mk PropertySet.unknownBit).name := by
  rintro ⟨p, hp⟩
  exact absurd hp (by cases p <;> decide)

/-- The value of the names read so far is that of the byte read so far. -/
theorem foldlM_names {items : List PropertySet}
    (h : ∀ item ∈ items, symbolValue? item.name = some item.bits.toNat) (s : PropertySet) :
    (items.map PropertySet.name).foldlM
        (fun value name => (symbolValue? name).map (value ||| ·)) s.bits.toNat =
      some (items.foldl PropertySet.union s).bits.toNat := by
  induction items generalizing s with
  | nil => rfl
  | cons item items ih =>
      obtain ⟨hitem, hitems⟩ := List.forall_mem_cons.mp h
      rw [List.map_cons, List.foldlM_cons, hitem, List.foldl_cons, ← ih hitems,
        PropertySet.union, UInt8.toNat_or]
      rfl

/-- Only the bit without a meaning adds a name that no tag has. -/
theorem exists_not_isName_iff (tags : List PropertySet) :
    (∃ name ∈ (tags.flatMap PropertySet.items).map PropertySet.name, ¬ Property.IsName name) ↔
      ∃ tag ∈ tags, tag.bits &&& 128 ≠ 0 := by
  constructor
  · rintro ⟨name, hname, hnot⟩
    obtain ⟨item, hitem, rfl⟩ := List.mem_map.mp hname
    obtain ⟨tag, htag, hitem⟩ := List.mem_flatMap.mp hitem
    rcases PropertySet.mem_items.mp hitem with ⟨p, -, rfl⟩ | ⟨hunknown, -⟩
    · exact absurd (isName_single p) hnot
    · exact ⟨tag, htag, hunknown⟩
  · rintro ⟨tag, htag, hunknown⟩
    refine ⟨_, List.mem_map_of_mem (List.mem_flatMap.mpr ⟨tag, htag, ?_⟩), not_isName_unknownBit⟩
    exact PropertySet.mem_items.mpr (.inr ⟨hunknown, rfl⟩)

theorem expressionValue?_names {d : Definition} (h : ∀ tag ∈ d.properties, tag.bits &&& 128 = 0) :
    expressionValue? ((d.properties.flatMap PropertySet.items).map PropertySet.name) =
      some d.mask.bits.toNat := by
  have hitems : ∀ item ∈ d.properties.flatMap PropertySet.items,
      symbolValue? item.name = some item.bits.toNat := by
    intro item hitem
    obtain ⟨tag, htag, hitem⟩ := List.mem_flatMap.mp hitem
    rcases PropertySet.mem_items.mp hitem with ⟨p, -, rfl⟩ | ⟨hunknown, -⟩
    · exact symbolValue?_single p
    · exact absurd (h tag htag) hunknown
  rw [Definition.mask, ← PropertySet.foldl_union_flatMap_items]
  exact foldlM_names hitems PropertySet.empty

end Output

/-- A manifest cannot give the bit without a meaning. -/
theorem Manifest.known_of_registry {m : Manifest} {r : Registry} (h : m.registry = .ok r)
    {c : Category} {d : Definition} (hd : d ∈ r.listed c) {tag : PropertySet}
    (htag : tag ∈ d.properties) : tag.bits &&& 128 = 0 := by
  obtain ⟨-, ds, hds, rfl⟩ := registry_eq_ok_iff.mp h
  rw [Registry.foldl_extend_listed, filterMap_definition?_calls] at hd
  obtain ⟨e, -, hdenotes⟩ := exists_of_mem_right hds (List.mem_of_mem_filter hd)
  obtain ⟨name, -, p, -, rfl⟩ := exists_of_mem_right hdenotes.tags htag
  cases p <;> rfl

namespace Output

/-- As long as no tag has the bit without a name, which no manifest can give, the numbers and the
expressions denote the same table. -/
theorem styles_denote_same_table (ht : PropertyTable.build k = .ok t) :
    (∀ (m : Manifest) (r : Registry), m.registry = .ok r → r.catalogue = k →
      ∀ d ∈ k.codeBearing, ∀ tag ∈ d.properties, tag.bits &&& 128 = 0) ∧
    ∃ numeric symbolic : String,
      sectionText k .numeric .properties = .ok numeric ∧
      sectionText k .symbolic .properties = .ok symbolic ∧
      ∃ numbers expressions : List String,
        readRows numeric = some numbers ∧ readRows symbolic = some expressions ∧
        numbers.length = k.codeBearing.length ∧ expressions.length = k.codeBearing.length ∧
        ∀ (i : Nat) (d : Definition), k.codeBearing[i]? = some d →
          ∃ number expression names n, numbers[i]? = some number ∧
            expressions[i]? = some expression ∧ readNumber? number = some n ∧
            readExpression? expression = some names ∧
            ((∃ name ∈ names, ¬ Property.IsName name) ↔
              ∃ tag ∈ d.properties, tag.bits &&& 128 ≠ 0) ∧
            ((∀ tag ∈ d.properties, tag.bits &&& 128 = 0) → expressionValue? names = some n) := by
  refine ⟨?_, _, _, sectionText_properties ht, sectionText_properties ht, _, _, readRows_rows _ _,
    readRows_rows _ _, ?_, ?_, fun i d hd => ?_⟩
  · rintro m r hr rfl d hd tag htag
    obtain ⟨c, -, hd⟩ := List.mem_flatMap.mp hd
    exact Manifest.known_of_registry hr hd htag
  · rw [PropertyTable.entries_of_build ht, List.length_map, List.length_map]
  · rw [PropertyTable.entries_of_build ht, List.length_map, List.length_map]
  · have hrow : ∀ style, (t.entries.map (row style))[i]? =
        some (row style (PropertyTable.soundEntry d)) := by
      intro style
      rw [PropertyTable.entries_of_build ht, List.getElem?_map, List.getElem?_map, hd]
      rfl
    exact ⟨_, _, _, _, hrow .numeric, hrow .symbolic, readNumber?_toString _, readExpression?_row _,
      exists_not_isName_iff d.properties, expressionValue?_names⟩

/-- Tags that overlap and one with the bit without a name. -/
theorem styles_denote_same_table_overlapping :
    let cold : Definition := ⟨"Cold", .enum, "cold", [⟨3⟩, ⟨18⟩, ⟨0⟩, ⟨3⟩]⟩
    let align : Definition := ⟨"Align", .int, "align", [⟨32⟩, ⟨132⟩]⟩
    let k : Catalogue := ⟨fun c => [cold, align].filter (·.category = c), [], []⟩
    (∃ t, PropertyTable.build k = .ok t) ∧
    ∃ numeric symbolic : String,
      sectionText k .numeric .properties = .ok numeric ∧
      sectionText k .symbolic .properties = .ok symbolic ∧
      ∃ numbers expressions : List String,
        readRows numeric = some numbers ∧ readRows symbolic = some expressions ∧
        (∃ number expression names, numbers[0]? = some number ∧ expressions[0]? = some expression ∧
          readExpression? expression = some names ∧ expressionValue? names = readNumber? number) ∧
        ∃ expression names, expressions[1]? = some expression ∧
          readExpression? expression = some names ∧ ∃ name ∈ names, ¬ Property.IsName name := by
  intro cold align k
  have ht : PropertyTable.build k = .ok ⟨[⟨"Cold", .enum, [⟨3⟩, ⟨18⟩, ⟨0⟩, ⟨3⟩], ⟨19⟩⟩,
      ⟨"Align", .int, [⟨32⟩, ⟨132⟩], ⟨164⟩⟩]⟩ := rfl
  obtain ⟨-, numeric, symbolic, hnumeric, hsymbolic, numbers, expressions, hnumbers, hexpressions,
    -, -, hrows⟩ := styles_denote_same_table ht
  obtain ⟨number, expression, names, n, hnumber, hexpression, hread, hnames, -, hvalue⟩ :=
    hrows 0 cold rfl
  obtain ⟨-, expression', names', -, -, hexpression', -, hnames', hunknown, -⟩ := hrows 1 align rfl
  refine ⟨⟨_, ht⟩, numeric, symbolic, hnumeric, hsymbolic, numbers, expressions, hnumbers,
    hexpressions, ⟨number, expression, names, hnumber, hexpression, hnames, ?_⟩,
    expression', names', hexpression', hnames', hunknown.mpr ⟨⟨132⟩, ?_, ?_⟩⟩
  · rw [hread]
    exact hvalue (by decide)
  · decide
  · decide

end Output

end AttributeTables
