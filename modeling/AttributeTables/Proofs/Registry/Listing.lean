import AttributeTables.Proofs.Output.Reading
import AttributeTables.Proofs.PropertyTable.Names
import AttributeTables.Proofs.Registry.History
import AttributeTables.Proofs.Text.Quotations
import AttributeTables.Registry.Listing

/-!
# The definitions in a listing

A listing tells the definitions of a registry apart. The lines of the definitions do not break, and the
heading of a category tells how many of them follow. So it does no harm that the rules after them are
written as they are, and may look like anything.
-/

namespace AttributeTables

/-- What a listing shows of an attribute. -/
def Definition.shown (d : Definition) : String × String × PropertySet := (d.name, d.display, d.mask)

variable {d e : Definition}

/-! ## Lines of equal texts -/

theorem Text.unlines_cons_append_inj {line line' : String} {lines lines' : List String}
    {x y : List Char} (hline : IsLine line) (hline' : IsLine line')
    (h : (unlines (line :: lines)).toList ++ x = (unlines (line' :: lines')).toList ++ y) :
    line = line' ∧ (unlines lines).toList ++ x = (unlines lines').toList ++ y := by
  have hbreak : ∀ {line : String}, IsLine line → '\n' ∉ line.toList :=
    fun hline hmem => (hline _ hmem).1 rfl
  simp only [toList_unlines, List.flatMap_cons, List.append_assoc, List.singleton_append] at h
  obtain ⟨heq, hrest⟩ := append_cons_inj (hbreak hline) (hbreak hline') h
  rw [toList_unlines, toList_unlines]
  exact ⟨String.toList_inj.mp heq, hrest⟩

namespace Listing

-- The equation that `heading` gets by itself takes seconds to derive.
theorem heading_eq (title : String) (n : Nat) : heading title n =
    "------------- " ++ title ++ " (" ++ toString n ++ ") -------------" := rfl

theorem isLine_heading {title : String} (htitle : Text.IsLine title) (n : Nat) :
    Text.IsLine (heading title n) := by
  rw [heading_eq]
  simp only [Text.isLine_append]
  exact ⟨⟨⟨⟨by decide, htitle⟩, by decide⟩, Text.isLine_toString n⟩, by decide⟩

theorem heading_inj {title : String} {m n : Nat} (h : heading title m = heading title n) : m = n := by
  have hcount := congrArg String.toList h
  simp only [heading_eq, String.toList_append, List.append_cancel_left_eq, List.append_cancel_right_eq,
    Nat.toString_eq_repr, Nat.toList_repr] at hcount
  rw [← Nat.ofDigitChars_ten_toDigits (n := m), hcount, Nat.ofDigitChars_ten_toDigits]

theorem isLine_definitionLine (hd : Text.IsIdentifier d.name) : Text.IsLine (definitionLine d) := by
  simp only [definitionLine, Text.isLine_append]
  exact ⟨⟨⟨⟨⟨⟨by decide, hd.isLine⟩, by decide⟩, Text.isLine_quoted d.display⟩, by decide⟩,
    d.mask.isLine_text⟩, by decide⟩

/-- The line of an attribute tells all that it shows. -/
theorem definitionLine_inj (hd : Text.IsIdentifier d.name) (he : Text.IsIdentifier e.name)
    (h : definitionLine d = definitionLine e) :
    d.shown = e.shown := by
  have hline : ∀ d : Definition, (definitionLine d).toList = "def ".toList ++ (d.name.toList ++
      ' ' :: ("\x7b display = ".toList ++ ((Text.quoted d.display).toList ++
        (", properties = ".toList ++ (d.mask.text.toList ++ " \x7d".toList))))) := by
    intro d
    simp [definitionLine]
  have heq := congrArg String.toList h
  rw [hline, hline] at heq
  obtain ⟨hname, hrest⟩ := Text.append_cons_inj (hd.not_mem rfl) (he.not_mem rfl)
    (List.append_cancel_left heq)
  obtain ⟨hdisplay, hrest⟩ := Text.quoted_append_inj (List.append_cancel_left hrest)
  have hmask := List.append_cancel_right (List.append_cancel_left hrest)
  rw [Definition.shown, Definition.shown, String.toList_inj.mp hname, hdisplay,
    PropertySet.text_injective (String.toList_inj.mp hmask)]

theorem definitionLines_append_inj {ds es : List Definition} {x y : List Char}
    (hlength : ds.length = es.length) (hds : ∀ d ∈ ds, Text.IsIdentifier d.name)
    (hes : ∀ e ∈ es, Text.IsIdentifier e.name)
    (h : (Text.unlines (ds.map definitionLine)).toList ++ x =
      (Text.unlines (es.map definitionLine)).toList ++ y) :
    ds.map Definition.shown = es.map Definition.shown ∧ x = y := by
  induction ds generalizing es with
  | nil =>
      cases List.length_eq_zero_iff.mp hlength.symm
      exact ⟨rfl, h⟩
  | cons d ds ih =>
      obtain ⟨e, es, rfl⟩ := List.exists_cons_of_length_eq_add_one hlength.symm
      obtain ⟨hd, hds⟩ := List.forall_mem_cons.mp hds
      obtain ⟨he, hes⟩ := List.forall_mem_cons.mp hes
      obtain ⟨hline, hlines⟩ :=
        Text.unlines_cons_append_inj (isLine_definitionLine hd) (isLine_definitionLine he) h
      obtain ⟨hothers, hxy⟩ := ih (Nat.succ.inj hlength) hds hes hlines
      rw [List.map_cons, List.map_cons, definitionLine_inj hd he hline, hothers]
      exact ⟨rfl, hxy⟩

end Listing

namespace Registry

/-- The part of the listing before the rules tells the definitions of every category, whatever follows
it. -/
theorem WellFormed.categoryLines_append_inj {r r' : Registry} (h : r.WellFormed) (h' : r'.WellFormed)
    {cs : List Category} {x y : List Char}
    (heq : (Text.unlines (cs.flatMap r.categoryLines)).toList ++ x =
      (Text.unlines (cs.flatMap r'.categoryLines)).toList ++ y) :
    ∀ c ∈ cs, (r.listed c).map Definition.shown = (r'.listed c).map Definition.shown := by
  induction cs with
  | nil => exact fun _ hc => absurd hc List.not_mem_nil
  | cons c cs ih =>
      have htitle : Text.IsLine c.name := by cases c <;> decide
      rw [List.flatMap_cons, List.flatMap_cons, categoryLines, categoryLines, List.cons_append,
        List.cons_append] at heq
      obtain ⟨hheading, hlines⟩ := Text.unlines_cons_append_inj (Listing.isLine_heading htitle _)
        (Listing.isLine_heading htitle _) heq
      rw [Text.unlines_append, Text.unlines_append, String.toList_append, String.toList_append,
        List.append_assoc, List.append_assoc] at hlines
      -- The heading gives the same count on both sides, so both run out of definitions together.
      obtain ⟨hdefinitions, hothers⟩ := Listing.definitionLines_append_inj
        (Listing.heading_inj hheading) (h.identifier c) (h'.identifier c) hlines
      exact List.forall_mem_cons.mpr ⟨hdefinitions, ih hothers⟩

/-- Registries with the same listing have the same definitions in every category, by name, display
string and tags. -/
theorem definitions_eq_of_listing_eq {calls calls' : List Call}
    (h : (ofCalls calls).listing = (ofCalls calls').listing) (c : Category) :
    ((ofCalls calls).listed c).map Definition.shown =
      ((ofCalls calls').listed c).map Definition.shown := by
  have heq := congrArg String.toList h
  simp only [listing, listingLines, Text.unlines_append, String.toList_append, List.append_assoc] at heq
  exact (wellFormed_ofCalls calls).categoryLines_append_inj (wellFormed_ofCalls calls') heq c
    (by cases c <;> decide)

/-- Tags given in two ways, a call that is refused, and rules that look the same: a string to pass, and
a function with that string in its name. -/
theorem definitions_eq_of_listing_eq_rules :
    let display := "\"\\\u200b\x7d"
    let calls : List Call := [.insert ⟨"Odd", .strBool, display, [⟨129⟩, ⟨2⟩]⟩,
      .compatRule ⟨"check", some "x"⟩, .insert ⟨"Odd", .enum, "odd", []⟩]
    let calls' : List Call := [.compatRule ⟨"check \"x\"", none⟩,
      .insert ⟨"Odd", .strBool, display, [⟨131⟩]⟩]
    (ofCalls calls).listing = (ofCalls calls').listing ∧
      ((ofCalls calls).listed .strBool).map Definition.shown =
        ((ofCalls calls').listed .strBool).map Definition.shown ∧
      ((ofCalls calls').listed .strBool).map Definition.shown = [("Odd", display, ⟨131⟩)] := by
  intro display calls calls'
  have h : (ofCalls calls).listing = (ofCalls calls').listing := by decide +kernel
  exact ⟨h, definitions_eq_of_listing_eq h .strBool, by decide⟩

end Registry

end AttributeTables
