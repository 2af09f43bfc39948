import AttributeTables.Proofs.Output.Selections
import AttributeTables.Proofs.Preprocessor.Comments
import AttributeTables.Proofs.Text.Lines

/-!
# The banner as a comment

The name of the source is written into the banner as it is. All other lines of the banner keep the
comment open up to the last one, and a blank stands before and after the name, so the comment ends
too early exactly if the name itself closes it.
-/

namespace AttributeTables.Output

open Preprocessor

variable {options : Options} {s : String} {cs rest : List Char}

/-! ## Lines of the banner -/

/-- A line of the banner, with the blank after its text. -/
theorem toList_bannerLine (s : String) :
    (bannerLine s).toList = '|' :: '*' :: ' ' :: (s.toList ++
      ' ' :: (List.replicate (bannerWidth - 6 - s.utf8ByteSize) ' ' ++ ['*', '|'])) := by
  have hblank : ∀ n, List.replicate n ' ' ++ [' ', '*', '|'] =
      ' ' :: (List.replicate n ' ' ++ ['*', '|']) := by
    intro n
    rw [← List.singleton_append, ← List.append_assoc, ← List.replicate_succ', List.replicate_succ,
      List.cons_append]
  rw [← hblank]
  simp [bannerLine, Text.spaces]

theorem splice_bannerLine (s : String) (ds : List Char) :
    splice ((bannerLine s).toList ++ '\n' :: ds) = '|' :: '*' :: ' ' :: (splice s.toList ++
      ' ' :: splice (List.replicate (bannerWidth - 6 - s.utf8ByteSize) ' ' ++
        '*' :: '|' :: '\n' :: ds)) := by
  rw [toList_bannerLine]
  simp only [List.cons_append, List.append_assoc, List.nil_append]
  rw [splice_cons (by decide), splice_cons (by decide), splice_cons (by decide),
    splice_append_cons (by decide) (by decide)]

/-- A line of the banner leaves a comment open if its text does. -/
theorem closeComment?_bannerLine (h : closeComment? (splice s.toList) = none) (ds : List Char) :
    closeComment? (splice ((bannerLine s).toList ++ '\n' :: ds)) = closeComment? (splice ds) := by
  let padding := List.replicate (bannerWidth - 6 - s.utf8ByteSize) ' '
  calc closeComment? (splice ((bannerLine s).toList ++ '\n' :: ds))
    _ = closeComment? (splice s.toList ++ ' ' :: splice (padding ++ '*' :: '|' :: '\n' :: ds)) := by
      rw [splice_bannerLine]
      rfl
    _ = closeComment? (splice (padding ++ '*' :: '|' :: '\n' :: ds)) := by
      rw [closeComment?_append_cons h (by decide), closeComment?_cons (by decide)]
    _ = closeComment? (splice ('*' :: '|' :: '\n' :: ds)) :=
      closeComment?_splice_replicate (by decide) _ _
    _ = closeComment? (splice ds) := by
      rw [splice_cons (by decide), splice_cons (by decide), splice_cons (by decide)]
      rfl

/-- Otherwise the comment ends before the blank after the text. -/
theorem closeComment?_bannerLine_of_some (h : closeComment? (splice s.toList) = some rest)
    (ds : List Char) :
    ∃ after, closeComment? (splice ((bannerLine s).toList ++ '\n' :: ds)) =
      some (rest ++ ' ' :: after) := by
  rw [splice_bannerLine]
  exact ⟨_, closeComment?_append h _⟩

/-- Lines of the banner leave a comment open if the text of each does. -/
theorem closeComment?_bannerLines {texts : List String}
    (h : ∀ s ∈ texts, closeComment? (splice s.toList) = none) (ds : List Char) :
    closeComment? (splice ((Text.unlines (texts.map bannerLine)).toList ++ ds)) =
      closeComment? (splice ds) := by
  rw [Text.toList_unlines, List.flatMap_map]
  induction texts with
  | nil => rfl
  | cons s texts ih =>
      obtain ⟨hs, htexts⟩ := List.forall_mem_cons.mp h
      rw [List.flatMap_cons, List.append_assoc, List.append_assoc, List.singleton_append,
        closeComment?_bannerLine hs, ih htexts]

/-- The first line leaves the comment open, although a star stands before the backslash at its
end. -/
theorem closeComment?_bannerTop :
    ∃ top, bannerTop.toList = '/' :: '*' :: top ∧ ∀ ds,
      closeComment? (splice (top ++ '\n' :: '|' :: ds)) = closeComment? (splice ('|' :: ds)) := by
  refine ⟨"===- Generated file ".toList ++ List.replicate 43 '-' ++ "*- C++ -*-===*\\".toList, rfl,
    fun ds => ?_⟩
  rw [List.append_assoc, List.append_assoc, closeComment?_splice_append (by simp),
    closeComment?_splice_replicate (by decide)]
  rfl

/-- The last line closes the comment at its end. -/
theorem closeComment?_bannerBottom :
    ∃ bottom, bannerBottom.toList = bottom ++ ['*', '/'] ∧
      closeComment? (splice bannerBottom.toList) = some [] := by
  have hlist : bannerBottom.toList = '\\' :: '*' :: (List.replicate 76 '=' ++ ['*', '/']) := rfl
  refine ⟨'\\' :: '*' :: List.replicate 76 '=', hlist, ?_⟩
  rw [hlist]
  exact closeComment?_splice_replicate (by decide : '=' ≠ '*' ∧ '=' ≠ '\\') 76 ['*', '/']

/-! ## The comment of the banner -/

/-- The lines before the source are the same in every banner. -/
def fixedTexts : List String := ["", description, "", "Automatically generated file, do not edit!"]

/-- The line that names the source, if there is one, and the one after it. -/
def sourceTexts (options : Options) : List String :=
  options.sourceName.toList.map ("From: " ++ ·) ++ [""]

/-- The banner without the line end of its last line and the empty line after it. -/
def bannerComment (options : Options) : String :=
  Text.unlines (bannerTop :: (fixedTexts.map bannerLine ++ (sourceTexts options).map bannerLine)) ++
    bannerBottom

theorem unlines_bannerLines (options : Options) :
    Text.unlines (bannerLines options) = bannerComment options ++ "\n\n" := by
  have hlines : bannerLines options = bannerTop :: (fixedTexts.map bannerLine ++
      (sourceTexts options).map bannerLine) ++ [bannerBottom, ""] := by
    cases h : options.sourceName <;> simp [bannerLines, fixedTexts, sourceTexts, sourceLines, h]
  rw [hlines, Text.unlines_append, bannerComment, String.append_assoc]
  rfl

theorem toList_bannerComment (options : Options) :
    (bannerComment options).toList = bannerTop.toList ++ '\n' ::
      ((Text.unlines (fixedTexts.map bannerLine)).toList ++
        ((Text.unlines ((sourceTexts options).map bannerLine)).toList ++ bannerBottom.toList)) := by
  rw [bannerComment, String.toList_append]
  simp only [Text.toList_unlines, List.flatMap_cons, List.flatMap_append, List.append_assoc,
    List.cons_append, List.nil_append]

/-- It starts with an opener and ends with a closer. -/
theorem exists_toList_bannerComment (options : Options) :
    ∃ body, (bannerComment options).toList = '/' :: '*' :: (body ++ ['*', '/']) := by
  obtain ⟨top, htop, -⟩ := closeComment?_bannerTop
  obtain ⟨bottom, hbottom, -⟩ := closeComment?_bannerBottom
  rw [toList_bannerComment, htop, hbottom, ← List.append_assoc, ← List.append_assoc,
    ← List.cons_append, ← List.append_assoc]
  exact ⟨_, rfl⟩

theorem closeComment?_fixedTexts : ∀ s ∈ fixedTexts, closeComment? (splice s.toList) = none := by
  decide

/-- The comment is still open where the source is named. -/
theorem afterComment?_bannerComment (options : Options) (ds : List Char) :
    afterComment? (splice ((bannerComment options).toList ++ ds)) =
      closeComment? (splice ((Text.unlines ((sourceTexts options).map bannerLine)).toList ++
        (bannerBottom.toList ++ ds))) := by
  obtain ⟨top, htop, hopen⟩ := closeComment?_bannerTop
  have hfixed : ∃ fixed, (Text.unlines (fixedTexts.map bannerLine)).toList = '|' :: fixed := by
    rw [fixedTexts, List.map_cons, Text.toList_unlines, List.flatMap_cons, toList_bannerLine]
    exact ⟨_, rfl⟩
  obtain ⟨fixed, hfixed⟩ := hfixed
  rw [← closeComment?_bannerLines closeComment?_fixedTexts, hfixed, List.cons_append, ← hopen,
    ← afterComment?_splice, toList_bannerComment, htop, hfixed]
  simp only [List.cons_append, List.append_assoc]

/-! ## The source in the comment -/

/-- The name of the source, if there is one, has no end of a comment in it, also when its lines are
spliced. -/
def Options.ClosesNoComment (options : Options) : Prop :=
  ∀ source, options.sourceName = some source → ¬ ['*', '/'] <:+: splice source.toList

theorem closeComment?_sourceText (source : String) :
    closeComment? (splice ("From: " ++ source).toList) = closeComment? (splice source.toList) := by
  rw [String.toList_append]
  exact closeComment?_splice_append (by simp) source.toList

theorem Options.ClosesNoComment.sourceTexts (h : options.ClosesNoComment) :
    ∀ s ∈ sourceTexts options, closeComment? (splice s.toList) = none := by
  intro s hs
  rcases List.mem_append.mp hs with hs | hs
  · obtain ⟨source, hsource, rfl⟩ := List.mem_map.mp hs
    rw [closeComment?_sourceText, closeComment?_eq_none_iff]
    exact h source (Option.mem_toList.mp hsource)
  · rw [List.mem_singleton.mp hs]
    rfl

/-- If the source closes the comment, the rest of its name is read as code. -/
theorem afterComment?_bannerComment_of_some {source : String}
    (hsource : options.sourceName = some source)
    (hclose : closeComment? (splice source.toList) = some rest) (ds : List Char) :
    ∃ after, afterComment? (splice ((bannerComment options).toList ++ ds)) =
      some (rest ++ ' ' :: after) := by
  rw [← closeComment?_sourceText] at hclose
  obtain ⟨after, hafter⟩ := closeComment?_bannerLine_of_some hclose
    ((Text.unlines [bannerLine ""]).toList ++ (bannerBottom.toList ++ ds))
  refine ⟨after, ?_⟩
  rw [afterComment?_bannerComment, sourceTexts, hsource, ← hafter]
  simp [Text.toList_unlines]

/-- The comment of the banner is one comment, unless the source closes it. -/
theorem isBlockComment_bannerComment_iff :
    IsBlockComment (bannerComment options).toList ↔ options.ClosesNoComment := by
  obtain ⟨body, hbody⟩ := exists_toList_bannerComment options
  obtain ⟨-, -, hbottom⟩ := closeComment?_bannerBottom
  rw [hbody, isBlockComment_iff, ← hbody, ← List.append_nil (bannerComment options).toList]
  constructor
  · intro h source hsource hcloser
    cases hclose : closeComment? (splice source.toList) with
    | none => exact closeComment?_eq_none_iff.mp hclose hcloser
    | some rest =>
        obtain ⟨after, hafter⟩ := afterComment?_bannerComment_of_some hsource hclose []
        rw [hafter] at h
        simp at h
  · intro h
    rw [afterComment?_bannerComment, closeComment?_bannerLines h.sourceTexts, List.append_nil,
      hbottom]

/-! ## The banner of a text -/

/-- The whole text is the comment of the banner, the end of its last line, an empty line, and the
sections. -/
theorem toList_generate {k : Catalogue} {text : String} (hheader : options.header = true)
    (h : generate k options = .ok text) :
    ∃ sections, generateSections k options.style Section.all = .ok sections ∧
      text = Text.unlines (headerLines options) ++ sections ∧
      text.toList = (bannerComment options).toList ++ '\n' :: '\n' :: sections.toList := by
  obtain ⟨sections, hsections, rfl⟩ := exists_sections_of_generate h
  refine ⟨sections, hsections, rfl, ?_⟩
  rw [headerLines, if_pos hheader, unlines_bannerLines]
  simp

/-- With the header on, the banner before the sections is one block comment and an empty line if and
only if the name of the source does not close the comment. Then two line ends are all that a
compiler reads between the comment and the sections, so no part of the name is code. -/
theorem banner_comment_iff (options : Options) (hheader : options.header = true) :
    ((∃ comment : String, Text.unlines (headerLines options) = comment ++ "\n\n" ∧
        IsBlockComment comment.toList) ↔ options.ClosesNoComment) ∧
    ∀ (k : Catalogue) (text : String), generate k options = .ok text →
      ∃ sections, generateSections k options.style [.names, .enumerators, .functions, .properties] =
          .ok sections ∧
        text = Text.unlines (headerLines options) ++ sections ∧
        (options.ClosesNoComment →
          afterComment? (splice text.toList) = some ('\n' :: '\n' :: splice sections.toList)) := by
  have hbanner : Text.unlines (headerLines options) = bannerComment options ++ "\n\n" := by
    rw [headerLines, if_pos hheader, unlines_bannerLines]
  rw [hbanner, ← isBlockComment_bannerComment_iff]
  refine ⟨⟨?_, fun h => ⟨_, rfl, h⟩⟩, fun k text htext => ?_⟩
  · rintro ⟨comment, hcomment, h⟩
    rwa [(String.append_left_inj _).mp hcomment]
  · obtain ⟨sections, hsections, heq, hlist⟩ := toList_generate hheader htext
    refine ⟨sections, hsections, hbanner ▸ heq, fun h => ?_⟩
    rw [hlist, h.afterComment?_append]
    rfl

/-- A name with stars, slashes and backslashes that never meet to close the comment. -/
theorem banner_comment_iff_stars :
    let options : Options := { sourceName := some "/*\\* \\\n *.toml*\\" }
    let k : Catalogue := ⟨fun _ => [], [], []⟩
    options.header = true ∧ options.ClosesNoComment ∧
    (∃ comment : String, Text.unlines (headerLines options) = comment ++ "\n\n" ∧
      IsBlockComment comment.toList) ∧
    ∃ text sections, generate k options = .ok text ∧
      afterComment? (splice text.toList) = some ('\n' :: '\n' :: splice sections) := by
  intro options k
  have hcloses : options.ClosesNoComment := by
    rintro source ⟨⟩
    decide
  obtain ⟨hcomment, hread⟩ := banner_comment_iff options rfl
  obtain ⟨text, htext⟩ : ∃ text, generate k options = .ok text := ⟨_, rfl⟩
  obtain ⟨sections, -, -, hafter⟩ := hread k text htext
  exact ⟨rfl, hcloses, hcomment.mpr hcloses, text, sections.toList, htext, hafter hcloses⟩

/-- A name that closes the comment. What follows in it is compiled. -/
theorem banner_closed_by_source :
    let options : Options := { sourceName := some "*/int x;/*" }
    let k : Catalogue := ⟨fun _ => [], [], []⟩
    options.header = true ∧
    (¬ ∃ comment : String, Text.unlines (headerLines options) = comment ++ "\n\n" ∧
      IsBlockComment comment.toList) ∧
    ∃ text rest, generate k options = .ok text ∧
      afterComment? (splice text.toList) = some ("int x;/*".toList ++ ' ' :: rest) := by
  intro options k
  have hclose : closeComment? (splice "*/int x;/*".toList) = some "int x;/*".toList := by decide
  refine ⟨rfl, ?_, ?_⟩
  · rintro ⟨comment, hcomment, h⟩
    rw [headerLines, if_pos rfl, unlines_bannerLines] at hcomment
    rw [← (String.append_left_inj _).mp hcomment] at h
    have hnone := closeComment?_eq_none_iff.mpr (isBlockComment_bannerComment_iff.mp h _ rfl)
    cases hclose.symm.trans hnone
  · obtain ⟨text, htext⟩ : ∃ text, generate k options = .ok text := ⟨_, rfl⟩
    obtain ⟨sections, -, -, hlist⟩ := toList_generate rfl htext
    have hsource : options.sourceName = some "*/int x;/*" := rfl
    obtain ⟨rest, hrest⟩ := afterComment?_bannerComment_of_some hsource hclose
      ('\n' :: '\n' :: sections.toList)
    exact ⟨text, rest, htext, by rw [hlist, hrest]⟩

end AttributeTables.Output
