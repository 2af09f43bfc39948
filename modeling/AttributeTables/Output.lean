import AttributeTables.Output.Banner
import AttributeTables.Output.Enumerators
import AttributeTables.Output.Functions
import AttributeTables.Output.Names
import AttributeTables.Output.Properties

/-!
# The generated text

A banner and four sections, each guarded by a symbol of its own. Everything is checked before the
first line is written, so a failure leaves no text behind.
-/

namespace AttributeTables.Output

/-- Why a catalogue has no generated text. -/
inductive Failure where
  | conflict (c : Conflict)
  /-- There are more attributes than codes. -/
  | overflow (o : Overflow)
  deriving DecidableEq

/-- The text for the user. -/
def Failure.message : Failure → String
  | .conflict c => c.message
  | .overflow o => o.message

/-- The layout, as part of a generation. -/
def layout (k : Catalogue) : Except Failure Layout := (Layout.assign k).mapError .overflow

/-- The property table, as part of a generation. -/
def table (k : Catalogue) : Except Failure PropertyTable := (PropertyTable.build k).mapError .conflict

/-- The lines of one section. -/
def sectionLines (k : Catalogue) (style : Style) : Section → Except Failure (List String)
  | .names => .ok (namesLines k)
  | .enumerators => (layout k).map enumeratorsLines
  | .functions => .ok (functionsLines k)
  | .properties => (table k).map (propertiesLines style)

/-- The text of one section. -/
def sectionText (k : Catalogue) (style : Style) (s : Section) : Except Failure String :=
  (sectionLines k style s).map Text.unlines

/-- The whole text. -/
def generate (k : Catalogue) (options : Options) : Except Failure String := do
  let layout ← layout k
  let table ← table k
  return Text.unlines (headerLines options ++ namesLines k ++ enumeratorsLines layout ++
    functionsLines k ++ propertiesLines options.style table)

/-- The sections of a list one after the other. -/
def sectionTexts (k : Catalogue) (style : Style) : List Section → Except Failure String
  | [] => .ok ""
  | s :: rest => do
    let first ← sectionText k style s
    let others ← sectionTexts k style rest
    return first ++ others

/-- The selected sections in the order of the text, without the banner. The property table is
checked first. -/
def generateSections (k : Catalogue) (style : Style) (selected : List Section) :
    Except Failure String := do
  if selected.contains .properties then
    let _ ← table k
  sectionTexts k style (Section.all.filter selected.contains)

/-! ## Records -/

/-- What a layout reports, if there is one. -/
def layoutRecords (k : Catalogue) : List Log.Record :=
  match Layout.assign k with
  | .ok layout => layout.records
  | .error _ => []

/-- What a property table reports, if there is one. -/
def tableRecords (k : Catalogue) : List Log.Record :=
  match PropertyTable.build k with
  | .ok table => table.records
  | .error _ => []

/-- What a section reports. -/
def sectionRecords (k : Catalogue) : Section → List Log.Record
  | .enumerators => layoutRecords k
  | .properties => tableRecords k
  | .names | .functions => []

/-- What a selection of sections reports: the check comes first, and if it fails nothing follows. -/
def selectionRecords (k : Catalogue) (selected : List Section) : List Log.Record :=
  let sections := (Section.all.filter selected.contains).flatMap (sectionRecords k)
  if selected.contains .properties then
    match table k with
    | .ok table => table.records ++ sections
    | .error _ => []
  else sections

/-- What the whole text reports at the end. -/
def summary (k : Catalogue) (layout : Layout) (text : String) : Log.Record :=
  ⟨.info, "hyattr::emit", "Generated " ++ toString layout.size ++ " attribute codes, " ++
    toString k.compatRules.length ++ " compat rules, " ++ toString k.mergeRules.length ++
    " merge rules (" ++ toString text.utf8ByteSize ++ " bytes)"⟩

/-- What the whole text reports. -/
def generationRecords (k : Catalogue) (options : Options) : List Log.Record :=
  layoutRecords k ++ tableRecords k ++
    match Layout.assign k, generate k options with
    | .ok layout, .ok text => [summary k layout text]
    | _, _ => []

end AttributeTables.Output
