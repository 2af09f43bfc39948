import AttributeTables.Registry
import AttributeTables.Toml.Source

/-!
# Manifests

A manifest lists attributes and rules in the order in which they enter a registry. It is written in
TOML.
-/

namespace AttributeTables

/-- An attribute in a manifest. Its tags are given by name. -/
structure AttributeEntry where
  name : String := ""
  category : Category := .enum
  display : String := ""
  properties : List String := []
  deriving DecidableEq

/-- What a manifest lists. -/
structure Manifest where
  attributes : List AttributeEntry := []
  compatRules : List CompatRule := []
  mergeRules : List MergeRule := []
  deriving DecidableEq

/-! ## Schemas -/

/-- How an attribute is written. -/
def AttributeEntry.schema : Toml.Schema AttributeEntry where
  name := "struct ManifestAttr"
  fields :=
    [{ name := "name", keys := ["name"], isOptional := false
       put := fun t e => return { e with name := ← Toml.readString t } },
     { name := "kind", keys := ["kind"], isOptional := false
       put := fun t e =>
        return { e with category := ← Toml.readChoice (Category.all.map fun c => (c.name, c)) t } },
     { name := "display_string", keys := ["AttrString", "display_string"], isOptional := false
       put := fun t e => return { e with display := ← Toml.readString t } },
     { name := "properties", keys := ["Properties", "properties"]
       put := fun t e => return { e with properties := ← Toml.readList Toml.readString t } }]
  blank := {}

/-- How a rule about comparison is written. -/
def CompatRule.schema : Toml.Schema CompatRule where
  name := "struct ManifestCompatRule"
  fields :=
    [{ name := "func", keys := ["CompatFunc", "func"], isOptional := false
       put := fun t r => return { r with function := ← Toml.readString t } },
     { name := "attr", keys := ["AttrName", "attr"]
       put := fun t r => return { r with argument := some (← Toml.readString t) } }]
  blank := ⟨"", none⟩

/-- How a rule about merging is written. -/
def MergeRule.schema : Toml.Schema MergeRule where
  name := "struct ManifestMergeRule"
  fields :=
    [{ name := "func", keys := ["MergeFunc", "func"], isOptional := false
       put := fun t _ => return ⟨← Toml.readString t⟩ }]
  blank := ⟨""⟩

namespace Manifest

/-- How a manifest is written. -/
def schema : Toml.Schema Manifest where
  name := "manifest"
  fields :=
    [{ name := "attr", keys := ["attr"]
       put := fun t m =>
        return { m with attributes := ← Toml.readList AttributeEntry.schema.read t } },
     { name := "compat_rule", keys := ["compat_rule"]
       put := fun t m => return { m with compatRules := ← Toml.readList CompatRule.schema.read t } },
     { name := "merge_rule", keys := ["merge_rule"]
       put := fun t m => return { m with mergeRules := ← Toml.readList MergeRule.schema.read t } }]
  blank := {}

/-! ## Entry into a registry -/

/-- Why the entries of a manifest do not make a registry. -/
inductive Fault where
  /-- The attribute of the given name has a tag with an unknown name. -/
  | unknownProperty (name property : String)
  | refusal (r : Refusal)
  deriving DecidableEq

/-- The text for the user. -/
def Fault.message : Fault → String
  | .unknownProperty name property =>
    "Attribute `" ++ name ++ "` refers to an unknown property `" ++ property ++ "`."
  | .refusal r => r.message

end Manifest

/-- The tags with the given names. -/
def AttributeEntry.tags (e : AttributeEntry) : Except Manifest.Fault (List PropertySet) :=
  e.properties.mapM fun name =>
    match PropertySet.ofName? name with
    | some tag => .ok tag
    | none => .error (.unknownProperty e.name name)

/-- The attribute of the entry. -/
def AttributeEntry.definition (e : AttributeEntry) : Except Manifest.Fault Definition := do
  return ⟨e.name, e.category, e.display, ← e.tags⟩

/-- Adds the attribute to a registry. -/
def AttributeEntry.enter (r : Registry) (e : AttributeEntry) : Except Manifest.Fault Registry := do
  let d ← e.definition
  ((Registry.insert d).result r).mapError .refusal

namespace Manifest

/-- The registry of all entries: first the attributes, then the rules. The first faulty entry
decides. -/
def registry (m : Manifest) : Except Fault Registry := do
  let r ← m.attributes.foldlM AttributeEntry.enter {}
  let r ← m.compatRules.foldlM
    (fun r rule => ((Registry.addCompatRule rule).result r).mapError .refusal) r
  m.mergeRules.foldlM (fun r rule => ((Registry.addMergeRule rule).result r).mapError .refusal) r

/-- The attributes that are added before the first faulty entry. -/
def entered (r : Registry) : List AttributeEntry → List Definition
  | [] => []
  | e :: rest =>
    match e.definition, e.enter r with
    | .ok d, .ok r => d :: entered r rest
    | _, _ => []

/-! ## Source texts -/

/-- Why a text is no manifest. -/
inductive Failure where
  | defect (file source : String) (d : Toml.Defect)
  | fault (f : Fault)
  deriving DecidableEq

/-- The text for the user. -/
def Failure.message : Failure → String
  | .defect file source d =>
    "Failed to parse attribute manifest '" ++ file ++ "': " ++ d.render source
  | .fault f => f.message

/-- The registry of a manifest in the given file. -/
def load (file source : String) : Except Failure Registry := do
  let m ← (schema.readSource source).mapError (.defect file source)
  m.registry.mapError .fault

/-- What a manifest reports: each attribute on its entry, then how many there are. -/
def loadRecords (file source : String) : List Log.Record :=
  match schema.readSource source with
  | .error _ => []
  | .ok m =>
    (entered {} m.attributes).flatMap Definition.records ++
      match m.registry with
      | .ok r =>
        [⟨.info, "hyattr::manifest", "Loaded " ++ toString r.size ++
          " attribute definitions from '" ++ file ++ "'"⟩]
      | .error _ => []

end Manifest

end AttributeTables
