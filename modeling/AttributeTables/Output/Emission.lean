import AttributeTables.Output.Bounded

/-!
# Emission piece by piece

A section is emitted in many small pieces: the fixed texts of a line and the names and numbers between
them. Whoever emits into a bounded writer stops at the piece at which the writer gives up.
-/

namespace AttributeTables.Output

/-- A step that writes into a bounded writer. -/
abbrev Writing := ExceptT BoundedFailure (StateM Bounded)

namespace Writing

/-- Writes a piece. -/
def put (s : String) : Writing Unit := do
  modify (·.write s)
  if (← get).isOver then throw .full

/-- Writes pieces one after the other. -/
def putAll (pieces : List String) : Writing Unit := pieces.forM put

/-- What has to be there before the first piece is written. -/
def require (result : Except Failure α) : Writing α :=
  ExceptT.mk (pure (result.mapError .generation))

/-! ## Sections -/

/-- Opens a section. -/
def opening (s : Section) : Writing Unit := do
  putAll ["#ifdef ", s.toggle, "\n"]
  putAll ["#undef ", s.toggle, "\n"]

/-- Writes the table of a group. -/
def group (k : Catalogue) (g : NameGroup) : Writing Unit := do
  putAll ["#ifndef ", g.callback, "\n"]
  putAll ["#define ", g.callback, "(FIRST, SECOND) ", fallbackCallback, "(FIRST, SECOND)\n"]
  putAll ["#endif\n"]
  putAll ["\n"]
  g.categories.forM fun c => (k.listed c).forM fun d =>
    putAll [g.callback, "(", d.name, ",", d.display, ")\n"]
  putAll ["#undef ", g.callback, "\n"]
  putAll ["\n"]

/-- Writes the section of the name tables. -/
def names (k : Catalogue) : Writing Unit := do
  opening .names
  putAll ["#ifndef ", fallbackCallback, "\n"]
  putAll ["#define ", fallbackCallback, "(FIRST, SECOND)\n"]
  putAll ["#endif\n"]
  putAll ["\n"]
  NameGroup.all.forM (group k)
  putAll ["#undef ", fallbackCallback, "\n"]
  putAll ["#endif\n"]
  putAll ["\n"]

/-- Writes the ranges in order, each with the entries at the front of the list that belong to its
category. -/
def brackets : List (Category × CodeRange) → List CodeEntry → Writing Unit
  | [], _ => return
  | (c, range) :: ranges, entries => do
    putAll ["First", c.name, " = ", toString range.first.toNat, ",\n"]
    (entries.takeWhile (·.category == c)).forM fun e =>
      putAll [e.name, " = ", toString e.code.toNat, ",\n"]
    putAll ["Last", c.name, " = ", toString range.last.toNat, ",\n"]
    brackets ranges (entries.dropWhile (·.category == c))

/-- Writes the section of the enumerators. -/
def enumerators (l : Layout) : Writing Unit := do
  opening .enumerators
  brackets l.ranges l.entries
  putAll ["#endif\n"]
  putAll ["\n"]

/-- Writes the last argument of a call, if there is one. -/
def lastArgument : Option String → Writing Unit
  | some argument => putAll [", \"", Text.literal argument, "\""]
  | none => return

/-- Writes the call of a compatibility rule. -/
def compatCall (rule : CompatRule) : Writing Unit := do
  putAll ["  Ret &= ", rule.function, "(Caller, Callee"]
  lastArgument rule.argument
  putAll [");\n"]

/-- Writes the head of a function. -/
def functionHead (opening caller : String) : Writing Unit := do
  putAll [opening, caller ++ "\n"]
  putAll [Text.spaces opening.utf8ByteSize, "const Function &Callee) \x7b\n"]

/-- Writes the section of the functions. -/
def functions (k : Catalogue) : Writing Unit := do
  opening .functions
  functionHead ("static inline bool " ++ compatFunction ++ "(") "const Function &Caller,"
  putAll ["  bool Ret = true;\n"]
  putAll ["\n"]
  k.compatRules.forM compatCall
  putAll ["\n"]
  putAll ["  return Ret;\n"]
  putAll ["\x7d\n"]
  putAll ["\n"]
  functionHead ("static inline void " ++ mergeFunction ++ "(") "Function &Caller,"
  k.mergeRules.forM fun rule => putAll ["  ", rule.function, "(Caller, Callee);\n"]
  putAll ["\x7d\n"]
  putAll ["\n"]
  putAll ["#endif\n"]
  putAll ["\n"]

/-- Writes the row of an attribute. -/
def row (style : Style) (e : PropertyEntry) : Writing Unit :=
  match style with
  | .numeric => putAll [toString e.flags.bits.toNat, ",\n"]
  | .symbolic => do
    putAll ["0"]
    (e.tags.flatMap PropertySet.items).forM fun item => putAll [" | AttributeProperty::", item.name]
    putAll [",\n"]

/-- Writes the section of the property table. -/
def properties (style : Style) (t : PropertyTable) : Writing Unit := do
  opening .properties
  putAll ["static const uint8_t ", tableName, "[] = \x7b\n"]
  t.entries.forM (row style)
  putAll ["\x7d;\n"]
  putAll ["#endif\n"]

/-- Writes a section. What the section needs is built before its first piece is written. -/
def ofSection (k : Catalogue) (style : Style) : Section → Writing Unit
  | .names => names k
  | .enumerators => do enumerators (← require (layout k))
  | .functions => functions k
  | .properties => do properties style (← require (table k))

end Writing

/-- Emits a section into a writer, which is there afterwards in either case. -/
def emitSection (k : Catalogue) (style : Style) (s : Section) (w : Bounded) :
    Except BoundedFailure Unit × Bounded :=
  (Writing.ofSection k style s).run.run w

end AttributeTables.Output
