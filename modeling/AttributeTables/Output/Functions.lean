import AttributeTables.Catalogue
import AttributeTables.Output.Options
import AttributeTables.Text.CLiteral
import AttributeTables.Text.Lines

/-!
# The functions on attribute sets

A function that calls every compatibility rule, also after one of them has failed, and a function
that calls every merge rule.
-/

namespace AttributeTables.Output

/-- The function that compares the attributes of a caller and a callee. -/
def compatFunction : String := "hasCompatibleFnAttrs"

/-- The function that merges the attributes of a callee into those of a caller. -/
def mergeFunction : String := "mergeFnAttrs"

/-- The head of a function with two parameters, the second one aligned with the first. -/
def functionHead (opening caller : String) : List String :=
  [opening ++ caller,
    Text.spaces opening.utf8ByteSize ++ "const Function &Callee) \x7b"]

/-- The call of a compatibility rule. -/
def compatCall (rule : CompatRule) : String :=
  "  Ret &= " ++ rule.function ++ "(Caller, Callee" ++
    (match rule.argument with
    | some argument => ", \"" ++ Text.literal argument ++ "\""
    | none => "") ++
    ");"

/-- The call of a merge rule. -/
def mergeCall (rule : MergeRule) : String := "  " ++ rule.function ++ "(Caller, Callee);"

/-- The section of the functions. -/
def functionsLines (k : Catalogue) : List String :=
  Section.functions.opening ++
  functionHead ("static inline bool " ++ compatFunction ++ "(") "const Function &Caller," ++
  ["  bool Ret = true;", ""] ++
  k.compatRules.map compatCall ++
  ["", "  return Ret;", "\x7d", ""] ++
  functionHead ("static inline void " ++ mergeFunction ++ "(") "Function &Caller," ++
  k.mergeRules.map mergeCall ++
  ["\x7d", "", "#endif", ""]

end AttributeTables.Output
