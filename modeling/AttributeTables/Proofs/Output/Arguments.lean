import AttributeTables.Proofs.Output.Functions

/-!
# The arguments of rules

The argument of a rule is passed as a string literal. Read from its opening quote on, the literal ends
where the call goes on, and it denotes the argument.
-/

namespace AttributeTables.Output

theorem compatCall_of_argument {rule : CompatRule} {argument : String}
    (h : rule.argument = some argument) :
    (compatCall rule).toList =
      ("  Ret &= " ++ rule.function ++ "(Caller, Callee, \"").toList ++
        ((Text.literal argument).toList ++ '"' :: ");".toList) := by
  simp [compatCall, h]

theorem toList_unlines_functionsLines {k : Catalogue} {before after : List CompatRule}
    {rule : CompatRule} (h : k.compatRules = before ++ rule :: after) :
    (Text.unlines (functionsLines k)).toList =
      (Text.unlines (functionsStart ++ before.map compatCall)).toList ++ ((compatCall rule).toList ++
        '\n' :: (Text.unlines (after.map compatCall ++
          (functionsMiddle ++ (k.mergeRules.map mergeCall ++ functionsEnd)))).toList) := by
  simp [Text.toList_unlines, functionsLines_eq, h]

/-- What is written for a text is read back as that text, whatever follows the closing quote, and
holds no control character. So the literal in the call of each rule denotes the argument of the rule. -/
theorem arguments_read_back (k : Catalogue) (style : Style) :
    (∀ (s : String) (rest : List Char),
      Text.readLiteral ((Text.literal s).toList ++ '"' :: rest) = some (s.toList, rest)) ∧
    (∀ s : String, ∀ x ∈ (Text.literal s).toList, 32 ≤ x.toNat ∧ x.toNat ≠ 127) ∧
    ∃ text, sectionText k style .functions = .ok text ∧
      ∀ before rule after argument, k.compatRules = before ++ rule :: after →
        rule.argument = some argument →
        ∃ literal rest,
          text.toList = (Text.unlines (functionsStart ++ before.map compatCall)).toList ++
            ("  Ret &= " ++ rule.function ++ "(Caller, Callee, \"").toList ++ literal ∧
          Text.readLiteral literal = some (argument.toList, ");\n".toList ++ rest) ∧
          rest = (Text.unlines (after.map compatCall ++
            (functionsMiddle ++ (k.mergeRules.map mergeCall ++ functionsEnd)))).toList := by
  refine ⟨Text.readLiteral_literal, fun s x hx => ?_, Text.unlines (functionsLines k), rfl, ?_⟩
  · exact Text.isAsciiControl_eq_false_iff.mp (Text.isAsciiControl_of_mem_literal hx)
  · intro before rule after argument hrules hargument
    refine ⟨_, _, ?_, Text.readLiteral_literal argument _, rfl⟩
    rw [toList_unlines_functionsLines hrules, compatCall_of_argument hargument]
    simp

-- The digit after a control character is not taken for a part of its number.
example : Text.literal "\x01" ++ "8" = "\\0018" ∧
    Text.readLiteral "\\0018\");".toList = some (['\x01', '8'], [')', ';']) := by
  constructor
  · rfl
  · cbv

end AttributeTables.Output
