import AttributeTables.Text.Lines
import AttributeTables.Toml.Misfit

/-!
# Excerpts

A misfit is shown with the line of the document that it is on, and with marks under its place.
-/

namespace AttributeTables.Toml

/-- The size of a text in bytes. -/
def byteSize (cs : List Char) : Nat := (String.ofList cs).utf8ByteSize

/-- The number of marks: a mark for each byte of the span that is on the line, one at least. -/
def markCount (source : List Char) (span : Span) (place : Place) : Nat :=
  let spanned := byteSize ((source.take span.stop).drop span.start)
  max 1 (min spanned (byteSize place.text + 1 - place.column))

/-- The misfit with its place in the document. -/
def Misfit.render (source : String) (m : Misfit) : String :=
  let source := source.toList
  let place := Place.of m.span.start source
  let number := toString place.line
  let gutter := Text.spaces (number.length + 1) ++ "|"
  let marks := String.ofList (List.replicate (markCount source m.span place) '^')
  Text.unlines
    ["TOML parse error at line " ++ number ++ ", column " ++ toString place.column,
     gutter,
     number ++ " | " ++ String.ofList place.text,
     gutter ++ Text.spaces place.column ++ marks,
     m.reason.message]

end AttributeTables.Toml
