import AttributeTables.Output.Options
import AttributeTables.Text.Lines

/-!
# The banner

The comment at the top of the generated text, eighty columns wide. Widths are counted in bytes.
-/

namespace AttributeTables.Output

/-- What the generated file is for. -/
def description : String := "Generate attributes"

/-- The width of the banner. -/
def bannerWidth : Nat := 80

/-- A line of the banner, padded to its width unless the text is too long. -/
def bannerLine (s : String) : String :=
  "|* " ++ s ++ Text.spaces (bannerWidth - 6 - s.utf8ByteSize) ++ " *|"

/-- The top line. -/
def bannerTop : String :=
  let title := "/*===- Generated file "
  let ending := "*- C++ -*-===*\\"
  title ++ String.ofList (List.replicate (bannerWidth - (title.utf8ByteSize + ending.utf8ByteSize)) '-')
    ++ ending

/-- The bottom line. -/
def bannerBottom : String :=
  "\\*" ++ String.ofList (List.replicate (bannerWidth - 4) '=') ++ "*/"

/-- The line that names the source, if there is one. -/
def sourceLines : Option String → List String
  | some source => [bannerLine ("From: " ++ source)]
  | none => []

/-- The banner and the empty line after it. -/
def bannerLines (options : Options) : List String :=
  [bannerTop, bannerLine "", bannerLine description, bannerLine "",
    bannerLine "Automatically generated file, do not edit!"] ++
  sourceLines options.sourceName ++ [bannerLine "", bannerBottom, ""]

/-- The lines before the first section. -/
def headerLines (options : Options) : List String :=
  if options.header then bannerLines options else []

end AttributeTables.Output
