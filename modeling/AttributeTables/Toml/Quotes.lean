import AttributeTables.Text.Digits

/-!
# Quoted texts of TOML

A quoted text is read in two steps. First its extent is found, which ends at the first quote that
is not escaped; then the escapes in it are decoded.
-/

namespace AttributeTables.Toml

open Text (hexDigit? charOfCode?)

/-- A character that may stand in a comment or a text: no control character except the tab. -/
def isPlain (c : Char) : Bool := c == '\t' || (32 ≤ c.toNat && c.toNat != 127)

/-! ## Extents -/

/-- The characters before the closing quote of a text on one line, and those after the quote. With
`escapes` a backslash hides the character after it. -/
def lineExtent (quote : Char) (escapes hidden : Bool) :
    List Char → Option (List Char × List Char)
  | [] => none
  | c :: cs =>
    if !hidden && c == quote then some ([], cs)
    else if c == '\n' then none
    else (lineExtent quote escapes (escapes && !hidden && c == '\\') cs).map
      fun (inside, rest) => (c :: inside, rest)

/-- The quotes at the front, two at most, and what follows. -/
def upToTwo (quote : Char) : List Char → List Char × List Char
  | a :: b :: cs =>
    if a == quote then
      if b == quote then ([a, b], cs) else ([a], b :: cs)
    else ([], a :: b :: cs)
  | [a] => if a == quote then ([a], []) else ([], [a])
  | [] => ([], [])

/-- The characters before the three closing quotes of a text on several lines, and those after
them. Up to two more quotes right before the closing ones belong to the text. -/
def blockExtent (quote : Char) (escapes hidden : Bool) :
    List Char → Option (List Char × List Char)
  | [] => none
  | c :: cs =>
    if !hidden && c == quote && cs.take 2 == [quote, quote] then
      some (upToTwo quote (cs.drop 2))
    else (blockExtent quote escapes (escapes && !hidden && c == '\\') cs).map
      fun (inside, rest) => (c :: inside, rest)

/-! ## Contents -/

/-- The character that a one-letter escape stands for. -/
def shortEscape? : Char → Option Char
  | 'b' => some '\x08'
  | 't' => some '\t'
  | 'n' => some '\n'
  | 'f' => some '\x0c'
  | 'r' => some '\r'
  | 'e' => some '\x1b'
  | '"' => some '"'
  | '\\' => some '\\'
  | _ => none

/-- The number of digits after the letter of an escape by number. -/
def codeDigits? : Char → Option Nat
  | 'x' => some 2
  | 'u' => some 4
  | 'U' => some 8
  | _ => none

/-- Where the decoder is. -/
inductive Decoding where
  | plain
  /-- After a backslash. -/
  | escape
  /-- In an escape by number, with so many digits to come. -/
  | code (digits value : Nat)
  /-- After a backslash that ends a line: blanks and newlines are skipped. The flag says that the
  newline has been seen. -/
  | folded (newline : Bool)

/-- A carriage return is allowed only before a newline. -/
def carriageOk (rest : List Char) : Bool := rest.head? == some '\n'

/-- The text that an extent with escapes denotes. With `block` it may hold newlines, and a
backslash at the end of a line hides the white space after it. -/
def decode (block : Bool) : Decoding → List Char → Option (List Char)
  | .plain, [] | .folded true, [] => some []
  | _, [] => none
  | .plain, c :: cs =>
    if c == '\\' then decode block .escape cs
    else if isPlain c || (block && (c == '\n' || (c == '\r' && carriageOk cs))) then
      (decode block .plain cs).map (c :: ·)
    else none
  | .escape, c :: cs =>
    match shortEscape? c, codeDigits? c with
    | some e, _ => (decode block .plain cs).map (e :: ·)
    | none, some digits => decode block (.code digits 0) cs
    | none, none =>
      if block && (c == ' ' || c == '\t') then decode block (.folded false) cs
      else if block && c == '\n' then decode block (.folded true) cs
      else if block && c == '\r' && carriageOk cs then decode block (.folded false) cs
      else none
  | .code digits value, c :: cs =>
    match hexDigit? c with
    | none => none
    | some digit =>
      let value := 16 * value + digit
      if digits ≤ 1 then
        match charOfCode? value with
        | some e => (decode block .plain cs).map (e :: ·)
        | none => none
      else decode block (.code (digits - 1) value) cs
  | .folded newline, c :: cs =>
    if c == ' ' || c == '\t' then decode block (.folded newline) cs
    else if c == '\n' then decode block (.folded true) cs
    else if c == '\r' && carriageOk cs then decode block (.folded newline) cs
    else if !newline then none
    else if c == '\\' then decode block .escape cs
    else if isPlain c then (decode block .plain cs).map (c :: ·)
    else none

/-- The text that an extent without escapes denotes: itself, if its characters are allowed. -/
def verbatim (block : Bool) : List Char → Option (List Char)
  | [] => some []
  | c :: cs =>
    if isPlain c || (block && (c == '\n' || (c == '\r' && carriageOk cs))) then
      (verbatim block cs).map (c :: ·)
    else none

/-- A newline right after the opening quotes is no part of the text. -/
def dropNewline : List Char → List Char
  | '\n' :: cs => cs
  | '\r' :: '\n' :: cs => cs
  | cs => cs

/-- A quoted text: what it denotes, how many characters it has with its quotes, and what follows
it. -/
structure QuotedText where
  text : String
  length : Nat
  rest : List Char

/-- Reads a quoted text. -/
def quotedText? (cs : List Char) (blocks : Bool) : Option QuotedText :=
  match cs with
  | quote :: cs =>
    if quote != '"' && quote != '\'' then none
    else
      let escapes := quote == '"'
      let contents (block : Bool) (inside : List Char) : Option (List Char) :=
        if escapes then decode block .plain inside else verbatim block inside
      if blocks && cs.take 2 == [quote, quote] then do
        let (inside, rest) ← blockExtent quote escapes false (cs.drop 2)
        let text ← contents true (dropNewline inside)
        return ⟨String.ofList text, inside.length + 6, rest⟩
      else do
        let (inside, rest) ← lineExtent quote escapes false cs
        let text ← contents false inside
        return ⟨String.ofList text, inside.length + 2, rest⟩
  | [] => none

end AttributeTables.Toml
