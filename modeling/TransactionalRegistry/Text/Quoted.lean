import TransactionalRegistry.Text.Numeral
import TransactionalRegistry.Text.SpelledOut
import TransactionalRegistry.Text.CaseTable

/-!
# Quotation

The diagnostic text of a value shows a string between double quotes. A quote and a backslash inside
it are escaped by a backslash, four control characters have short escapes, and a character that
would not be seen as itself is spelled out by its number in braces.

## Main definitions

* `Text.quote`: A string as diagnostic text.
* `Text.quoteOption`: An optional string as diagnostic text.
* `Text.quoteList`: A list of strings as diagnostic text.
-/

namespace TransactionalRegistry

namespace Text

/-- A character as it stands inside a quotation. -/
def quoteChar (c : Char) : String :=
  if c = '"' then "\\\""
  else if c = '\\' then "\\\\"
  else if c = '\n' then "\\n"
  else if c = '\r' then "\\r"
  else if c = '\t' then "\\t"
  else if c.toNat = 0 then "\\0"
  else if inRanges spelledOutRanges c.toNat then "\\u\x7b" ++ hexDigits c.toNat ++ "\x7d"
  else c.toString

/-- A string as diagnostic text: between double quotes, with escapes. -/
def quote (text : String) : String :=
  "\"" ++ String.join (text.toList.map quoteChar) ++ "\""

/-- An optional string as diagnostic text. -/
def quoteOption : Option String → String
  | none => "None"
  | some text => "Some(" ++ quote text ++ ")"

/-- A list of strings as diagnostic text. -/
def quoteList (texts : List String) : String :=
  "[" ++ ", ".intercalate (texts.map quote) ++ "]"

end Text

end TransactionalRegistry
