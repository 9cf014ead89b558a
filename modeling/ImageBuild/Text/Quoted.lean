import ImageBuild.Text.Decimal
import ImageBuild.Text.Unseen

/-!
# Quoted text

Error messages and steps show a text between double quotes. A quote and a
backslash are preceded by a backslash, four control characters have names,
and a character that cannot be shown is given by its code point in braces.
-/

namespace ImageBuild.Text

/-- A character as it stands inside a quoted text. -/
def quoteChar (c : Char) : List Char :=
  if c = '"' then ['\\', '"']
  else if c = '\\' then ['\\', '\\']
  else if c = '\n' then ['\\', 'n']
  else if c = '\r' then ['\\', 'r']
  else if c = '\t' then ['\\', 't']
  else if c = '\x00' then ['\\', '0']
  else if isUnseen c then ['\\', 'u', '\x7b'] ++ Decimal.hexChars c.toNat ++ ['\x7d']
  else [c]

def quote (s : String) : String :=
  String.ofList ('"' :: s.toList.flatMap quoteChar ++ ['"'])

end ImageBuild.Text
