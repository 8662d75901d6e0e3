import ScriptHost.Text.Printable
import ScriptHost.Text.Dump

/-!
# Quoted text

Text between double quotes, as diagnostics show it: the quote, the backslash and four controls have
a short escape, every other character that is not printable is written as its code point in braces.
A single quote stands as it is.
-/

set_option autoImplicit false

namespace ScriptHost.Text

/-- The characters that stand for one character inside quotes. -/
def escape (c : Char) : List Char :=
  if c = '"' then ['\\', '"']
  else if c = '\\' then ['\\', '\\']
  else if c = '\x00' then ['\\', '0']
  else if c = '\t' then ['\\', 't']
  else if c = '\n' then ['\\', 'n']
  else if c = '\r' then ['\\', 'r']
  else if isPrintable c then [c]
  else '\\' :: 'u' :: '\x7b' :: (Dump.hex c.toNat).toList ++ ['\x7d']

/-- Text between double quotes. -/
def quoted (s : String) : String :=
  "\"" ++ String.ofList (s.toList.flatMap escape) ++ "\""

end ScriptHost.Text
