import Turnstile.Text.Unprintable
/-!
# Quoted texts

The form in which a text from outside appears inside a message: between double quotes, with quotes
and backslashes escaped, the usual short escapes for line ends, tabs and NUL, and every other
character that is not printed as itself written by its code point.
-/

namespace Turnstile.Text

def quoteChar (c : Char) : List Char :=
  if c = '"' then ['\\', '"']
  else if c = '\\' then ['\\', '\\']
  else if c = '\n' then ['\\', 'n']
  else if c = '\r' then ['\\', 'r']
  else if c = '\t' then ['\\', 't']
  else if c.toNat = 0 then ['\\', '0']
  else if unprintable.contains c then ['\\', 'u', '\x7b'] ++ hexDigits c.toNat ++ ['\x7d']
  else [c]

def quoted (s : String) : String :=
  String.ofList ('"' :: s.toList.flatMap quoteChar ++ ['"'])

end Turnstile.Text
