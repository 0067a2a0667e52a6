import TextArchive.Text.Printable

/-!
Quoted texts: a text between double quotes, with a backslash before quotes and backslashes, short
escapes for the usual controls, and the code point of every other character that is not shown.
-/

set_option autoImplicit false
set_option relaxedAutoImplicit false

namespace TextArchive.Text.Quoted

def escape (c : Char) : List Char :=
  if c = '\x00' then ['\\', '0']
  else if c = '\t' then ['\\', 't']
  else if c = '\r' then ['\\', 'r']
  else if c = '\n' then ['\\', 'n']
  else if c = '"' then ['\\', '"']
  else if c = '\\' then ['\\', '\\']
  else if Printable.isShown c then [c]
  else ['\\', 'u', '\x7b'] ++ Nat.toDigits 16 c.toNat ++ ['\x7d']

def quote (s : String) : String :=
  String.ofList ('"' :: s.toList.flatMap escape ++ ['"'])

end TextArchive.Text.Quoted
