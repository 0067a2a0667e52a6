import TextArchive.Number.Layout
import TextArchive.Search

/-!
Hits as they are printed: as lines of text, or as an array of objects in JSON.
-/

set_option autoImplicit false
set_option relaxedAutoImplicit false

namespace TextArchive.Command.Listing

open TextArchive.Number

def onOneLine (text : String) : String :=
  text.map fun c => if c = '\n' then ' ' else c

def hitLines (h : Hit) : List String :=
  ["[" ++ toString h.rowid ++ "] score=" ++ String.ofList (Layout.fixed 4 h.score) ++ " " ++ h.title,
    "  source=" ++ h.sourcePath,
    "  " ++ onOneLine h.snippet]

def plain (hits : List Hit) : String :=
  let lines := if hits.isEmpty then ["no matches"] else hits.flatMap hitLines
  String.join (lines.map (· ++ "\n"))

def hexDigit (n : Nat) : Char :=
  Nat.digitChar n

/-- A character as it stands in a string of JSON. -/
def escaped (c : Char) : List Char :=
  match c with
  | '"' => ['\\', '"']
  | '\\' => ['\\', '\\']
  | '\n' => ['\\', 'n']
  | '\r' => ['\\', 'r']
  | '\t' => ['\\', 't']
  | '\x08' => ['\\', 'b']
  | '\x0c' => ['\\', 'f']
  | c =>
    if c.toNat < 32 then ['\\', 'u', '0', '0', hexDigit (c.toNat / 16), hexDigit (c.toNat % 16)]
    else [c]

def string (text : String) : String :=
  "\"" ++ String.ofList (text.toList.flatMap escaped) ++ "\""

/-- Numbers of JSON: the shortest digits, with an exponent where more than sixteen places stand
before the point or more than four zeros after it. What is not finite is null. -/
def numberStyle : Layout.Style where
  wholeEnding := ['.', '0']
  isPositional := fun point => -5 < point && point ≤ 16
  infinite := ['n', 'u', 'l', 'l']
  undefined := ['n', 'u', 'l', 'l']

def number (x : Float) : String :=
  if Binary64.isFinite x then String.ofList (numberStyle.render x) else "null"

/-- The members of the object of a hit. -/
def members (h : Hit) : List (String × String) :=
  [("rowid", toString h.rowid), ("title", string h.title), ("source_path", string h.sourcePath),
    ("tag", string h.tag), ("snippet", string h.snippet), ("score", number h.score)]

def object (h : Hit) : String :=
  "  \x7b\n"
    ++ String.intercalate ",\n" ((members h).map fun m => "    " ++ string m.1 ++ ": " ++ m.2)
    ++ "\n  \x7d"

def json (hits : List Hit) : String :=
  if hits.isEmpty then "[]\n"
  else "[\n" ++ String.intercalate ",\n" (hits.map object) ++ "\n]\n"

end TextArchive.Command.Listing
