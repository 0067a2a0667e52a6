import TextArchive.Number.Layout

/-!
Rank weights: how much an occurrence counts in each of the four text columns, and the rank
expression that states them.
-/

set_option autoImplicit false
set_option relaxedAutoImplicit false

namespace TextArchive

open TextArchive.Number

structure Weights where
  title : Float
  sourcePath : Float
  content : Float
  tag : Float

namespace Weights

def toList (w : Weights) : List Float :=
  [w.title, w.sourcePath, w.content, w.tag]

def standard : Weights :=
  ⟨10.0, 5.0, 8.0, 2.0⟩

def allFinite (w : Weights) : Bool :=
  w.toList.all Binary64.isFinite

/-- Plain decimals without exponent, with a point even in whole numbers. -/
def plainStyle : Layout.Style where
  wholeEnding := ['.', '0']
  isPositional := fun _ => true
  infinite := ['i', 'n', 'f', '.', '0']
  undefined := ['N', 'a', 'N', '.', '0']

/-- Plain decimals where at most sixteen places stand before the point and at most four zeros after
it, and exponents elsewhere. -/
def showStyle : Layout.Style where
  wholeEnding := ['.', '0']
  isPositional := fun point => -4 < point && point ≤ 16
  infinite := ['i', 'n', 'f']
  undefined := ['N', 'a', 'N']

def expression (w : Weights) : String :=
  String.ofList ("bm25(".toList
    ++ [',', ' '].intercalate (w.toList.map plainStyle.render) ++ [')'])

def describe (w : Weights) : String :=
  let part (name : String) (x : Float) : String := name ++ ": " ++ String.ofList (showStyle.render x)
  "RankWeights \x7b " ++ part "title" w.title ++ ", " ++ part "source_path" w.sourcePath ++ ", "
    ++ part "content" w.content ++ ", " ++ part "tag" w.tag ++ " \x7d"

end Weights

end TextArchive
