import TextArchive.Text.CategoryRanges
import TextArchive.Text.CodeRange

/-!
General categories of characters, their two-letter codes, and the category of a code point.
-/

set_option autoImplicit false
set_option relaxedAutoImplicit false

namespace TextArchive.Text

inductive Category where
  | control
  | format
  | privateUse
  | lowercaseLetter
  | modifierLetter
  | otherLetter
  | titlecaseLetter
  | uppercaseLetter
  | spacingMark
  | enclosingMark
  | nonspacingMark
  | decimalNumber
  | letterNumber
  | otherNumber
  | connectorPunctuation
  | dashPunctuation
  | closePunctuation
  | finalPunctuation
  | initialPunctuation
  | otherPunctuation
  | openPunctuation
  | currencySymbol
  | modifierSymbol
  | mathSymbol
  | otherSymbol
  | lineSeparator
  | paragraphSeparator
  | spaceSeparator
deriving DecidableEq, Repr

namespace Category

/-- Every category with its code and its code points. -/
def catalogue : List (Category × (Char × Char) × List CodeRange) :=
  [(.control, ('C', 'c'), CodeRange.ofText CategoryRanges.control),
   (.format, ('C', 'f'), CodeRange.ofText CategoryRanges.format),
   (.privateUse, ('C', 'o'), CodeRange.ofText CategoryRanges.privateUse),
   (.lowercaseLetter, ('L', 'l'), CodeRange.ofText CategoryRanges.lowercaseLetter),
   (.modifierLetter, ('L', 'm'), CodeRange.ofText CategoryRanges.modifierLetter),
   (.otherLetter, ('L', 'o'), CodeRange.ofText CategoryRanges.otherLetter),
   (.titlecaseLetter, ('L', 't'), CodeRange.ofText CategoryRanges.titlecaseLetter),
   (.uppercaseLetter, ('L', 'u'), CodeRange.ofText CategoryRanges.uppercaseLetter),
   (.spacingMark, ('M', 'c'), CodeRange.ofText CategoryRanges.spacingMark),
   (.enclosingMark, ('M', 'e'), CodeRange.ofText CategoryRanges.enclosingMark),
   (.nonspacingMark, ('M', 'n'), CodeRange.ofText CategoryRanges.nonspacingMark),
   (.decimalNumber, ('N', 'd'), CodeRange.ofText CategoryRanges.decimalNumber),
   (.letterNumber, ('N', 'l'), CodeRange.ofText CategoryRanges.letterNumber),
   (.otherNumber, ('N', 'o'), CodeRange.ofText CategoryRanges.otherNumber),
   (.connectorPunctuation, ('P', 'c'), CodeRange.ofText CategoryRanges.connectorPunctuation),
   (.dashPunctuation, ('P', 'd'), CodeRange.ofText CategoryRanges.dashPunctuation),
   (.closePunctuation, ('P', 'e'), CodeRange.ofText CategoryRanges.closePunctuation),
   (.finalPunctuation, ('P', 'f'), CodeRange.ofText CategoryRanges.finalPunctuation),
   (.initialPunctuation, ('P', 'i'), CodeRange.ofText CategoryRanges.initialPunctuation),
   (.otherPunctuation, ('P', 'o'), CodeRange.ofText CategoryRanges.otherPunctuation),
   (.openPunctuation, ('P', 's'), CodeRange.ofText CategoryRanges.openPunctuation),
   (.currencySymbol, ('S', 'c'), CodeRange.ofText CategoryRanges.currencySymbol),
   (.modifierSymbol, ('S', 'k'), CodeRange.ofText CategoryRanges.modifierSymbol),
   (.mathSymbol, ('S', 'm'), CodeRange.ofText CategoryRanges.mathSymbol),
   (.otherSymbol, ('S', 'o'), CodeRange.ofText CategoryRanges.otherSymbol),
   (.lineSeparator, ('Z', 'l'), CodeRange.ofText CategoryRanges.lineSeparator),
   (.paragraphSeparator, ('Z', 'p'), CodeRange.ofText CategoryRanges.paragraphSeparator),
   (.spaceSeparator, ('Z', 's'), CodeRange.ofText CategoryRanges.spaceSeparator)]

/-- The category of a code point, if the character list names one for it. -/
def of? (code : Nat) : Option Category :=
  (catalogue.find? fun entry => CodeRange.holds entry.2.2 code).map (·.1)

/-- The categories that a two-letter code stands for; a star as second letter means all that share
the first. -/
def ofCode (major minor : Char) : List Category :=
  catalogue.filterMap fun entry =>
    if entry.2.1.1 = major && (minor = '*' || entry.2.1.2 = minor) then some entry.1 else none

end Category

end TextArchive.Text
