/-
  Abacus/Text/Tabs.lean
  =====================
  **Tabs.**  Tab stops stand at every eighth column.  A tab is printed as one space, and
  then as many more as reach the next stop.  What stands between two tabs is measured as
  one text, together with the space that takes the place of the tab behind it.
-/
import Abacus.Text.Columns

namespace Abacus.Text

/-- The distance between tab stops. -/
def tabSize : Nat := 8

/-- The number of columns from a column to the next tab stop; none if it is one. -/
def toTabStop (column : Nat) : Nat :=
  (tabSize - column % tabSize) % tabSize

/-- Replaces tabs by spaces.  `column` is where the last tab led, `part` what stands behind
    it, latest character first. -/
def expandTabsFrom (column : Nat) (part : List Char) : List Char → List Char
  | [] => []
  | c :: rest =>
    if c = '\t' then
      let reached := column + width (part.reverse ++ [' '])
      ' ' :: List.replicate (toTabStop reached) ' ' ++
        expandTabsFrom (reached + toTabStop reached) [] rest
    else if c = '\n' then c :: expandTabsFrom 0 [] rest
    else c :: expandTabsFrom column (c :: part) rest

/-- A text as it is printed: without tabs. -/
def expandTabs (s : String) : String :=
  String.ofList (expandTabsFrom 0 [] s.toList)

end Abacus.Text
