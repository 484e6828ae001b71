import Conditions.Yaml.Cursor

/-!
# Folded lines

What stands between two words of a scalar. In one line it is kept. A single line break counts as a
space; of several the first is dropped and the others are kept, and so is a separator of Unicode.
-/

namespace Conditions.Yaml

/-- What separates two words of a scalar. -/
structure Gap where
  /-- Spaces and tabs, if the line does not end. -/
  spaces : List Char := []
  /-- Whether the line ends. -/
  broken : Bool := false
  /-- The first line break. -/
  first : List Char := []
  /-- The line breaks after the first. -/
  more : List Char := []

namespace Gap

/-- The text that stands for line breaks. -/
def fold (first more : List Char) : List Char :=
  if first.head? = some '\n' then if more = [] then [' '] else more else first ++ more

/-- The text that stands for a gap. -/
def text (gap : Gap) : List Char := if gap.broken then fold gap.first gap.more else gap.spaces

/-- Whether there is nothing between the words. -/
def isNothing (gap : Gap) : Bool := !gap.broken && gap.spaces == []

/-- Reads on in a gap. After a line break a tab may not stand left of the column `indent`. -/
def extend (indent : Nat) : Nat → Gap → Cursor → Except Fault (Gap × Cursor)
  | 0, gap, c => .ok (gap, c)
  | fuel + 1, gap, c =>
    match c.head? with
    | none => .ok (gap, c)
    | some s =>
      if isSpace s then
        if gap.broken then
          if s = '\t' && decide (c.column < indent) then .error .token
          else extend indent fuel gap (c.skip 1)
        else extend indent fuel { gap with spaces := gap.spaces ++ [s] } (c.skip 1)
      else if isBreak s then
        let gap :=
          if gap.broken then { gap with more := gap.more ++ c.breakText }
          else { gap with spaces := [], broken := true, first := c.breakText }
        extend indent fuel gap c.skipBreak
      else .ok (gap, c)

/-- Reads a gap. -/
def read (indent : Nat) (gap : Gap) (c : Cursor) : Except Fault (Gap × Cursor) :=
  gap.extend indent (c.rest.length + 1) c

end Gap

end Conditions.Yaml
