import FeatureTable.Yaml.Cursor

namespace FeatureTable.Yaml

/-- A scalar may run over several lines.  What stands between two of its words folds into one piece
of text: blanks stay as they are, one line break becomes a space, and of several breaks the first is
dropped. -/
structure Gap where
  blanks : List Char := []
  firstBreak : Option (List Char) := none
  otherBreaks : List Char := []

namespace Gap

def addBreak (g : Gap) (c : Char) : Gap :=
  match g.firstBreak with
  | none => { firstBreak := some [breakText c] }
  | some _ => { g with otherBreaks := breakText c :: g.otherBreaks }

def addBlank (g : Gap) (c : Char) : Gap :=
  if g.firstBreak.isNone then { g with blanks := c :: g.blanks } else g

/-- The text of the gap, last character first. -/
def folded (g : Gap) : List Char :=
  match g.firstBreak with
  | none => g.blanks
  | some ['\n'] => if g.otherBreaks.isEmpty then [' '] else g.otherBreaks
  | some first => g.otherBreaks ++ first

end Gap

/-- Reads blanks and line breaks.  On a continued line no tab may stand left of `margin`. -/
def readGap (margin : Nat) (g : Gap) (offset line column : Nat) :
    List Char → Except Error (Gap × Cursor)
  | '\r' :: '\n' :: rest => readGap margin (g.addBreak '\n') (offset + 2) (line + 1) 0 rest
  | c :: rest =>
      if isBreak c then readGap margin (g.addBreak c) (offset + c.utf8Size) (line + 1) 0 rest
      else if isSpace c then
        if g.firstBreak.isSome && c == '\t' && column < margin then .error .malformedIndentation
        else readGap margin (g.addBlank c) (offset + 1) line (column + 1) rest
      else .ok (g, { rest := c :: rest, offset, line, column })
  | [] => .ok (g, { rest := [], offset, line, column })

def Cursor.readGap (c : Cursor) (margin : Nat) (g : Gap) : Except Error (Gap × Cursor) :=
  Yaml.readGap margin g c.offset c.line c.column c.rest

end FeatureTable.Yaml
