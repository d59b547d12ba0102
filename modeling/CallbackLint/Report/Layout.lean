import CallbackLint.Report.Markup
import CallbackLint.Report.Print
/-!
# Layout

The lines that a print comes to on a console without colours and boxes: markup is shown
without its tags, the columns of a table are as wide as their widest cell, and a title
stands on a line of its own.
-/

namespace CallbackLint

namespace Cell

/-- The text that a cell shows. -/
def shown : Cell → String
  | .markup s => Markup.shown s
  | .styled text _ => text

end Cell

namespace Table

/-- A text padded with spaces to a width, on the side that keeps it flush. -/
def pad (justify : Justify) (width : Nat) (s : String) : String :=
  let fill := String.ofList (List.replicate (width - s.length) ' ')
  match justify with
  | .left => s ++ fill
  | .right => fill ++ s

/-- The texts in one column, the header first. -/
def columnTexts (t : Table) (i : Nat) (c : Column) : List String :=
  c.header :: t.rows.filterMap (fun row => row[i]?.map Cell.shown)

/-- One column with its texts brought to the same width. -/
def columnLines (t : Table) (i : Nat) (c : Column) : List String :=
  let texts := t.columnTexts i c
  let width := texts.foldl (fun w s => max w s.length) 0
  texts.map (pad c.justify width)

/-- The lines of a table: its title, the headers and the rows. -/
def lines (t : Table) : List String :=
  let columns := t.columns.zipIdx.map (fun (c, i) => t.columnLines i c)
  let rows := (List.range (t.rows.length + 1)).map (fun r =>
    "  ".intercalate (columns.filterMap (fun column => column[r]?)))
  t.title.toList ++ rows

end Table

namespace Panel

/-- The lines of a panel: its title and its content. -/
def lines (p : Panel) : List String :=
  p.title.toList ++
    match p.content with
    | .markup s => [Markup.shown s]
    | .table t => t.lines

end Panel

namespace Print

/-- The lines of a print. -/
def lines : Print → List String
  | .blank => [""]
  | .line markup => [Markup.shown markup]
  | .table t => t.lines
  | .panel p => p.lines

end Print

end CallbackLint
