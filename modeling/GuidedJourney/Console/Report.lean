import GuidedJourney.Console.Markup
import GuidedJourney.Definition.Document

namespace GuidedJourney

def cellWidth : Int := 50

namespace Value

def clip (n : Int) (s : String) : String :=
  String.ofList (s.toList.take (if n < 0 then n + s.length else n).toNat)

def cell (width : Int) (v : Value) : String :=
  let whole (s : String) : String := if width < s.length then clip (width - 3) s ++ "..." else s
  match v with
  | .null => "-"
  | .bool b => if b then "✓" else "✗"
  | .list _ | .obj _ => whole (Json.write Json.spaced v)
  | v => whole v.text

end Value

inductive Exhibit where
  | line (markup : String)
  | table (title : String) (columns : List String) (rows : List Fields)
  | data (format : DocumentFormat) (v : Value)

namespace Exhibit

def linesOf (s : String) : List String := (Text.split '\n' s.toList).map String.ofList

def rowLines (cells : List (List String)) : List (List String) :=
  let height := cells.foldl (fun n c => max n c.length) 1
  (List.range height).map fun i => cells.map fun lines => (lines[i]?).getD ""

def cellLines (s : String) : List String :=
  (Text.split '\n' s.toList).map fun cs => String.ofList (Text.trim cs)

def tableRow (columns : List String) (row : Fields) : Except Fault (List (List String)) := do
  return rowLines (← columns.mapM fun c => do
    return cellLines (← Markup.plain ((Fields.get row c).cell cellWidth)))

def joinCells (cells : List String) : String := " | ".intercalate cells

def text (format : DocumentFormat) (v : Value) : String :=
  match format with
  | .json => Json.indented 0 v
  | .yaml => Yaml.write ⟨false, 80⟩ v

def lines : Exhibit → Except Fault (List String)
  | .line markup => do return linesOf (← Markup.plain markup)
  | .table title columns rows => do
    let rows ← rows.mapM (tableRow columns)
    return linesOf (← Markup.plain title) ++ joinCells columns :: rows.flatten.map joinCells
  | .data format v => .ok (linesOf (text format v))

end Exhibit

end GuidedJourney
