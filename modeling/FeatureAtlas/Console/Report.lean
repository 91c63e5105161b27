import FeatureAtlas.Datum.Display

/-!
# Reports

The plain text that commands print. A report is made of parts, and each part is a number of lines.
-/

namespace FeatureAtlas

/-- A part of a report. -/
inductive ReportPart where
  | heading (text : String)
  | entry (key : String) (value : Json)
  | line (text : String)
  | section_ (title : String)
  | warning (text : String)
  | items (mark : String) (entries : List Json)
  /-- Names with counts; nothing at all without names. -/
  | counts (title : String) (values : Table Json)
  /-- Rows under headers; nothing at all without rows. -/
  | table (title : Option String) (headers : List Json) (rows : List (List Json))
deriving Inhabited

/-- A line of a report. -/
def lineText (s : String) : String := s ++ "\n"

namespace ReportPart

/-- The mark before an item unless another one is given. -/
def defaultMark : String := "- "

/-- The width of the widest text. -/
def widest (xs : List String) : Nat := xs.foldl (fun w s => max w s.length) 0

/-- A header over a blank line. -/
def sectionText (title : String) : String := lineText ("\n" ++ title)

/-- Names padded to one width, with their counts. -/
def countsText (title : String) (values : Table Json) : String :=
  if values.isEmpty then ""
  else
    let width := widest (values.map Prod.fst)
    sectionText title ++ String.join (values.map fun (key, count) =>
      lineText ("  " ++ Text.padRight width key ++ "  " ++ count.shown))

/-- The width of each column: that of its header or of its widest cell. -/
def columnWidths (headers : List String) (rows : List (List String)) : List Nat :=
  headers.zipIdx.map fun (h, i) => max h.length (widest (rows.filterMap (·[i]?)))

/-- The cells of a row in columns; cells beyond the last column are left out, missing ones are empty. -/
def rowText (widths : List Nat) (cells : List String) : String :=
  let padded := widths.zipIdx.map fun (w, i) => Text.padRight w ((cells[i]?).getD "")
  String.ofList (Text.trimEnd (Text.join "  " padded).toList)

/-- Rows under headers. -/
def tableText (title : Option String) (headers : List String) (rows : List (List String)) : String :=
  if rows.isEmpty then ""
  else
    let widths := columnWidths headers rows
    let rule := Text.join "  " (widths.map fun w => String.ofList (List.replicate w '-'))
    (match title with
      | some t => if t == "" then "" else sectionText t
      | none => "") ++
      lineText ("  " ++ rowText widths headers) ++ lineText ("  " ++ rule) ++
      String.join (rows.map fun row => lineText ("  " ++ rowText widths row))

/-- The text of a part. -/
def text : ReportPart → String
  | heading t => lineText t
  | entry key value => lineText (key ++ ": " ++ value.shown)
  | line t => lineText t
  | section_ title => sectionText title
  | warning t => lineText ("  Warning: " ++ t)
  | items mark entries => String.join (entries.map fun e => lineText ("  " ++ mark ++ e.shown))
  | counts title values => countsText title values
  | table title headers rows => tableText title (headers.map Json.shown) (rows.map (·.map Json.shown))

end ReportPart

/-- The text of a report. -/
def reportText (parts : List ReportPart) : String := String.join (parts.map ReportPart.text)

end FeatureAtlas
