import FeatureAtlas.Datum.Display
import FeatureAtlas.Text.Utf8

/-!
# Data as plain JSON

A log line is JSON, so every datum has a plain form: doubles that are no numbers become their names, dates
become timestamps, bytes become text, keys become texts, and a set becomes a list in the order of its
elements' JSON texts. What has no form of its own becomes the text that shows it. The only datum without a
plain form is a moment that leaves the calendar's years when it is taken to UTC.
-/

namespace FeatureAtlas.Datum

/-- Plain forms of a set's elements in the order of their texts. -/
def inTextOrder (xs : List Json) : List Json :=
  xs.mergeSort fun a b => Text.le a.canonical b.canonical

mutual

/-- The plain form of a datum. -/
def plain? : Datum → Option Json
  | null => some .null
  | bool b => some (.bool b)
  | int n => some (.int n)
  | float x => some (if x.isFinite then .float x else .str x.text)
  | text s => some (.str s)
  | bytes bs => some (.str (Utf8.decodeLossy bs))
  | moment t => t.logged?.map .str
  | day d => some (.str (dayCall d))
  | path p => some (.str p.toString)
  | list xs => (plainItems? xs).map .arr
  | tuple xs => (plainItems? xs).map .arr
  | set xs => (plainItems? xs).map fun ys => .arr (inTextOrder ys)
  | frozenSet xs => (plainItems? xs).map fun ys => .arr (inTextOrder ys)
  | map entries => (plainEntries? entries).map fun fields => .obj (Table.ofEntries fields)
  | other display => some (.str display)

/-- The plain forms of elements. -/
def plainItems? : List Datum → Option (List Json)
  | [] => some []
  | x :: rest =>
    match plain? x, plainItems? rest with
    | some j, some js => some (j :: js)
    | _, _ => none

/-- The plain forms of entries, with texts as keys. -/
def plainEntries? : List (Datum × Datum) → Option (List (String × Json))
  | [] => some []
  | (k, v) :: rest =>
    match plain? v, plainEntries? rest with
    | some j, some fields => some ((k.shown, j) :: fields)
    | _, _ => none

end

end FeatureAtlas.Datum
