import FeatureAtlas.Config.Merge
import FeatureAtlas.Toml.Lexeme

/-!
# Reading TOML

A document is a sequence of statements: keys with values, and headers that open tables. A table is opened
once; what is written inline is complete and takes no further keys.
-/

namespace FeatureAtlas.Toml

/-- A dotted key. -/
abbrev Key := List String

/-! ## Tables -/

/-- The entries of a table. -/
abbrev Entries := List (SettingKey × Setting)

/-- Changes the table below a key. Missing tables are made; with `intoLists` the last table of a list stands
for the list. -/
def modifyTable (intoLists : Bool) (f : Entries → Option Entries) : Key → Entries → Option Entries
  | [], es => f es
  | k :: rest, es =>
    match Setting.find? (.text k) es with
    | none => do return Setting.insert (.text k) (.map (← modifyTable intoLists f rest [])) es
    | some (.map below) => do
      return Setting.insert (.text k) (.map (← modifyTable intoLists f rest below)) es
    | some (.list xs) =>
      if !intoLists then none
      else match xs.getLast? with
        | some (.map below) => do
          let changed ← modifyTable intoLists f rest below
          return Setting.insert (.text k) (.list (xs.dropLast ++ [.map changed])) es
        | _ => none
    | some _ => none

/-- Sets a new key of a table. -/
def setNew (key : String) (value : Setting) (es : Entries) : Option Entries :=
  if (Setting.find? (.text key) es).isSome then none else some (Setting.insert (.text key) value es)

/-- Appends an empty table to the list of a key, which is made if it is missing. -/
def appendTable (key : String) (es : Entries) : Option Entries :=
  match Setting.find? (.text key) es with
  | none => some (Setting.insert (.text key) (.list [.map []]) es)
  | some (.list xs) => some (Setting.insert (.text key) (.list (xs ++ [.map []])) es)
  | some _ => none

/-- Whether a value has values below it. -/
def isNested : Setting → Bool
  | .map _ => true
  | .list _ => true
  | _ => false

/-! ## Values -/

/-- A scalar value. -/
def scalar? (cs : List Char) : Option (Setting × List Char) :=
  match cs with
  | '"' :: '"' :: '"' :: rest => (basicBlock? rest).map fun (s, rest) => (.str s, rest)
  | '"' :: rest => (basicString? rest).map fun (s, rest) => (.str s, rest)
  | '\'' :: '\'' :: '\'' :: rest => (literalBlock? rest).map fun (s, rest) => (.str s, rest)
  | '\'' :: rest => (literalString? rest).map fun (s, rest) => (.str s, rest)
  | 't' :: 'r' :: 'u' :: 'e' :: rest => some (.bool true, rest)
  | 'f' :: 'a' :: 'l' :: 's' :: 'e' :: rest => some (.bool false, rest)
  | cs =>
    match dateTime? cs with
    | some (v, rest) => if inCalendar v then some (v, rest) else none
    | none => ((time? cs).map fun (t, rest) => (Setting.time t, rest)) <|> number? cs <|> special? cs

mutual

/-- A value; the number bounds the depth and length of what is nested in it. -/
def value? : Nat → List Char → Option (Setting × List Char)
  | 0, _ => none
  | fuel + 1, cs =>
    match cs with
    | '[' :: rest => do
      let (xs, rest) ← items? fuel (← skipSpace rest.length rest)
      return (.list xs, rest)
    | '{' :: rest => do
      let (es, rest) ← fields? fuel [] [] (skipBlanks rest) true
      return (.map es, rest)
    | _ => scalar? cs

/-- The elements of an array up to its closing bracket. -/
def items? : Nat → List Char → Option (List Setting × List Char)
  | 0, _ => none
  | fuel + 1, cs =>
    match cs with
    | ']' :: rest => some ([], rest)
    | _ => do
      let (x, rest) ← value? fuel cs
      match ← skipSpace rest.length rest with
      | ']' :: rest => return ([x], rest)
      | ',' :: more =>
        let (xs, rest) ← items? fuel (← skipSpace more.length more)
        return (x :: xs, rest)
      | _ => none

/-- The fields of an inline table up to its closing brace; those read before are given, and the keys
of those that take no further keys. -/
def fields? : Nat → Entries → List Key → List Char → Bool → Option (Entries × List Char)
  | 0, _, _, _, _ => none
  | fuel + 1, es, complete, cs, first =>
    match first, cs with
    | true, '}' :: rest => some (es, rest)
    | _, _ => do
      let (key, rest) ← key? (cs.length + 1) cs
      let (v, rest) ← value? fuel (skipBlanks (← after? '=' rest))
      if complete.any (·.isPrefixOf key) then none
      let es ← modifyTable false (setNew (key.getLast?.getD "") v) key.dropLast es
      match skipBlanks rest with
      | '}' :: rest => return (es, rest)
      | ',' :: more =>
        fields? fuel es (if isNested v then key :: complete else complete) (skipBlanks more) false
      | _ => none

end

/-! ## Documents -/

/-- A document read so far. -/
structure Document where
  entries : Entries := []
  /-- The key of the table that is open. -/
  header : Key := []
  /-- Tables that no header may open again. -/
  declared : List Key := []
  /-- Tables made by dotted keys; the next header declares them. -/
  pending : List Key := []
  /-- Keys of inline values, which take no further keys. -/
  complete : List Key := []
deriving Inhabited

namespace Document

/-- Whether a key lies in an inline value. -/
def isComplete (d : Document) (key : Key) : Bool := d.complete.any (·.isPrefixOf key)

/-- The document with the tables of dotted keys declared. -/
def settle (d : Document) : Document := { d with declared := d.pending ++ d.declared, pending := [] }

/-- Opens a table. -/
def openTable (d : Document) (key : Key) : Option Document :=
  if d.declared.contains key || d.isComplete key then none
  else do
    return { d with
      entries := ← modifyTable true some key d.entries
      header := key, declared := key :: d.declared }

/-- Opens a further table of a list. -/
def openElement (d : Document) (key : Key) : Option Document :=
  if d.isComplete key then none
  else do
    let keep (k : Key) : Bool := !key.isPrefixOf k
    return { d with
      entries := ← modifyTable true (appendTable (key.getLast?.getD "")) key.dropLast d.entries
      header := key
      declared := key :: d.declared.filter keep
      complete := d.complete.filter keep }

/-- The keys of the tables on the way to a dotted key. -/
def tablesOn (header key : Key) : List Key :=
  (List.range (key.length - 1)).map fun i => header ++ key.take (i + 1)

/-- Sets a value in the open table. -/
def assign (d : Document) (key : Key) (v : Setting) : Option Document :=
  let tables := tablesOn d.header key
  let parent := d.header ++ key.dropLast
  if tables.any d.declared.contains || d.isComplete parent then none
  else do
    return { d with
      entries := ← modifyTable true (setNew (key.getLast?.getD "") v) parent d.entries
      pending := tables ++ d.pending
      complete := if isNested v then (d.header ++ key) :: d.complete else d.complete }

/-- Reads one statement. -/
def statement (d : Document) (cs : List Char) : Option (Document × List Char) :=
  match cs with
  | '[' :: '[' :: rest => do
    let (key, rest) ← key? (rest.length + 1) (skipBlanks rest)
    let d ← d.settle.openElement key
    return (d, ← after? ']' (← after? ']' rest))
  | '[' :: rest => do
    let (key, rest) ← key? (rest.length + 1) (skipBlanks rest)
    let d ← d.settle.openTable key
    return (d, ← after? ']' rest)
  | '#' :: _ => some (d, cs)
  | _ => do
    let (key, rest) ← key? (cs.length + 1) cs
    let (v, rest) ← value? (rest.length + 1) (skipBlanks (← after? '=' rest))
    return (← d.assign key v, rest)

/-- Reads statements up to the end; the number bounds the lines. -/
def statements : Nat → Document → List Char → Option Document
  | 0, _, _ => none
  | fuel + 1, d, cs =>
    match skipBlanks cs with
    | [] => some d
    | '\n' :: rest => statements fuel d rest
    | cs => do
      let (d, rest) ← d.statement cs
      match ← skipComment (skipBlanks rest) with
      | [] => return d
      | '\n' :: rest => statements fuel d rest
      | _ => none

end Document

/-- Line feeds for line ends of two characters. -/
def unixLines : List Char → List Char
  | '\r' :: '\n' :: cs => '\n' :: unixLines cs
  | c :: cs => c :: unixLines cs
  | [] => []

/-- The entries of a document, if its text is TOML. -/
def read? (s : String) : Option (List (SettingKey × Setting)) :=
  let cs := unixLines s.toList
  (Document.statements (cs.length + 1) {} cs).map (·.entries)

end FeatureAtlas.Toml
