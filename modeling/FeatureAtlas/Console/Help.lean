import FeatureAtlas.Console.Option
import FeatureAtlas.Text.Wrap

/-!
# Usage and help

The texts that tell how the program is called, laid out for a number of columns.
-/

namespace FeatureAtlas

/-- A part of the program that has a usage of its own: the program or one of its commands. -/
abbrev Scope := Option Command

namespace Scope

/-- The name of a scope in messages. -/
def name : Scope → String
  | none => Program.name
  | some c => Program.name ++ " " ++ c.name

/-- The options of a scope. -/
def options : Scope → List OptionSpec
  | none => [OptionSpec.helpOption]
  | some c => c.options

/-- What the usage shows behind the options. -/
def positional : Scope → List String
  | none => [Program.choices, "..."]
  | some _ => []

/-- What the help says first. -/
def description : Scope → List String
  | none => Program.description
  | some c => c.description

end Scope

namespace Help

/-- The columns that texts may fill. -/
def width (columns : Nat) : Nat := columns - 2

/-- The word before a usage. -/
def lead : String := "usage: "

/-- Lines behind an indentation. -/
def indented (indent : Nat) (lines : List String) : List String :=
  lines.map fun l => String.ofList (List.replicate indent ' ') ++ l

/-- Parts of a usage on lines behind an indentation. -/
def partLines (width indent : Nat) (parts : List String) : List String :=
  indented indent (Text.wrapParts width indent (indent - 1) [] parts)

/-- The lines of a usage that does not fit one line: behind the name of the scope, or below it if that takes
most of the line. -/
def wrappedUsage (width : Nat) (name : String) (options positional : List String) : List String :=
  let used := lead.length + name.length
  if 4 * used ≤ 3 * width then
    let indent := used + 1
    let lines := Text.wrapParts width indent (lead.length - 1) [] (name :: options)
    lines.take 1 ++ indented indent (lines.drop 1) ++ partLines width indent positional
  else
    let indent := lead.length
    let lines := partLines width indent (options ++ positional)
    name :: (if lines.length ≤ 1 then lines
      else partLines width indent options ++ partLines width indent positional)

/-- The usage of a scope, without a line feed at its end. -/
def usage (columns : Nat) (s : Scope) : String :=
  let options := s.options.map OptionSpec.usagePart
  let text := Text.join " " (s.name :: options ++ s.positional)
  lead ++
    if lead.length + text.length ≤ width columns then text
    else Text.join "\n" (wrappedUsage (width columns) s.name options s.positional)

/-! ## Help -/

/-- An entry of a help section: how it is given, how far it is indented, and what it does. -/
structure Entry where
  head : String
  indent : Nat
  help : String
deriving Inhabited

/-- The column at which help starts if there is room for it. -/
def helpColumn : Nat := 24

/-- The column at which help starts beside heads of a width. -/
def helpStart (columns widest : Nat) : Nat := min (widest + 2) (min helpColumn (max (width columns - 20) 4))

/-- The lines of an entry: the help starts beside a short head and below a long one. -/
def entryLines (columns start : Nat) (e : Entry) : List String :=
  let help := Text.wrap (max (width columns - start) 11) e.help
  let room := start - e.indent - 2
  if e.help == "" then indented e.indent [e.head]
  else if e.head.length ≤ room then
    indented e.indent [Text.padRight room e.head ++ "  " ++ (help.head?.getD "")] ++
      indented start (help.drop 1)
  else indented e.indent [e.head] ++ indented start help

/-- The entries about the options of a scope. -/
def optionEntries (s : Scope) : List Entry := s.options.map fun o => ⟨o.invocation, 2, o.help⟩

/-- The entries about the commands. -/
def commandEntries : Scope → List Entry
  | none => ⟨Program.choices, 2, ""⟩ :: Command.all.map fun c => ⟨c.name, 4, c.summary⟩
  | some _ => []

/-- A section under its title, if it has entries. -/
def section_ (columns start : Nat) (title : String) (entries : List Entry) : List String :=
  if entries.isEmpty then []
  else [Text.join "\n" ((title ++ ":") :: entries.flatMap (entryLines columns start))]

/-- The help of a scope. -/
def text (columns : Nat) (s : Scope) : String :=
  let entries := commandEntries s ++ optionEntries s
  let widest := (entries.map fun e => e.head.length + 2).foldl max 0
  let start := helpStart columns widest
  let parts := [usage columns s, Text.join "\n" s.description] ++
    section_ columns start "positional arguments" (commandEntries s) ++
    section_ columns start "options" (optionEntries s)
  Text.join "\n\n" parts ++ "\n"

end Help

end FeatureAtlas
