import FeatureAtlas.Console.Help
import FeatureAtlas.Text.Integer
import FeatureAtlas.Text.Printable

/-!
# Invocations

How the arguments of a call are read. Options may be shortened as long as they are told apart, short ones may
stand together behind one dash, and a value may follow its option behind an equals sign. Arguments that no
scope knows are collected and refused at the end. The words before the command belong to the program, those
behind it to the command.
-/

namespace FeatureAtlas

/-- What the options of a call say. -/
structure Settings where
  project : String := "."
  config : Option String := none
  tsconfig : Option String := none
  verbose : Bool := false
  json : Bool := false
  output : Option String := none
  dryRun : Bool := false
deriving DecidableEq, Repr, Inhabited

/-- Sets what an option says. -/
def Settings.set (s : Settings) (key : OptionKey) (value : String) : Settings :=
  match key with
  | .help => s
  | .project => { s with project := value }
  | .config => { s with config := some value }
  | .tsconfig => { s with tsconfig := some value }
  | .verbose => { s with verbose := true }
  | .json => { s with json := true }
  | .output => { s with output := some value }
  | .dryRun => { s with dryRun := true }

/-- What a call asks for. -/
inductive Invocation where
  | help (scope : Scope)
  | run (command : Command) (settings : Settings)
deriving DecidableEq, Repr, Inhabited

/-- What is wrong with the arguments of a call. -/
inductive InvocationFault where
  | ambiguous (argument : String) (candidates : List String)
  | valueMissing (option : OptionSpec)
  | valueIgnored (option : OptionSpec) (value : String)
  | unknownCommand (name : String)
  | commandMissing
  | unrecognized (arguments : List String)
deriving DecidableEq, Repr, Inhabited

/-- The message about arguments. -/
def InvocationFault.message : InvocationFault → String
  | ambiguous argument candidates =>
    "ambiguous option: " ++ argument ++ " could match " ++ Text.join ", " candidates
  | valueMissing option => "argument " ++ option.name ++ ": expected one argument"
  | valueIgnored option value =>
    "argument " ++ option.name ++ ": ignored explicit argument " ++ Text.quoted value
  | unknownCommand name =>
    "argument command: invalid choice: " ++ Text.quoted name ++ " (choose from " ++
      Text.join ", " (Command.all.map fun c => Text.quoted c.name) ++ ")"
  | commandMissing => "the following arguments are required: command"
  | unrecognized arguments => "unrecognized arguments: " ++ Text.join " " arguments

/-- A refused call: the scope that refuses it, and why. -/
structure InvocationError where
  scope : Scope
  fault : InvocationFault
deriving DecidableEq, Repr, Inhabited

/-- What a refused call says: the usage of the scope, and the fault. -/
def InvocationError.text (columns : Nat) (e : InvocationError) : String :=
  Help.usage columns e.scope ++ "\n" ++ e.scope.name ++ ": error: " ++ e.fault.message ++ "\n"

namespace Invocation

/-! ## Words -/

/-- A value that stands in the same word as its option, behind an equals sign or not. -/
structure Attached where
  value : String
  marked : Bool
deriving DecidableEq, Repr, Inhabited

/-- A spelling of an option found in a word. -/
structure Found where
  option : OptionSpec
  flag : String
  attached : Option Attached := none
deriving DecidableEq, Repr, Inhabited

/-- What a word is to a scope. -/
inductive Word where
  | argument
  /-- Two dashes: all words behind them are arguments. -/
  | dashes
  | option (found : Found)
  | unknownOption
deriving DecidableEq, Repr, Inhabited

/-- The option with a spelling. -/
def withFlag? (options : List OptionSpec) (flag : String) : Option OptionSpec :=
  options.find? fun o => o.flags.contains flag

/-- All spellings of options in order. -/
def spellings (options : List OptionSpec) : List (OptionSpec × String) :=
  options.flatMap fun o => o.flags.map fun f => (o, f)

/-- The options that a word with two dashes may shorten. -/
def longCandidates (options : List OptionSpec) (word : String) : List Found :=
  let (start, attached) := match Text.cut? ['='] word.toList with
    | some (start, value) => (String.ofList start, some ⟨String.ofList value, true⟩)
    | none => (word, none)
  (spellings options).filterMap fun (option, flag) =>
    if Text.startsWith flag start then some { option, flag, attached } else none

/-- The options that a word with one dash may be: a short option with the rest of the word attached. -/
def shortCandidates (options : List OptionSpec) (word : String) : List Found :=
  let short := String.ofList (word.toList.take 2)
  let rest := String.ofList (word.toList.drop 2)
  (spellings options).filterMap fun (option, flag) =>
    if flag == short then some { option, flag, attached := some ⟨rest, false⟩ }
    else if Text.startsWith flag word then some { option, flag }
    else none

/-- Whether a word is a negative number; a line feed may end it. -/
def isNegativeNumber (word : String) : Bool :=
  let body (cs : List Char) : Bool :=
    match cs with
    | '-' :: ds =>
      let whole := ds.takeWhile Text.isDecimalDigit
      match ds.dropWhile Text.isDecimalDigit with
      | [] => !whole.isEmpty
      | '.' :: fraction => !fraction.isEmpty && fraction.all Text.isDecimalDigit
      | _ => false
    | _ => false
  let cs := word.toList
  body cs || (cs.getLast? == some '\n' && body cs.dropLast)

/-- The spelling of an option that is followed by an equals sign. -/
def marked? (options : List OptionSpec) (word : String) : Option Found :=
  match Text.cut? ['='] word.toList with
  | none => none
  | some (flag, value) =>
    (withFlag? options (String.ofList flag)).map fun option =>
      { option, flag := String.ofList flag, attached := some ⟨String.ofList value, true⟩ }

/-- What a word that starts with a dash and is no spelling of an option may be. -/
def wordOfCandidates (word : String) : List Found → Except InvocationFault Word
  | [found] => .ok (.option found)
  | [] =>
    .ok (if isNegativeNumber word || word.toList.contains ' ' then .argument else .unknownOption)
  | candidates => .error (.ambiguous word (candidates.map (·.flag)))

/-- What a word is to a scope with options. -/
def classify (options : List OptionSpec) (word : String) : Except InvocationFault Word :=
  match word.toList with
  | '-' :: second =>
    match withFlag? options word with
    | some option => .ok (.option { option, flag := word })
    | none =>
      if second.isEmpty then .ok .argument
      else match marked? options word with
        | some found => .ok (.option found)
        | none =>
          wordOfCandidates word (if second.head? == some '-' then longCandidates options word
            else shortCandidates options word)
  | _ => .ok .argument

/-- The words of a call with what they are to a scope. -/
def classifyAll (options : List OptionSpec) : List String → Except InvocationFault (List (String × Word))
  | [] => .ok []
  | "--" :: rest => .ok (("--", .dashes) :: rest.map fun w => (w, .argument))
  | w :: rest => do
    let word ← classify options w
    return (w, word) :: (← classifyAll options rest)

/-! ## Options -/

/-- What a word with options in it gives: options with their values, the option that takes the next word as
its value, and what is not recognised. -/
structure Reading where
  given : List (OptionSpec × String) := []
  waiting : Option OptionSpec := none
  extra : List String := []
deriving Inhabited

/-- Reads the options of one word: short options without values may stand together. The number bounds
them. -/
def readFound (options : List OptionSpec) : Nat → Found → Except InvocationFault Reading
  | fuel, found =>
    match found.attached, found.option.value with
    | none, none => .ok { given := [(found.option, "")] }
    | none, some _ => .ok { waiting := some found.option }
    | some attached, some _ => .ok { given := [(found.option, attached.value)] }
    | some attached, none =>
      let isShort := !Text.startsWith found.flag "--"
      match fuel, attached.value.toList with
      | fuel + 1, c :: rest =>
        if !isShort || attached.marked || c == '-' then
          .error (.valueIgnored found.option attached.value)
        else
          let flag := String.ofList ['-', c]
          match withFlag? options flag with
          | none => .ok { given := [(found.option, "")], extra := ["-" ++ attached.value] }
          | some option => do
            let next : Option Attached := match rest with
              | [] => none
              | '=' :: value => some ⟨String.ofList value, true⟩
              | value => some ⟨String.ofList value, false⟩
            let reading ← readFound options fuel { option, flag, attached := next }
            return { reading with given := (found.option, "") :: reading.given }
      | _, _ => .error (.valueIgnored found.option attached.value)

/-- Reads the options of one word. -/
def readOptions (options : List OptionSpec) (found : Found) : Except InvocationFault Reading :=
  readFound options ((found.attached.map fun a => a.value.length).getD 0) found

/-- What a scope made of its words so far. -/
structure Progress where
  settings : Settings := {}
  extra : List String := []
  /-- Whether help was asked for, which ends the reading. -/
  helped : Bool := false
deriving Inhabited

/-- Takes options one after the other, up to one that asks for help. -/
def Progress.take (p : Progress) : List (OptionSpec × String) → Progress
  | [] => p
  | (option, value) :: rest =>
    if option.key == .help then { p with helped := true }
    else take { p with settings := p.settings.set option.key value } rest

/-- Reads the words of a command. -/
def readWords (options : List OptionSpec) : Progress → List (String × Word) →
    Except InvocationFault Progress
  | p, [] => .ok p
  | p, (_, .option found) :: rest => do
    let reading ← readOptions options found
    match reading.waiting, rest with
    | none, rest =>
      let p := ({ p with extra := p.extra ++ reading.extra }).take reading.given
      if p.helped then return p else readWords options p rest
    | some option, (value, .argument) :: rest =>
      let p := p.take (reading.given ++ [(option, value)])
      if p.helped then return p else readWords options p rest
    | some option, _ => .error (.valueMissing option)
  | p, (w, _) :: rest => readWords options { p with extra := p.extra ++ [w] } rest

/-- Reads the words behind a command. -/
def readCommand (c : Command) (words : List String) : Except InvocationFault Progress := do
  readWords c.options {} (← classifyAll c.options words)

/-! ## Calls -/

/-- What the words before the command give: what is not recognised, whether help was asked for, and the
words from the command on. -/
def readProgram (options : List OptionSpec) : Progress → List (String × Word) →
    Except InvocationFault (Progress × List String)
  | p, [] => .ok (p, [])
  | p, (_, .option found) :: rest => do
    let reading ← readOptions options found
    let p := ({ p with extra := p.extra ++ reading.extra }).take reading.given
    if p.helped then return (p, []) else readProgram options p rest
  | p, (w, .unknownOption) :: rest => readProgram options { p with extra := p.extra ++ [w] } rest
  | p, words => .ok (p, words.map Prod.fst)

/-- What a call asks for. -/
def ofArguments (arguments : List String) : Except InvocationError Invocation := do
  let refuse (scope : Scope) (fault : InvocationFault) : InvocationError := ⟨scope, fault⟩
  let options := Scope.options none
  let words ← (classifyAll options arguments).mapError (refuse none)
  let (before, rest) ← (readProgram options {} words).mapError (refuse none)
  if before.helped then return .help none
  match rest with
  | [] | ["--"] => .error (refuse none .commandMissing)
  | name :: rest =>
    match Command.ofName? name with
    | none => .error (refuse none (.unknownCommand name))
    | some c =>
      let p ← (readCommand c rest).mapError (refuse (some c))
      let extra := before.extra ++ p.extra
      if p.helped then return .help (some c)
      else if extra.isEmpty then return .run c p.settings
      else .error (refuse none (.unrecognized extra))

end Invocation

end FeatureAtlas
