import FeatureAtlas.Syntax.Expression

/-!
# Statements

Statements and declarations. Import declarations at the top of a file are recorded. A statement may end
with a semicolon or without one.
-/

namespace FeatureAtlas.Syntax.Rules

open Syntax.Parser

/-- An optional semicolon. -/
def semicolon : Parser Unit := do
  let _ ← accept ";"

/-! ## Imports and exports -/

/-- The text between the quotes of a string. -/
def stringText : Parser String := do
  let m ← mark
  string
  let s ← textFrom m
  return String.ofList ((s.toList.drop 1).dropLast)

/-- A name or a string, as the name of an export. -/
def exportName : Parser String := do
  match ← attempt stringText with
  | some s => return s
  | none => name

/-- The names of a specifier up to a comma or a closing brace. -/
def specifierNames : Nat → Parser (List String)
  | 0 => failure
  | n + 1 => do
    if (← looksAt ",") || (← looksAt "\x7d") then return []
    let first ← exportName
    return first :: (← specifierNames n)

/-- The binding that the names of a specifier make: a name, a name with a local one, and either of them
behind a modifier. -/
def bindingOf? : List String → Option ImportBinding
  | [n] => some ⟨n, n⟩
  | [_, n] => some ⟨n, n⟩
  | [n, "as", l] => some ⟨n, l⟩
  | [_, n, "as", l] => some ⟨n, l⟩
  | _ => none

/-- Named specifiers up to the closing brace. -/
def specifiers (acc : List ImportBinding) : Nat → Parser (List ImportBinding)
  | 0 => failure
  | n + 1 => do
    if ← accept "\x7d" then return acc
    if ← accept "," then specifiers acc n
    else match bindingOf? (← specifierNames 5) with
      | some b => specifiers (acc ++ [b]) n
      | none => failure

/-- Named specifiers in braces. -/
def namedSpecifiers : Parser (List ImportBinding) := do
  sign "\x7b"
  specifiers [] (← budget)

/-- All exports under one name. -/
def starImport : Parser Unit := do
  sign "*"
  keyword "as"
  let _ ← exportName

/-- The modifier of type imports, unless it is the default name. -/
def importModifier : Parser Unit := do
  if !(← acceptWord "type") then keyword "typeof"
  let w ← word
  if w == "from" then
    token 4
    ensure ((← word) == "from")
  else ensure (w != "" || (← looksAt "\x7b") || (← looksAt "*"))

/-- The default name and the named imports of a declaration. -/
def importClause : Parser (Option String × List ImportBinding) := do
  if ← wouldSucceed importModifier then
    let _ ← name
  let defaultName ← if (← word) == "" then pure none else some <$> name
  if defaultName.isSome then
    if !(← accept ",") then return (defaultName, [])
  if ← looksAt "*" then
    starImport
    return (defaultName, [])
  return (defaultName, ← namedSpecifiers)

/-- Attributes behind a module specifier. -/
def importAttributes (r : Rules) : Parser Unit := do
  let _ ← parses do
    if !(← acceptWord "with") then keyword "assert"
    objectLiteral r

/-- An import by assignment: of a module, or of a member of a namespace. -/
def importAlias : Parser Unit := do
  let _ ← acceptWord "type"
  let _ ← name
  sign "="
  let required ← parses do
    keyword "require"
    sign "("
    string
    sign ")"
  if !required then
    let _ ← name
    whileTrue do
      if ← accept "." then
        let _ ← name
        return true
      else return false

/-- An import declaration behind its keyword. -/
def importDeclaration (r : Rules) : Parser ImportDeclaration := do
  match ← attempt stringText with
  | some specifier =>
    importAttributes r
    return { specifier }
  | none =>
    let (defaultName, named) ← importClause
    keyword "from"
    let specifier ← stringText
    importAttributes r
    return { specifier, defaultName, named }

/-- An import statement behind its keyword. -/
def importStatement (r : Rules) (top : Bool) : Parser Unit := do
  if !(← parses importAlias) then
    let d ← importDeclaration r
    if top then recordImport d
  semicolon

/-- An optional source of exports. -/
def exportSource (r : Rules) : Parser Unit := do
  if ← acceptWord "from" then
    string
    importAttributes r
  semicolon

/-- Words that start a declaration behind `export default`. -/
def defaultDeclarations : List String := ["function", "class", "abstract", "interface"]

/-- What is exported by default. -/
def exportDefault (r : Rules) : Parser Unit := do
  let declares ← wouldSucceed do
    if !(← looksAt "@") then
      let asynchronous ← acceptWord "async"
      let w ← word
      ensure (if asynchronous then w == "function" else defaultDeclarations.contains w)
      token w.length
      ensure !((← looksAt ".") || (← looksAt ")") || (← looksAt ";") || (← looksAt ","))
  if declares && (← parses (r.statement false)) then return
  r.assignment false
  semicolon

/-- An export behind its keyword. -/
def exportStatement (r : Rules) : Parser Unit := do
  if ← accept "=" then
    expression r
    semicolon
  else if ← acceptWord "default" then exportDefault r
  else if ← accept "*" then
    if ← acceptWord "as" then
      let _ ← exportName
    exportSource r
  else
    let listed ← parses do
      if (← word) == "type" then token 4
      let _ ← namedSpecifiers
    if listed then exportSource r
    else
      let space ← parses do
        keyword "as"
        keyword "namespace"
        let _ ← name
      if space then semicolon else r.statement false

/-! ## Declarations -/

/-- A function behind its keyword, with an optional semicolon where the body is missing. -/
def functionDeclaration (r : Rules) : Parser Unit := do
  functionTail r
  semicolon

/-- An interface behind its keyword. -/
def interfaceDeclaration (r : Rules) : Parser Unit := do
  let _ ← name
  if ← looksAt "<" then typeParameters r
  if ← acceptWord "extends" then
    whileTrue do
      r.type
      accept ","
  objectType r

/-- A type alias behind its keyword. -/
def typeAlias (r : Rules) : Parser Unit := do
  let _ ← name
  if ← looksAt "<" then typeParameters r
  sign "="
  r.type
  semicolon

/-- An enumeration behind its keyword. -/
def enumDeclaration (r : Rules) : Parser Unit := do
  let _ ← name
  sign "\x7b"
  commaList "\x7d" do
    memberName r
    defaultValue r

/-- A namespace or module behind its keyword. -/
def namespaceDeclaration (r : Rules) : Parser Unit := do
  if (← word) == "" then string
  else
    let _ ← name
    whileTrue do
      if ← accept "." then
        let _ ← name
        return true
      else return false
  if ← looksAt "\x7b" then block r
  semicolon

/-- Declarations that start with a word which may also be a name. -/
def contextualDeclaration (r : Rules) : Parser Unit := do
  let w ← name
  ensure !(← get).newline
  if w == "type" then typeAlias r
  else if w == "interface" then interfaceDeclaration r
  else if w == "namespace" || w == "module" then
    ensure ((← word) != "" || (← looksAt "\"") || (← looksAt "'"))
    namespaceDeclaration r
  else if w == "abstract" then r.classDeclaration
  else if w == "global" then block r
  else if w == "declare" then
    ensure ((← word) != "")
    r.statement false
  else if w == "async" then
    keyword "function"
    functionDeclaration r
  else if w == "using" then
    ensure ((← word) != "" && (← word) != "in" && (← word) != "of" && (← word) != "instanceof")
    declarators r false
    semicolon
  else if w == "let" then
    ensure ((← word) != "" || (← looksAt "\x7b") || (← looksAt "["))
    declarators r false
    semicolon
  else failure

/-- Words that start a contextual declaration. -/
def contextualWords : List String :=
  ["type", "interface", "namespace", "module", "abstract", "global", "declare", "async", "using", "let"]

/-! ## Control -/

/-- An expression in parentheses. -/
def condition (r : Rules) : Parser Unit := do
  sign "("
  expression r
  sign ")"

/-- Words that start a declaration in the head of a loop. -/
def acceptDeclarator : Parser Bool := do
  for w in ["var", "let", "const", "using"] do
    let found ← parses do
      keyword w
      ensure ((← word) != "" && (← word) != "of" && (← word) != "in" || (← looksAt "\x7b") ||
        (← looksAt "["))
    if found then return true
  return false

/-- The head of a loop over values or by counting. -/
def forHead (r : Rules) : Parser Unit := do
  sign "("
  let _ ← parses do
    keyword "await"
    ensure ((← word) == "using")
  if ← acceptDeclarator then declarators r true
  else if !(← looksAt ";") then
    r.assignment true
    whileTrue do
      if ← accept "," then
        r.assignment true
        return true
      else return false
  if (← word) == "of" || (← word) == "in" then
    let _ ← name
    expression r
  else
    sign ";"
    if !(← looksAt ";") then expression r
    sign ";"
    if !(← looksAt ")") then expression r
  sign ")"

/-- The cases of a switch in braces. -/
def switchBody (r : Rules) : Parser Unit := do
  sign "\x7b"
  whileTrue do
    if ← looksAt "\x7d" then return false
    let isCase ← parses do
      keyword "case"
      expression r
      sign ":"
    if isCase then return true
    let isDefault ← parses do
      keyword "default"
      sign ":"
    if isDefault then return true
    r.statement false
    return true
  sign "\x7d"

/-- The handlers of a guarded block. -/
def handlers (r : Rules) : Parser Unit := do
  if ← acceptWord "catch" then
    if ← accept "(" then
      r.pattern
      if ← accept ":" then r.type
      sign ")"
    block r
  if ← acceptWord "finally" then block r

/-- A statement behind a keyword that is no name. -/
def keywordStatement (r : Rules) (top : Bool) (w : String) : Parser Unit := do
  match w with
  | "if" =>
    condition r
    r.statement false
    if ← acceptWord "else" then r.statement false
  | "for" =>
    let _ ← acceptWord "await"
    forHead r
    r.statement false
  | "while" =>
    condition r
    r.statement false
  | "do" =>
    r.statement false
    keyword "while"
    condition r
    semicolon
  | "with" =>
    condition r
    r.statement false
  | "switch" =>
    condition r
    switchBody r
  | "try" =>
    block r
    handlers r
  | "return" =>
    let ends := (← get).newline || (← looksAt ";") || (← looksAt "\x7d") || (← next?).isNone
    if !ends then expression r
    semicolon
  | "throw" =>
    expression r
    semicolon
  | "break" =>
    if !(← get).newline && (← word) != "" then
      let _ ← name
    semicolon
  | "continue" =>
    if !(← get).newline && (← word) != "" then
      let _ ← name
    semicolon
  | "debugger" => semicolon
  | "var" =>
    declarators r false
    semicolon
  | "const" =>
    if ← acceptWord "enum" then enumDeclaration r
    else
      declarators r false
      semicolon
  | "enum" => enumDeclaration r
  | "function" => functionDeclaration r
  | "import" => importStatement r top
  | "export" => exportStatement r
  | _ => failure

/-- Keywords that start a statement. -/
def statementWords : List String :=
  ["if", "for", "while", "do", "with", "switch", "try", "return", "throw", "break", "continue",
   "debugger", "var", "const", "enum", "function", "import", "export"]

/-- An expression as a statement. -/
def expressionStatement (r : Rules) : Parser Unit := do
  expression r
  semicolon

/-- A label before a statement. -/
def label : Parser Unit := do
  let _ ← name
  sign ":"

/-- A statement. -/
def anyStatement (r : Rules) (top : Bool) : Parser Unit := do
  if ← accept ";" then return
  if ← looksAt "\x7b" then
    block r
    return
  if ← looksAt "@" then
    let decorated ← parses do
      decorators r
      if ← acceptWord "export" then let _ ← acceptWord "default"
      let _ ← acceptWord "declare"
      let _ ← acceptWord "abstract"
      r.classDeclaration
    if decorated then return
  let w ← word
  if w == "class" then
    r.classDeclaration
    return
  if statementWords.contains w then
    let meant ← wouldSucceed do
      token w.length
      ensure (w != "import" || !((← looksAt "(") || (← looksAt ".")))
    if meant then
      token w.length
      keywordStatement r top w
      return
  if contextualWords.contains w then
    if ← parses (contextualDeclaration r) then return
  if ← parses label then r.statement false
  else expressionStatement r

/-! ## Files -/

/-- Passes over a first line for the system and reads statements to the end. A statement that cannot be read
is passed over token by token. -/
def file (r : Rules) : Parser Unit := do
  if ← looksAt "#!" then token ((← rest).takeWhile (· != '\n')).length
  whileTrue do
    if (← next?).isNone then return false
    if !(← parses (r.statement true)) then token (max 1 (← word).length)
    return true

end FeatureAtlas.Syntax.Rules
