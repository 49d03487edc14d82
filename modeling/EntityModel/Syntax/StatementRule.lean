import EntityModel.Syntax.ExpressionRule

/-!
# Statements

Of statements only value declarations and returns have parts; all others are read to know where
they end and that they are well formed.
-/

namespace EntityModel.Syntax.Grammar

open EntityModel.Syntax.Parser

variable (grammar : Grammar)

/-- A statement of which only its end matters. -/
def plainStatement : Tree := .leaf "statement" ""

/-- Reads a statement of which only its end matters. -/
def forgotten (inner : Parser Unit) : Parser Tree := do
  inner
  return plainStatement

/-- Reads the declaration of one variable, by a name or by a pattern. -/
def declarator (surroundings : Surroundings) : Parser Tree := do
  let name ←
    if ← atWord then pure (Tree.leaf "identifier" (← word)) else grammar.patternTree
  let _ ← trySymbol "!"
  if ← trySymbol ":" then grammar.type
  if ← trySymbol "=" then
    let value ← grammar.expression surroundings
    return .branch "variable_declarator" [name.inField "name", value.inField "value"]
  else return .branch "variable_declarator" [name.inField "name"]

/-- Reads the declarations of variables behind their keyword. -/
def declarators (surroundings : Surroundings) : Parser (List Tree) :=
  commaSeparated (grammar.declarator surroundings)

def enumeration : Parser Unit := do
  keyword "enum"
  let _ ← word
  char '\x7b'
  let _ ← items '\x7d' do
    let _ ← grammar.key
    grammar.initializer

/-- Reads the declaration of variables from its keyword on, or an enumeration behind `const`. -/
def variableDeclaration : Parser Tree := do
  let opening ← word
  let next ← peekWord
  if opening == "const" && next == "enum" then
    forgotten grammar.enumeration
  else
    check (opening != "let" || next != "" || (← atChar '[') || (← atChar '\x7b'))
    let declarators ← grammar.declarators .statement
    semicolon true
    let kind := if opening == "var" then "variable_declaration" else "lexical_declaration"
    return .branch kind declarators

/-- Reads a function declaration, with its body or as a signature only. -/
def function : Parser Unit := do
  let _ ← tryKeyword "async"
  keyword "function"
  let _ ← tryChar '*'
  let _ ← word
  let _ ← grammar.callSignature
  if ← atChar '\x7b' then
    let _ ← grammar.block
  else semicolon false

def classDeclaration : Parser Unit := do
  let _ ← tryKeyword "abstract"
  check (← ahead do
    keyword "class"
    let name ← word
    check (name != "extends" && name != "implements"))
  grammar.classRule

def interface : Parser Unit := do
  keyword "interface"
  let _ ← word
  grammar.typeParameters
  if ← tryKeyword "extends" then
    let _ ← commaSeparated grammar.type
  grammar.objectType

def typeAlias : Parser Unit := do
  keyword "type"
  let _ ← word
  grammar.typeParameters
  symbol "="
  grammar.type
  semicolon false

def qualifiedName : Parser Unit := do
  let _ ← word
  let _ ← many do
    symbol "."
    word

def namespaceRule : Parser Unit := do
  let opening ← word
  if opening == "global" then
    let _ ← grammar.block
  else
    check (opening == "namespace" || opening == "module")
    check (!(← get).freshLine)
    if ← atWord then qualifiedName
    else
      let _ ← stringLiteral
    if ← atChar '\x7b' then
      let _ ← grammar.block
    else semicolon false

def nameAlias : Parser Unit := do
  keyword "import"
  let _ ← word
  symbol "="
  qualifiedName
  semicolon false

/-- Reads a declaration that only a compiler of types looks at. -/
def ambient : Parser Unit := do
  keyword "declare"
  check (!(← get).freshLine)
  if (← peekWord) == "global" then grammar.namespaceRule
  else
    let _ ← grammar.declaration

/-- Reads the source that names are imported or exported from, with its attributes. -/
def source : Parser Unit := do
  let _ ← stringLiteral
  let next ← peekWord
  if next == "with" || next == "assert" then
    let _ ← word
    let _ ← grammar.objectLiteral

def fromSource : Parser Unit := do
  keyword "from"
  grammar.source

def externalName : Parser Unit := do
  if ← atWord then
    let _ ← word
  else
    let _ ← stringLiteral

/-- Reads names between braces. Each is read by one of two rules and may have the mark of a type in
front of it. -/
def nameList (renamed plain : Parser Unit) : Parser Unit := do
  char '\x7b'
  let complete (inner : Parser Unit) : Parser Unit := do
    inner
    check ((← atSymbol ",") || (← atChar '\x7d'))
  let typed (inner : Parser Unit) : Parser Unit := do
    either (keyword "type") (keyword "typeof")
    inner
  let _ ← items '\x7d' <|
    either (complete renamed) <| either (complete plain) <|
      either (complete (typed renamed)) (complete (typed plain))

/-- Reads names that are imported: words, each with the name it has elsewhere if that differs. -/
def importedNames : Parser Unit :=
  let renamed : Parser Unit := do
    externalName
    keyword "as"
    let _ ← word
  let plain : Parser Unit := do
    let _ ← word
  nameList renamed plain

/-- Reads names that are exported, each with the name it has elsewhere if that differs. -/
def exportedNames : Parser Unit :=
  let renamed : Parser Unit := do
    externalName
    keyword "as"
    externalName
  nameList renamed externalName

def importClause : Parser Unit := do
  let rest : Parser Unit := do
    if ← atChar '\x7b' then importedNames
    else
      symbol "*"
      keyword "as"
      let _ ← word
  if ← atWord then
    let _ ← word
    if ← trySymbol "," then rest
  else rest

def importRule : Parser Unit := do
  let plain : Parser Unit := do
    grammar.source
    semicolon false
  let clause : Parser Unit := do
    importClause
    grammar.fromSource
    semicolon false
  let alias' : Parser Unit := do
    let _ ← word
    symbol "="
    if ← tryKeyword "require" then
      char '('
      let _ ← stringLiteral
      char ')'
    else qualifiedName
    semicolon false
  let typed (inner : Parser Unit) : Parser Unit := do
    either (keyword "type") (keyword "typeof")
    inner
  keyword "import"
  either plain <| either clause <| either alias' <|
    either (typed clause) (typed alias')

/-- Reads a declaration that is exported. -/
def exportedDeclaration : Parser Tree := do
  return .branch "export_statement" [(← grammar.declaration).inField "declaration"]

/-- Reads what is exported as the main value of a file: a declaration, or else a value. -/
def defaultExport : Parser Tree := do
  let value : Parser Unit := do
    let _ ← grammar.expression .statement
    semicolon true
  keyword "default"
  either grammar.exportedDeclaration (forgotten value)

def exportRule : Parser Tree := do
  let all : Parser Unit := do
    symbol "*"
    if ← tryKeyword "as" then externalName
    grammar.fromSource
    semicolon false
  let names : Parser Unit := do
    let _ ← either (tryKeyword "type") (pure false)
    exportedNames
    if (← peekWord) == "from" then grammar.fromSource
    semicolon false
  let value : Parser Unit := do
    symbol "="
    let _ ← grammar.expression .statement
    semicolon true
  let global : Parser Unit := do
    keyword "as"
    keyword "namespace"
    let _ ← word
    semicolon false
  let nothing : Parser Unit := semicolon true
  keyword "export"
  match ← peekWord with
  | "default" => grammar.defaultExport
  | "as" => forgotten global
  | "" =>
    either (forgotten (either all (either names (either value nothing))))
      grammar.exportedDeclaration
  | _ => either grammar.exportedDeclaration (forgotten (either names nothing))

/-- Reads the head of a loop over a range or over the members of a value. -/
def forHead : Parser Unit := do
  let keyed : Parser Unit := do
    if ["const", "let", "var"].contains (← peekWord) then
      let kind ← word
      grammar.pattern
      if kind == "var" then
        if ← trySymbol "=" then
          let _ ← grammar.expression ⟨false, false, true⟩
    else
      let _ ← grammar.operand ⟨false, false, true⟩
    either (keyword "of") (keyword "in")
    let _ ← grammar.expressions .nested
    char ')'
  let counted : Parser Unit := do
    if ← trySymbol ";" then pure ()
    else
      if ["const", "let", "var"].contains (← peekWord) then
        let _ ← word
        let _ ← grammar.declarators ⟨false, false, true⟩
      else
        let _ ← grammar.expressions ⟨false, false, true⟩
      symbol ";"
    if ← trySymbol ";" then pure ()
    else
      let _ ← grammar.expressions .nested
      symbol ";"
    if ← tryChar ')' then pure ()
    else
      let _ ← grammar.expressions .nested
      char ')'
  let _ ← tryKeyword "await"
  char '('
  either keyed counted

def caseRule : Parser Unit := do
  if ← tryKeyword "default" then char ':'
  else
    keyword "case"
    let _ ← grammar.expressions .nested
    char ':'
  let _ ← many do
    let next ← peekWord
    check (next != "case" && next != "default")
    grammar.statement

def handlers : Parser Unit := do
  if ← tryKeyword "catch" then
    if ← tryChar '(' then
      grammar.pattern
      if ← trySymbol ":" then grammar.type
      char ')'
    let _ ← grammar.block
  if ← tryKeyword "finally" then
    let _ ← grammar.block

def returnRule : Parser Tree := do
  keyword "return"
  let here ← get
  if ← trySymbol ";" then return .branch "return_statement" []
  else if omittable false here then return .branch "return_statement" []
  else
    let value ← grammar.expressions .statement
    semicolon true
    return .branch "return_statement" [value]

def expressionStatement : Parser Unit := do
  let _ ← grammar.expressions .statement
  semicolon true

/-- Reads a statement that starts with a reserved word; there is none for any other word. -/
def reservedStatement? : String → Option (Parser Unit)
  | "if" => some do
    keyword "if"
    let _ ← grammar.parenthesized
    let _ ← grammar.statement
    if ← tryKeyword "else" then
      let _ ← grammar.statement
  | "for" => some do
    keyword "for"
    grammar.forHead
    let _ ← grammar.statement
  | "while" => some do
    keyword "while"
    let _ ← grammar.parenthesized
    let _ ← grammar.statement
  | "do" => some do
    keyword "do"
    let _ ← grammar.statement
    keyword "while"
    let _ ← grammar.parenthesized
    let _ ← trySymbol ";"
  | "switch" => some do
    keyword "switch"
    let _ ← grammar.parenthesized
    char '\x7b'
    let _ ← many grammar.caseRule
    char '\x7d'
  | "try" => some do
    keyword "try"
    let _ ← grammar.block
    grammar.handlers
  | "with" => some do
    keyword "with"
    let _ ← grammar.parenthesized
    let _ ← grammar.statement
  | "throw" => some do
    keyword "throw"
    let _ ← grammar.expressions .statement
    semicolon true
  | "break" => some do
    keyword "break"
    if !(← get).freshLine then
      let _ ← tryParse word
    semicolon false
  | "continue" => some do
    keyword "continue"
    if !(← get).freshLine then
      let _ ← tryParse word
    semicolon false
  | "debugger" => some do
    keyword "debugger"
    semicolon false
  | _ => none

/-- Reads a declaration that starts with a given word; there is none for any other word. -/
def namedDeclaration? (first : String) : Option (Parser Tree) :=
  match first with
  | "const" => some grammar.variableDeclaration
  | "let" => some grammar.variableDeclaration
  | "var" => some grammar.variableDeclaration
  | "function" => some (forgotten grammar.function)
  | "async" => some (forgotten grammar.function)
  | "class" => some (forgotten grammar.classDeclaration)
  | "abstract" => some (forgotten grammar.classDeclaration)
  | "enum" => some (forgotten grammar.enumeration)
  | "interface" => some (forgotten grammar.interface)
  | "type" => some (forgotten grammar.typeAlias)
  | "namespace" => some (forgotten grammar.namespaceRule)
  | "module" => some (forgotten grammar.namespaceRule)
  | "declare" => some (forgotten grammar.ambient)
  | "import" => some (forgotten nameAlias)
  | _ => none

/-- Reads a declaration. Only classes have decorators. -/
def declarationRule : Parser Tree := do
  if ← atChar '@' then
    grammar.decorators
    forgotten grammar.classDeclaration
  else
    match grammar.namedDeclaration? (← peekWord) with
    | some declaration => declaration
    | none => refuse

/-- Whether a word that starts declarations may start an expression as well. -/
def startsExpression (first : String) : Bool :=
  ["let", "function", "async", "class", "type", "namespace", "module", "declare"].contains first

def labeled : Parser Unit := do
  let _ ← word
  char ':'
  let _ ← grammar.statement

def wordStatement : Parser Tree := do
  let first ← peekWord
  let plain := forgotten (either grammar.labeled grammar.expressionStatement)
  match first with
  | "export" => grammar.exportRule
  | "return" => grammar.returnRule
  | "import" => either (forgotten grammar.importRule) plain
  | _ =>
    match grammar.reservedStatement? first, grammar.namedDeclaration? first with
    | some statement, _ => forgotten statement
    | none, some declaration =>
      if startsExpression first then either declaration plain else declaration
    | none, none => plain

def statementRule : Parser Tree := do
  match (← peek).head? with
  | some '\x7b' => grammar.block
  | some ';' =>
    take 1
    return plainStatement
  | some '@' =>
    let exported : Parser Tree := do
      grammar.decorators
      grammar.exportRule
    either grammar.declarationRule exported
  | _ =>
    if ← atWord then grammar.wordStatement
    else forgotten grammar.expressionStatement

def rule : (goal : Goal) → Parser goal.Answer
  | .type => grammar.typeRule
  | .pattern => grammar.patternRule
  | .operand surroundings => grammar.operandRule surroundings
  | .expression surroundings => grammar.expressionRule surroundings
  | .declaration => grammar.declarationRule
  | .statement => grammar.statementRule

/-- The grammar as far as its parts contain one another at most a number of times. -/
def upTo : Nat → Grammar
  | 0 => ⟨fun _ => refuse⟩
  | depth + 1 => ⟨fun goal => (upTo depth).rule goal⟩

end EntityModel.Syntax.Grammar
