import EntityModel.Syntax.Grammar

/-!
# Names, patterns and signatures

The keys of members, binding patterns, and the parameters and result types of functions.
-/

namespace EntityModel.Syntax

/-- The key of a member, and whether it is written as a plain word. -/
structure Key where
  tree : Tree
  plain : Bool

namespace Grammar

open EntityModel.Syntax.Parser

variable (grammar : Grammar)

/-- Reads a private name, its mark included. -/
def privateName : Parser String := do
  match ← peek with
  | '#' :: text =>
    let length := wordLength text
    check (length != 0)
    take (length + 1)
    return String.ofList ('#' :: text.take length)
  | _ => refuse

/-- Reads the name behind the point of a member access. -/
def propertyName : Parser String := either privateName word

def key : Parser Key := do
  if ← atWord then
    return ⟨.leaf "property_identifier" (← word), true⟩
  else
    match (← peek).head? with
    | some '[' =>
      let text ← textOf do
        char '['
        let _ ← grammar.expression .nested
        char ']'
      return ⟨.leaf "computed_property_name" text, false⟩
    | some '#' => return ⟨.leaf "private_property_identifier" (← privateName), false⟩
    | some '\x22' => return ⟨.leaf "string" (String.ofList (← stringLiteral)), false⟩
    | some '\x27' => return ⟨.leaf "string" (String.ofList (← stringLiteral)), false⟩
    | _ => return ⟨.leaf "number" (String.ofList (← numberLiteral)), false⟩

def atKey : Parser Bool := do
  let text ← peek
  return wordLength text != 0 || numberLength text != 0 ||
    "[#\x22\x27".toList.any fun char => text.head? == some char

/-- Reads the words that may stand in front of the key of a member, for as long as a key or an
asterisk follows them. -/
def modifiers : Parser (List String) :=
  many do
    let modifier ← word
    check (["public", "private", "protected", "static", "override", "readonly", "abstract",
      "declare", "accessor", "async", "get", "set"].contains modifier)
    check ((← atKey) || (← atSymbol "*"))
    return modifier

/-- Reads a binding pattern or a target of a destructuring assignment. -/
def patternRule : Parser Unit := do
  if ← trySymbol "..." then grammar.pattern
  else if ← tryChar '[' then
    let _ ← sparseItems ']' do
      grammar.pattern
      grammar.initializer
  else if ← tryChar '\x7b' then
    let _ ← sparseItems '\x7d' do
      if ← trySymbol "..." then grammar.pattern
      else
        let key ← grammar.key
        if ← trySymbol ":" then grammar.pattern else check key.plain
        grammar.initializer
  else
    let _ ← word
    let _ ← many do
      if ← trySymbol "." then
        let _ ← propertyName
      else
        char '['
        let _ ← grammar.expressions .nested
        char ']'

/-- The kind of a pattern that starts with a character. -/
def patternKind : Option Char → String
  | some '\x7b' => "object_pattern"
  | some '[' => "array_pattern"
  | some '.' => "rest_pattern"
  | _ => "identifier"

/-- Reads a pattern as it is written. -/
def patternTree : Parser Tree := do
  let kind := patternKind (← peek).head?
  return .leaf kind (← textOf grammar.pattern)

def decorators : Parser Unit := do
  let _ ← many do
    char '@'
    let _ ← grammar.operand .nested

def parameter : Parser Tree := do
  grammar.decorators
  let _ ← many do
    let modifier ← word
    check (["public", "private", "protected", "override", "readonly"].contains modifier)
    let text ← peek
    check (wordLength text != 0 || text.head? == some '[' || text.head? == some '\x7b')
  let pattern ← grammar.patternTree
  let _ ← tryChar '?'
  if ← trySymbol ":" then grammar.type
  grammar.initializer
  return .branch "required_parameter" [pattern.inField "pattern"]

/-- Reads parameters between parentheses. -/
def parameters : Parser Tree := do
  char '('
  return .branch "formal_parameters" (← items ')' grammar.parameter)

def typeParameters : Parser Unit := do
  if ← tryChar '<' then
    let _ ← items '>' do
      let _ ← many do
        let modifier ← word
        check (["const", "in", "out"].contains modifier)
        check (← atWord)
      let _ ← word
      if ← tryKeyword "extends" then grammar.type
      if ← tryChar '=' then grammar.type

def typeArguments : Parser Unit := do
  char '<'
  let arguments ← items '>' grammar.type
  check (!arguments.isEmpty)

/-- Reads a result type: a type, or what a test of a value tells about its type. -/
def resultType : Parser Unit := do
  let predicate : Parser Unit := do
    let _ ← word
    keyword "is"
    grammar.type
  let assertion : Parser Unit := do
    keyword "asserts"
    let _ ← word
    if ← tryKeyword "is" then grammar.type
  either assertion (either predicate grammar.type)

/-- Reads the parameters of a function and what it returns. -/
def callSignature : Parser Tree := do
  grammar.typeParameters
  let parameters ← grammar.parameters
  if ← trySymbol ":" then grammar.resultType
  return parameters

end Grammar

end EntityModel.Syntax
