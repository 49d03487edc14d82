import EntityModel.Syntax.Signature

/-!
# Types

Types are read and forgotten: only where they end matters.
-/

namespace EntityModel.Syntax.Grammar

open EntityModel.Syntax.Parser

variable (grammar : Grammar)

/-- Reads the separator of members of an object type. -/
def memberEnd : Parser Unit := do
  if ← tryChar ',' then pure () else semicolon false

/-- Reads the key of an index signature or of a mapped type, and its type. -/
def indexSignature : Parser Unit := do
  let _ ← many (either (symbol "+") (symbol "-"))
  let _ ← tryKeyword "readonly"
  char '['
  let _ ← word
  if ← tryChar ':' then grammar.type
  else
    keyword "in"
    grammar.type
    if ← tryKeyword "as" then grammar.type
  char ']'
  let _ ← many (either (symbol "+") (symbol "-"))
  let _ ← tryChar '?'
  if ← trySymbol ":" then grammar.type

def typeMember : Parser Unit := do
  let newSignature : Parser Unit := do
    keyword "new"
    let _ ← grammar.callSignature
  let callable : Parser Unit := do
    let _ ← grammar.callSignature
  let property : Parser Unit := do
    let _ ← modifiers
    let _ ← grammar.key
    let _ ← tryChar '?'
    if (← atChar '(') || (← atChar '<') then
      let _ ← grammar.callSignature
    else if ← trySymbol ":" then grammar.type
  either grammar.indexSignature (either newSignature (either callable property))

def objectType : Parser Unit := do
  char '\x7b'
  let _ ← tryParse (either (char ';') (char ','))
  let _ ← many do
    grammar.typeMember
    memberEnd
  char '\x7d'

def tupleMember : Parser Unit := do
  let _ ← trySymbol "..."
  let label : Parser Unit := do
    let _ ← word
    let _ ← tryChar '?'
    symbol ":"
  let _ ← tryParse label
  grammar.type
  let _ ← tryChar '?'

/-- Reads a type name with its qualifiers and arguments. -/
def typeName : Parser Unit := do
  let _ ← word
  let _ ← many do
    symbol "."
    let _ ← propertyName
  if ← atChar '<' then grammar.typeArguments

/-- Reads a type that is not made of others by operators. -/
def primaryType : Parser Unit := do
  match (← peek).head? with
  | some '(' =>
    char '('
    grammar.type
    char ')'
  | some '\x7b' => grammar.objectType
  | some '[' =>
    char '['
    let _ ← items ']' grammar.tupleMember
  | some '\x60' =>
    let _ ← template grammar.type
  | some '\x22' =>
    let _ ← stringLiteral
  | some '\x27' =>
    let _ ← stringLiteral
  | some '*' => char '*'
  | some '-' =>
    char '-'
    let _ ← numberLiteral
  | some '#' =>
    let _ ← privateName
  | _ =>
    if ← atWord then
      let name ← peekWord
      if name == "import" then
        let _ ← word
        char '('
        let _ ← items ')' (grammar.expression .nested)
        let _ ← many do
          symbol "."
          let _ ← propertyName
        if ← atChar '<' then grammar.typeArguments
      else grammar.typeName
    else
      let _ ← numberLiteral

/-- Reads a type with the brackets of arrays and element accesses behind it. -/
def bracketedType : Parser Unit := do
  grammar.primaryType
  let _ ← many do
    check (!(← get).freshLine)
    char '['
    if ← tryChar ']' then pure ()
    else
      grammar.type
      char ']'

def operandType : Parser Unit := do
  let _ ← many do
    let operator ← word
    check (["keyof", "typeof", "readonly", "unique", "infer", "abstract"].contains operator)
    let text ← peek
    check (wordLength text != 0 || "([\x7b\x22\x27\x60".toList.any fun c => text.head? == some c)
  grammar.bracketedType

def unionType : Parser Unit := do
  let _ ← tryParse (either (char '|') (char '&'))
  grammar.operandType
  let _ ← many do
    either (symbol "|") (symbol "&")
    grammar.operandType

/-- Reads the type of a function or of a constructor. -/
def functionType : Parser Unit := do
  let _ ← tryKeyword "abstract"
  let _ ← tryKeyword "new"
  grammar.typeParameters
  let _ ← grammar.parameters
  symbol "=>"
  grammar.resultType

/-- Reads a type that is no choice between types; the answer is whether it is that of a function or
of a constructor. -/
def definiteType : Parser Bool := do
  let first ← peekWord
  let callable := first == "new" || first == "abstract" || (← atChar '(') || (← atChar '<')
  let read ← if callable then tryParse grammar.functionType else pure false
  if !read then grammar.unionType
  return read

/-- Reads a type. A choice depends on whether a type extends another one, which may infer a bounded
type. -/
def typeRule : Parser Unit := do
  let first ← peekWord
  let function ← grammar.definiteType
  if function then return
  if ← tryKeyword "extends" then
    let bound : Parser Unit := do
      keyword "extends"
      grammar.unionType
    let inferred := (← peekWord) == "infer"
    let _ ← grammar.definiteType
    if inferred then
      let _ ← tryParse bound
    if ← tryChar '?' then
      grammar.type
      char ':'
      grammar.type
    else check (first == "infer")

end EntityModel.Syntax.Grammar
