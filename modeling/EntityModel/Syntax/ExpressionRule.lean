import EntityModel.Syntax.ClassRule

/-!
# Expressions

Binary operators leave only the name of their kind, so chains of them are read from left to right
without regard to precedence.
-/

namespace EntityModel.Syntax.Grammar

open EntityModel.Syntax.Parser

variable (grammar : Grammar)

/-- The operators between two operands, words apart. -/
def binaryOperators : List (List Char) :=
  ["&&", "||", "??", ">>>", ">>", "<<", "&", "^", "|", "+", "-", "*", "/", "%", "**", "<", "<=",
    "==", "===", "!=", "!==", ">=", ">"].map String.toList

/-- The operators that assign the result of another operator. -/
def updateOperators : List (List Char) :=
  ["+=", "-=", "*=", "/=", "%=", "^=", "&=", "|=", ">>=", ">>>=", "<<=", "**=", "&&=", "||=",
    "??="].map String.toList

def oneOf (symbols : List (List Char)) : Parser Unit := do
  let found := operatorAt (← peek)
  check (symbols.contains found)
  take found.length

def binaryOperator (surroundings : Surroundings) : Parser Unit := do
  let next ← peekWord
  if next == "instanceof" || (next == "in" && surroundings.allowIn) then
    let _ ← word
  else oneOf binaryOperators

/-- Reads the body of an arrow function: a block or a value. -/
def arrowBody (surroundings : Surroundings) : Parser Tree := do
  symbol "=>"
  if ← atChar '\x7b' then grammar.block
  else grammar.expression { surroundings with resultType := true }

def arrowFunction (parameters body : Tree) : Operand :=
  ⟨.branch "arrow_function" [parameters, body.inField "body"], false⟩

/-- Reads an arrow function whose parameters are in parentheses. -/
def arrow (surroundings : Surroundings) : Parser Operand := do
  grammar.typeParameters
  let parameters ← grammar.parameters
  if surroundings.resultType then
    if ← trySymbol ":" then grammar.resultType
  return arrowFunction (parameters.inField "parameters") (← grammar.arrowBody surroundings)

/-- Reads an arrow function whose parameter is a single word. -/
def shortArrow (surroundings : Surroundings) : Parser Operand := do
  let parameter := Tree.leaf "identifier" (← word)
  return arrowFunction (parameter.inField "parameter") (← grammar.arrowBody surroundings)

/-- Reads a function from its keyword on; the name may be missing. -/
def functionExpression : Parser Operand := do
  keyword "function"
  let generator ← tryChar '*'
  let _ ← tryParse word
  let _ ← grammar.callSignature
  let _ ← grammar.block
  return .other (if generator then "generator_function" else "function_expression")

/-- Reads what starts with the word `async`: a function, an arrow function, or the word itself. -/
def asyncOperand (surroundings : Surroundings) : Parser Operand :=
  let function : Parser Operand := do
    keyword "async"
    grammar.functionExpression
  let arrow : Parser Operand := do
    keyword "async"
    grammar.arrow surroundings
  let shortArrow : Parser Operand := do
    keyword "async"
    grammar.shortArrow surroundings
  let name : Parser Operand := do
    return .word "identifier" (← word)
  either function <| either arrow <| either shortArrow <|
    either (grammar.shortArrow surroundings) name

def item : Parser Tree := do
  if ← trySymbol "..." then
    return .branch "spread_element" [← grammar.expression .nested]
  else grammar.expression .nested

def arguments : Parser Tree := do
  char '('
  return .branch "arguments" (← sparseItems ')' grammar.item)

/-- Reads an entry of an object literal: a spread, a method, or a key with its value. -/
def entry : Parser Tree := do
  if ← trySymbol "..." then
    return .branch "spread_element" [← grammar.expression .nested]
  else
    let modifiers ← modifiers
    let generator ← tryChar '*'
    let key ← grammar.key
    let optional ← tryChar '?'
    if (← atChar '(') || (← atChar '<') then
      let _ ← grammar.callSignature
      let _ ← grammar.block
      return .leaf "method_definition" ""
    else
      check (modifiers.isEmpty && !generator && !optional)
      if ← trySymbol ":" then
        let value ← grammar.expression .nested
        return .branch "pair" [key.tree.inField "key", value.inField "value"]
      else
        check key.plain
        return .leaf "shorthand_property_identifier" key.tree.head.text

def objectLiteral : Parser Operand := do
  char '\x7b'
  return ⟨.branch "object" (← sparseItems '\x7d' grammar.entry), false⟩

def arrayLiteral : Parser Operand := do
  char '['
  return ⟨.branch "array" (← sparseItems ']' grammar.item), false⟩

def destructuring (surroundings : Surroundings) : Parser Operand := do
  grammar.pattern
  symbol "="
  let _ ← grammar.expression surroundings
  return .other "assignment_expression"

/-- Reads a literal that may instead be the target of a destructuring assignment. -/
def literalOrTarget (surroundings : Surroundings) (literal : Parser Operand) : Parser Operand :=
  let value : Parser Operand := do
    let value ← literal
    check (!(← atSymbol "="))
    return value
  either value (grammar.destructuring surroundings)

/-- Reads a template literal; its holes are read and forgotten. -/
def templateLiteral : Parser Tree := do
  let text ← template do
    let _ ← grammar.expressions .nested
  return .leaf "template_string" ("\x60" ++ text ++ "\x60")

/-- Reads the arguments of a type and of a call behind each other. -/
def genericArguments : Parser Tree := do
  grammar.typeArguments
  grammar.arguments

/-- Reads what stands behind a question mark and a point: a call, an element or a property. -/
def optionalAccess (operand : Operand) : Parser Operand := do
  symbol "?."
  match (← peek).head? with
  | some '(' => return operand.call (← grammar.arguments)
  | some '<' => return operand.call (← grammar.genericArguments)
  | some '[' =>
    char '['
    let _ ← grammar.expressions .nested
    char ']'
    return .word "subscript_expression" ""
  | _ => return operand.member (← propertyName)

def access (operand : Operand) : Parser (Option Operand) := do
  if ← trySymbol "." then
    return some (operand.member (← propertyName))
  else if ← tryChar '[' then
    let _ ← grammar.expressions .nested
    char ']'
    return some (.word "subscript_expression" "")
  else if (← atSymbol "!") && !(← get).freshLine then
    take 1
    return some ⟨.branch "non_null_expression" [operand.value], true⟩
  else return none

/-- Reads type arguments that no call follows. -/
def instantiation : Parser Operand := do
  grammar.typeArguments
  let text ← peek
  check ((← get).freshLine || text.isEmpty ||
    ")],;:\x7d".toList.any fun char => text.head? == some char)
  return .other "instantiation_expression"

/-- Reads what an operand goes on with: an access, a call or a template. `start` is where the
operand started. -/
def continuation (start : Cursor) (operand : Operand) : Parser (Option Operand) := do
  if ← atSymbol "?." then return some (← grammar.optionalAccess operand)
  match (← peek).head? with
  | some '(' => return some (operand.call (← grammar.arguments))
  | some '\x60' =>
    let tag := operand.value.withText (String.ofList (start.textUntil (← get)))
    return some (Operand.call ⟨tag, false⟩ (← grammar.templateLiteral))
  | some '<' =>
    let call : Parser (Option Operand) := do
      return some (operand.call (← grammar.genericArguments))
    let instance' : Parser (Option Operand) := do
      return some (← grammar.instantiation)
    either call (either instance' (pure none))
  | _ => grammar.access operand

def construction (primary : Parser Operand) : Parser Operand := do
  keyword "new"
  if ← trySymbol "." then
    keyword "target"
    return .other "meta_property"
  else
    if (← peekWord) == "new" then
      let _ ← grammar.operand .nested
    else
      let constructor ← primary
      let _ ← iterate grammar.access constructor
      let _ ← either (tryParse grammar.typeArguments) (pure false)
      if ← atChar '(' then
        let _ ← grammar.arguments
    return .other "new_expression"

def wordOperand (surroundings : Surroundings) : Parser Operand := do
  match ← peekWord with
  | "function" => grammar.functionExpression
  | "class" =>
    grammar.classRule
    return .other "class"
  | "async" => grammar.asyncOperand surroundings
  | "this" =>
    keyword "this"
    return .other "this"
  | "super" =>
    keyword "super"
    return .other "super"
  | "null" =>
    keyword "null"
    return .other "null"
  | "undefined" =>
    keyword "undefined"
    return .word "undefined" "undefined"
  | "true" =>
    keyword "true"
    return .other "true"
  | "false" =>
    keyword "false"
    return .other "false"
  | "import" =>
    keyword "import"
    if ← trySymbol "." then
      keyword "meta"
      return .other "meta_property"
    else
      check (← atChar '(')
      return .other "import"
  | _ =>
    let name : Parser Operand := do
      return .word "identifier" (← word)
    either (grammar.shortArrow surroundings) name

def parenOperand : Parser Operand := do
  return ⟨.branch "parenthesized_expression" [← grammar.parenthesized], true⟩

/-- Reads a private name that is looked up in an object. -/
def privateOperand : Parser Operand := do
  let _ ← privateName
  check ((← peekWord) == "in")
  return .other "private_property_identifier"

/-- Reads an operand that is not made of others by operators. -/
def primary (surroundings : Surroundings) : Parser Operand := do
  let text ← peek
  match text.head? with
  | some '(' => either (grammar.arrow surroundings) grammar.parenOperand
  | some '[' => grammar.literalOrTarget surroundings grammar.arrayLiteral
  | some '\x7b' => grammar.literalOrTarget surroundings grammar.objectLiteral
  | some '\x22' => return ⟨.leaf "string" (String.ofList (← stringLiteral)), false⟩
  | some '\x27' => return ⟨.leaf "string" (String.ofList (← stringLiteral)), false⟩
  | some '\x60' => return ⟨← grammar.templateLiteral, false⟩
  | some '/' =>
    regexLiteral
    return .other "regex"
  | some '@' =>
    grammar.decorators
    grammar.classRule
    return .other "class"
  | some '#' => privateOperand
  | _ =>
    if wordLength text != 0 then grammar.wordOperand surroundings
    else return ⟨.leaf "number" (String.ofList (← numberLiteral)), false⟩

/-- Reads a primary operand with everything that is accessed or called on it. -/
def accessed (surroundings : Surroundings) : Parser Operand := do
  let start ← get
  let first ←
    if (← peekWord) == "new" then grammar.construction (grammar.primary .nested)
    else grammar.primary surroundings
  iterate (grammar.continuation start) first

/-- Reads an operand that no operator stands in front of, and the assignment it may be part of. -/
def target (surroundings : Surroundings) : Parser Operand := do
  let operand ← grammar.accessed surroundings
  let assignment : Parser Operand := do
    check operand.assignable
    symbol "="
    let _ ← grammar.expression surroundings
    return .other "assignment_expression"
  let update : Parser Operand := do
    check operand.assignable
    oneOf updateOperators
    let _ ← grammar.expression surroundings
    return .other "augmented_assignment_expression"
  let counting : Parser Operand := do
    check (!(← get).freshLine)
    either (symbol "++") (symbol "--")
    return .other "update_expression"
  either assignment (either update (either counting (pure operand)))

/-- An operand with a sign or another operator in front of it. -/
def signed (operator : List Char) (operand : Operand) : Operand :=
  ⟨.branch "unary_expression" [(Tree.leaf "operator" (String.ofList operator)).inField "operator",
    operand.value.inField "argument"], false⟩

/-- Reads a type in front of a value that is taken to be of that type. -/
def castOperand (surroundings : Surroundings) : Parser Operand := do
  grammar.typeArguments
  let _ ← grammar.operand surroundings
  return .other "type_assertion"

def yieldOperand (surroundings : Surroundings) : Parser Operand := do
  keyword "yield"
  let _ ← tryChar '*'
  if !(← get).freshLine then
    let _ ← tryParse (grammar.expression surroundings)
  return .other "yield_expression"

/-- Reads an operand with the operators in front of it. -/
def operandRule (surroundings : Surroundings) : Parser Operand := do
  let operator := operatorAt (← peek)
  if operator == "++".toList || operator == "--".toList then
    take 2
    let _ ← grammar.operand surroundings
    return .other "update_expression"
  else if operator == ['+'] || operator == ['-'] || operator == ['!'] || operator == ['~'] then
    take 1
    return signed operator (← grammar.operand surroundings)
  else if operator == ['<'] then
    either (grammar.arrow surroundings) (grammar.castOperand surroundings)
  else
    match ← peekWord with
    | "typeof" =>
      keyword "typeof"
      let _ ← grammar.operand surroundings
      return .other "unary_expression"
    | "void" =>
      keyword "void"
      let _ ← grammar.operand surroundings
      return .other "unary_expression"
    | "delete" =>
      keyword "delete"
      let _ ← grammar.operand surroundings
      return .other "unary_expression"
    | "await" =>
      keyword "await"
      let _ ← grammar.operand surroundings
      return .other "await_expression"
    | "yield" => grammar.yieldOperand surroundings
    | _ => grammar.target surroundings

/-- Reads a type that the value so far is taken to be of, or checked against; the answer is the
kind of the whole. -/
def typeView (surroundings : Surroundings) : Parser String := do
  check (!(surroundings.ending && (← get).freshLine))
  if ← tryKeyword "as" then
    if ← tryKeyword "const" then pure () else grammar.type
    return "as_expression"
  else
    keyword "satisfies"
    grammar.type
    return "satisfies_expression"

/-- Reads what an expression goes on with: a binary operator and its second operand, or a type. -/
def expressionStep (surroundings : Surroundings) (left : Operand) : Parser (Option Operand) :=
  let binary : Parser (Option Operand) := do
    binaryOperator surroundings
    let _ ← grammar.operand surroundings
    return some (.other "binary_expression")
  let viewed : Parser (Option Operand) := do
    let kind ← grammar.typeView surroundings
    return some ⟨.branch kind [left.value], false⟩
  either binary (either viewed (pure none))

/-- Reads the choice between two values behind a condition. The first value is read again without
result types of functions if a colon was taken for one. -/
def choice (surroundings : Surroundings) : Parser Operand := do
  symbol "?"
  let chosen (inner : Surroundings) : Parser Unit := do
    let _ ← grammar.expression inner
    symbol ":"
  either (chosen .nested) (chosen { Surroundings.nested with resultType := false })
  let _ ← grammar.expression surroundings
  return .other "ternary_expression"

def expressionRule (surroundings : Surroundings) : Parser Operand := do
  let first ← grammar.operand surroundings
  let value ← iterate (grammar.expressionStep surroundings) first
  if ← atSymbol "?" then grammar.choice surroundings else return value

end EntityModel.Syntax.Grammar
