import EntityModel.Syntax.TypeRule

/-!
# Classes

Classes are read and forgotten: only where they end matters.
-/

namespace EntityModel.Syntax.Grammar

open EntityModel.Syntax.Parser

variable (grammar : Grammar)

/-- Reads a method behind its key: a signature, then a body or the end of the member. -/
def methodTail : Parser Unit := do
  let _ ← grammar.callSignature
  if ← atChar '\x7b' then
    let _ ← grammar.block
  else memberEnd

/-- Reads a field behind its key: its type, its initial value and the end of the member. -/
def fieldTail : Parser Unit := do
  if ← trySymbol ":" then grammar.type
  if ← trySymbol "=" then
    let _ ← grammar.expression .statement
    if ← tryChar ',' then pure () else semicolon true
  else memberEnd

def classMember : Parser Unit := do
  let staticBlock : Parser Unit := do
    keyword "static"
    let _ ← grammar.block
  let property : Parser Unit := do
    let _ ← modifiers
    let _ ← tryChar '*'
    let _ ← grammar.key
    let _ ← either (tryChar '?') (pure false)
    let _ ← trySymbol "!"
    if (← atChar '(') || (← atChar '<') then grammar.methodTail else grammar.fieldTail
  let index : Parser Unit := do
    let _ ← many do
      let modifier ← word
      check (["public", "private", "protected", "static"].contains modifier)
    grammar.indexSignature
    memberEnd
  grammar.decorators
  either staticBlock (either index property)

def classBody : Parser Unit := do
  char '\x7b'
  let _ ← many do
    if ← tryChar ';' then pure () else grammar.classMember
  char '\x7d'

def classTail : Parser Unit := do
  grammar.typeParameters
  if ← tryKeyword "extends" then
    let _ ← commaSeparated do
      let _ ← grammar.operand .nested
      if ← atChar '<' then grammar.typeArguments
  if ← tryKeyword "implements" then
    let _ ← commaSeparated grammar.type
  grammar.classBody

/-- Reads a class from its keyword on; the name may be missing. -/
def classRule : Parser Unit := do
  keyword "class"
  let next ← peekWord
  if next != "extends" && next != "implements" then
    let _ ← tryParse word
  grammar.classTail

end EntityModel.Syntax.Grammar
