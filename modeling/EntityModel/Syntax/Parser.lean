import EntityModel.Syntax.Cursor

/-!
# Parsers

A parser reads tokens from a cursor on and may refuse; a refusal leaves no trace, so alternatives
are tried from the same place. Repetition is bounded by the length of the text that is left.
-/

namespace EntityModel.Syntax

/-- Reads from a place in a text, or refuses. -/
abbrev Parser (α : Type) := StateT Cursor Option α

namespace Parser

def refuse {α : Type} : Parser α := fun _ => none

/-- Goes on only if a condition holds. -/
def check (condition : Bool) : Parser Unit :=
  if condition then pure () else refuse

def peek : Parser (List Char) := do
  return (← get).rest

/-- Reads a token of a given length. -/
def take (length : Nat) : Parser Unit :=
  modify (·.next length)

/-- Whether a longest operator stands here. -/
def atSymbol (symbol : String) : Parser Bool := do
  return operatorAt (← peek) == symbol.toList

/-- Reads an operator, if no longer one stands here. -/
def symbol (symbol : String) : Parser Unit := do
  check (← atSymbol symbol)
  take symbol.length

/-- Reads an operator if it stands here; the answer is whether it did. -/
def trySymbol (symbol : String) : Parser Bool := do
  if ← atSymbol symbol then
    take symbol.length
    return true
  else return false

def atChar (char : Char) : Parser Bool := do
  return (← peek).head? == some char

/-- Reads a single character, even if an operator starts with it. -/
def char (char : Char) : Parser Unit := do
  check (← atChar char)
  take 1

/-- Reads a single character if it stands here; the answer is whether it did. -/
def tryChar (char : Char) : Parser Bool := do
  if ← atChar char then
    take 1
    return true
  else return false

/-- The word that stands here, empty if there is none. -/
def peekWord : Parser String := do
  let text ← peek
  return String.ofList (text.take (wordLength text))

def atWord : Parser Bool := do
  return wordLength (← peek) != 0

def word : Parser String := do
  let text ← peek
  let length := wordLength text
  check (length != 0)
  take length
  return String.ofList (text.take length)

def keyword (expected : String) : Parser Unit := do
  check ((← word) == expected)

/-- Reads a given word if it stands here; the answer is whether it did. -/
def tryKeyword (expected : String) : Parser Bool := do
  if (← peekWord) == expected then
    take expected.length
    return true
  else return false

/-- Reads one of two things, the first if it stands here. -/
def either {α : Type} (first second : Parser α) : Parser α := fun cursor =>
  match first cursor with
  | some answer => some answer
  | none => second cursor

/-- Reads something if it stands here; the answer is whether it did. -/
def tryParse {α : Type} (parser : Parser α) : Parser Bool := fun cursor =>
  match parser cursor with
  | some (_, after) => some (true, after)
  | none => some (false, cursor)

/-- Whether something stands here; nothing is read. -/
def ahead {α : Type} (parser : Parser α) : Parser Bool := fun cursor =>
  some ((parser cursor).isSome, cursor)

/-- The text of the tokens that a parser reads. -/
def textOf {α : Type} (parser : Parser α) : Parser String := do
  let start ← get
  let _ ← parser
  return String.ofList (start.textUntil (← get))

/-- Reads as often as possible, at most a number of times. -/
def manyUpTo {α : Type} (parser : Parser α) : Nat → Parser (List α)
  | 0 => pure []
  | bound + 1 => fun cursor =>
    match parser cursor with
    | none => some ([], cursor)
    | some (item, after) => do
      let (items, last) ← manyUpTo parser bound after
      return (item :: items, last)

/-- Reads as often as possible. -/
def many {α : Type} (parser : Parser α) : Parser (List α) := do
  manyUpTo parser ((← get).remaining + 1)

/-- Goes on from a state for as long as there is a next one, at most a number of times. -/
def iterateUpTo {α : Type} (step : α → Parser (Option α)) : Nat → α → Parser α
  | 0, state => pure state
  | bound + 1, state => do
    match ← step state with
    | none => return state
    | some next => iterateUpTo step bound next

/-- Goes on from a state for as long as there is a next one. -/
def iterate {α : Type} (step : α → Parser (Option α)) (state : α) : Parser α := do
  iterateUpTo step ((← get).remaining + 1) state

/-- Reads items with commas between them up to a closing character, at most a number of
characters. A comma may follow the last item; others may be missing if told. -/
def itemsUpTo {α : Type} (sparse : Bool) (close : Char) (item : Parser α) :
    Nat → Parser (List α)
  | 0 => refuse
  | bound + 1 => do
    let missing ← if sparse then tryChar ',' else pure false
    if missing then itemsUpTo sparse close item bound
    else if ← tryChar close then return []
    else
      let first ← item
      if ← tryChar ',' then
        return first :: (← itemsUpTo sparse close item bound)
      else
        char close
        return [first]

/-- Reads items with commas between them up to a closing character. A comma may follow the last
item. -/
def items {α : Type} (close : Char) (item : Parser α) : Parser (List α) := do
  itemsUpTo false close item ((← get).remaining + 1)

/-- Reads items with commas between them up to a closing character. Items may be missing. -/
def sparseItems {α : Type} (close : Char) (item : Parser α) : Parser (List α) := do
  itemsUpTo true close item ((← get).remaining + 1)

/-- Reads one or more items with commas between them. -/
def commaSeparated {α : Type} (item : Parser α) : Parser (List α) := do
  let first ← item
  let others ← many do
    symbol ","
    item
  return first :: others

/-- Whether a text starts with a word that no letter goes on with. -/
def standsApart (word text : List Char) : Bool :=
  word.isPrefixOf text &&
    !((text.drop word.length).head?.any fun char =>
      isWordChar char && !Text.isAsciiDigit char && char != '_' && char != '$')

/-- Whether a semicolon may be left out here: at the end of the text, before a closing brace, or
on a fresh line that does not go on with what was read. `operand` tells whether a binary operator
might follow, so that a bracket goes on with it. -/
def omittable (operand : Bool) (cursor : Cursor) : Bool :=
  match cursor.rest with
  | [] => true
  | '\x7d' :: _ => true
  | char :: text => cursor.freshLine &&
    match char with
    | '(' => !operand
    | '[' => !operand
    | '+' => text.head? == some '+'
    | '-' => text.head? == some '-'
    | '!' => text.head? != some '='
    | 'i' => !(standsApart "in".toList cursor.rest || standsApart "instanceof".toList cursor.rest)
    | _ => !(",.;*%><=?^|&/:\x60".toList.contains char)

/-- Reads the end of a statement or member: a semicolon, or one that may be left out. -/
def semicolon (operand : Bool) : Parser Unit := do
  if ← trySymbol ";" then pure ()
  else check (omittable operand (← get))

/-- Reads a string literal; the answer is its text with the quotation marks. -/
def stringLiteral : Parser (List Char) := do
  match ← peek with
  | quote :: text =>
    check (quote == '\x22' || quote == '\x27')
    match stringLength? quote text with
    | some length =>
      take (length + 1)
      return quote :: text.take length
    | none => refuse
  | [] => refuse

/-- Reads a number; the answer is its text. -/
def numberLiteral : Parser (List Char) := do
  let text ← peek
  let length := numberLength text
  check (length != 0)
  take length
  return text.take length

def regexLiteral : Parser Unit := do
  match ← peek with
  | '/' :: text =>
    match regexLength? false text with
    | some length =>
      check (length != 1)
      let flags := (text.drop length).takeWhile Text.isAsciiLower
      take (1 + length + flags.length)
    | none => refuse
  | _ => refuse

/-- Reads the inside of a template literal and its closing mark, at most a number of pieces. -/
def templateUpTo (hole : Parser Unit) : Nat → Parser Unit
  | 0 => refuse
  | bound + 1 => do
    match ← peek with
    | '\x60' :: _ => take 1
    | '\\' :: text =>
      match escapeLength? text with
      | some length =>
        modify (·.drop (length + 1))
        templateUpTo hole bound
      | none => refuse
    | '$' :: '\x7b' :: _ =>
      take 2
      hole
      check (← atChar '\x7d')
      modify (·.drop 1)
      templateUpTo hole bound
    | _ :: _ =>
      modify (·.drop 1)
      templateUpTo hole bound
    | [] => refuse

/-- Reads a template literal, whose holes are read as told; the answer is its text between the
backticks. -/
def template (hole : Parser Unit) : Parser String := do
  check (← atChar '\x60')
  modify (·.drop 1)
  let start ← get
  templateUpTo hole (start.remaining + 1)
  return String.ofList (start.textUntil (← get)).dropLast

end Parser

end EntityModel.Syntax
