import EntityModel.Syntax.Character

/-!
# Places in a source text

A cursor stands at the start of a token: blanks and comments in front of it are already skipped.
It knows where the token before ended and whether a line ended in between.
-/

namespace EntityModel.Syntax

structure Cursor where
  rest : List Char
  /-- The length of the text from here on. -/
  remaining : Nat
  /-- The length of the text from the end of the last token on. -/
  ended : Nat
  /-- Whether a line ended since the last token, outside of comments. -/
  freshLine : Bool

namespace Cursor

def drop (cursor : Cursor) (count : Nat) : Cursor :=
  { cursor with rest := cursor.rest.drop count, remaining := cursor.remaining - count }

/-- What the characters in front of a cursor belong to. -/
inductive Gap where
  | blanks
  | lineComment
  /-- A comment that needs a closing mark; without one, it is no comment and the text goes on
  where it opened. -/
  | blockComment (opened : Cursor)

/-- The place of the next token: over blanks, line comments and closed block comments. -/
def skipGap (ended : Nat) : Gap → Bool → Nat → List Char → Cursor
  | .blockComment opened, _, _, [] => opened
  | .blockComment _, freshLine, remaining, '*' :: '/' :: text =>
    skipGap ended .blanks freshLine (remaining - 2) text
  | .blockComment opened, freshLine, remaining, _ :: text =>
    skipGap ended (.blockComment opened) freshLine (remaining - 1) text
  | .lineComment, freshLine, remaining, char :: text =>
    if isLineEnd char then skipGap ended .blanks (freshLine || char == '\n') (remaining - 1) text
    else skipGap ended .lineComment freshLine (remaining - 1) text
  | .blanks, freshLine, remaining, '/' :: '/' :: text =>
    skipGap ended .lineComment freshLine (remaining - 2) text
  | .blanks, freshLine, remaining, '/' :: '*' :: text =>
    skipGap ended (.blockComment ⟨'/' :: '*' :: text, remaining, ended, freshLine⟩) freshLine
      (remaining - 2) text
  | .blanks, freshLine, remaining, char :: text =>
    if isSpace char then skipGap ended .blanks (freshLine || char == '\n') (remaining - 1) text
    else ⟨char :: text, remaining, ended, freshLine⟩
  | _, freshLine, _, [] => ⟨[], 0, ended, freshLine⟩

/-- The next token after one that ends some characters further on. -/
def next (cursor : Cursor) (length : Nat) : Cursor :=
  let after := cursor.drop length
  skipGap after.remaining .blanks false after.remaining after.rest

def start (text : List Char) : Cursor :=
  skipGap text.length .blanks true text.length text

/-- The text from a place up to the end of the last token before another. -/
def textUntil (start stop : Cursor) : List Char :=
  start.rest.take (start.remaining - stop.ended)

end Cursor

/-- The operators and separators, longer ones before those that they start with. -/
def operators : List (List Char) :=
  [">>>=", "...", "===", "!==", "**=", "<<=", ">>=", ">>>", "&&=", "||=", "??=", "=>", "==",
    "!=", "<=", ">=", "&&", "||", "??", "?.", "++", "--", "+=", "-=", "*=", "/=", "%=", "&=",
    "|=", "^=", "<<", ">>", "**", "=", "<", ">", "+", "-", "*", "/", "%", "&", "|", "^", "!",
    "~", "?", ":", ";", ",", ".", "(", ")", "[", "]", "\x7b", "\x7d", "@", "#"].map String.toList

/-- The longest operator at the head of a text. A question mark before a fraction is no optional
access. -/
def operatorAt (text : List Char) : List Char :=
  match text with
  | '?' :: '.' :: char :: _ =>
    if Text.isAsciiDigit char then ['?'] else ['?', '.']
  | _ => (operators.find? (·.isPrefixOf text)).getD []

end EntityModel.Syntax
