import EntityModel.Text.Case
import EntityModel.Text.Lines

/-!
# Quoted text

String literals in single quotes. Backslashes, single quotes and the common control characters are
escaped, so that a literal ends at the first bare quote and stays on one line.
-/

namespace EntityModel.Schema

/-- A character inside a string literal. -/
def escapeChar (char : Char) : List Char :=
  if char = '\\' then ['\\', '\\']
  else if char = '\x27' then ['\\', '\x27']
  else if char = '\n' then ['\\', 'n']
  else if char = '\r' then ['\\', 'r']
  else if char = '\t' then ['\\', 't']
  else [char]

/-- The characters of a string literal. -/
def quoteChars (value : List Char) : List Char :=
  '\x27' :: (value.flatMap escapeChar ++ ['\x27'])

def quoted (value : String) : String := String.ofList (quoteChars value.toList)

def quotedList (values : List String) : String :=
  "[" ++ Text.joinWith ", " (values.map quoted) ++ "]"

/-- Characters of a plain key; an ASCII digit does not start one. -/
def isKeyChar (char : Char) : Bool :=
  Text.isAsciiUpper char || Text.isAsciiLower char || Text.isAsciiDigit char || char == '_' ||
    char == '$'

/-- Whether a key may stand without quotes. -/
def isPlainKey (key : List Char) : Bool :=
  match key with
  | [] => false
  | first :: rest => isKeyChar first && !Text.isAsciiDigit first && rest.all isKeyChar

/-- The key of an object, quoted only if it has to be. -/
def objectKey (key : String) : String :=
  if isPlainKey key.toList then key else quoted key

end EntityModel.Schema
