import EntityModel.Number.Text
import EntityModel.Text.Lines

/-!
# JSON documents

Documents and their text, spread over lines with two blanks for each level.
-/

namespace EntityModel

/-- A JSON document. Objects list their members in written order. -/
inductive Json where
  | null
  | boolean (value : Bool)
  | natural (value : Nat)
  | number (value : Number)
  | string (value : String)
  | array (items : List Json)
  | object (members : List (String × Json))

namespace Json

/-- Numbers with the fewest digits; a point at any place from five zeros behind it up to sixteen
digits in front of it, and beyond that an exponent. -/
def numberStyle : NumberStyle where
  tie := .even
  positional point := -5 < point && point ≤ 16
  fraction := true
  nan := "null"
  infinite _ := "null"

def hexDigit (value : Nat) : Char :=
  Char.ofNat (if value < 10 then 48 + value else 87 + value)

def escapeChar (char : Char) : List Char :=
  if char = '\x22' then ['\\', '\x22']
  else if char = '\\' then ['\\', '\\']
  else if char = '\x08' then ['\\', 'b']
  else if char = '\x0c' then ['\\', 'f']
  else if char = '\n' then ['\\', 'n']
  else if char = '\r' then ['\\', 'r']
  else if char = '\t' then ['\\', 't']
  else if char.toNat < 32 then
    ['\\', 'u', '0', '0', hexDigit (char.toNat / 16), hexDigit (char.toNat % 16)]
  else [char]

def stringText (value : String) : String :=
  String.ofList ('\x22' :: (value.toList.flatMap escapeChar ++ ['\x22']))

/-- The blanks in front of a line. -/
def margin (depth : Nat) : String := String.ofList (List.replicate (2 * depth) ' ')

/-- Texts between brackets, each on its own line one level deeper; brackets without texts stand
together. -/
def bracketed (depth : Nat) (opening closing : String) (texts : List String) : String :=
  if texts.isEmpty then opening ++ closing
  else
    opening ++ "\n" ++ Text.joinWith ",\n" (texts.map (margin (depth + 1) ++ ·)) ++ "\n" ++
      margin depth ++ closing

mutual

/-- The text of a document that starts at some depth. -/
def textAt (depth : Nat) : Json → String
  | .null => "null"
  | .boolean value => if value then "true" else "false"
  | .natural value => Nat.repr value
  | .number value => numberStyle.text value
  | .string value => stringText value
  | .array items => bracketed depth "[" "]" (itemTexts (depth + 1) items)
  | .object members => bracketed depth "\x7b" "\x7d" (memberTexts (depth + 1) members)

/-- The texts of the items of an array. -/
def itemTexts (depth : Nat) : List Json → List String
  | [] => []
  | item :: rest => textAt depth item :: itemTexts depth rest

def memberTexts (depth : Nat) : List (String × Json) → List String
  | [] => []
  | (name, value) :: rest =>
    (stringText name ++ ": " ++ textAt depth value) :: memberTexts depth rest

end

def text (document : Json) : String := document.textAt 0

end Json

end EntityModel
