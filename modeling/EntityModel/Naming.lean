import EntityModel.Text.Case

/-!
# Names

How the names of entities, columns and files follow from those in the sources.
-/

namespace EntityModel.Naming

open Text

/-- The characters between the words of a table name. -/
def isWordBreak (char : Char) : Bool :=
  char == '_' || char == '-' || char == ' ' || char == '.'

/-- Words run together, each with its first character in upper case. `fresh` tells whether the
next character starts a word. -/
def pascalFrom : (fresh : Bool) → List Char → List Char
  | _, [] => []
  | fresh, char :: rest =>
    if isWordBreak char then pascalFrom true rest
    else (if fresh then toUppercase char else [char]) ++ pascalFrom false rest

/-- The name of an entity after a table or a variable: `user_profiles` gives `UserProfiles`. -/
def pascalCase (name : String) : String := String.ofList (pascalFrom true name.toList)

/-- Whether an upper-case character starts a word, by its neighbours: after a lower-case character
or an ASCII digit it does, after another upper-case character only before a lower-case one. -/
def startsWord (previous next : Option Char) : Bool :=
  match previous with
  | none => false
  | some char =>
    if isLowercase char || isAsciiDigit char then true
    else isUppercase char && next.any isLowercase

/-- What a character contributes to a name in snake case, between its neighbours. `joined` tells
whether the name so far ends in an underscore. -/
def snakeStep (joined : Bool) (previous : Option Char) (char : Char) (next : Option Char) :
    List Char :=
  if char = '-' || char = ' ' then (if joined then [] else ['_'])
  else if isUppercase char then
    (if startsWord previous next && !joined then ['_'] else []) ++ toLowercase char
  else [char]

/-- A name in snake case, from a place on. -/
def snakeFrom (joined : Bool) (previous : Option Char) : List Char → List Char
  | [] => []
  | char :: rest =>
    let step := snakeStep joined previous char rest.head?
    let ended := match step.getLast? with
      | some last => last == '_'
      | none => joined
    step ++ snakeFrom ended (some char) rest

/-- The name of a column after a property: `authorId` gives `author_id`. Runs of capitals stay
together. -/
def snakeCase (name : String) : String := String.ofList (snakeFrom false none name.toList)

/-- The part of a file name before its extension. A point at the start of the name does not open
an extension, nor does one before a separator of directories. -/
def stem (name : List Char) : List Char :=
  let extension := name.reverse.takeWhile (· ≠ '.')
  let kept := name.length - (extension.length + 1)
  if extension.length < name.length && 0 < kept &&
      !extension.any (fun char => char == '/' || char == '\\') then
    name.take kept
  else name

/-- A file name with another extension, or with an extension if it has none. -/
def withExtension (fileName extension : String) : String :=
  String.ofList (stem fileName.toList ++ '.' :: extension.toList.dropWhile (· = '.'))

end EntityModel.Naming
