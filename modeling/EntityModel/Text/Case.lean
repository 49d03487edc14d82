import EntityModel.Text.CaseTable

/-!
# Letter case

Case tests and case mappings of single characters, by the Unicode properties. ASCII characters are
decided directly; all others by table.
-/

namespace EntityModel.Text

/-- The ASCII letters `A` to `Z`. -/
def isAsciiUpper (char : Char) : Bool :=
  'A' ≤ char && char ≤ 'Z'

/-- The ASCII letters `a` to `z`. -/
def isAsciiLower (char : Char) : Bool :=
  'a' ≤ char && char ≤ 'z'

/-- The ASCII digits `0` to `9`. -/
def isAsciiDigit (char : Char) : Bool :=
  '0' ≤ char && char ≤ '9'

/-- The lower-case form of an ASCII letter; every other character is its own. -/
def asciiLower (char : Char) : Char :=
  if isAsciiUpper char then Char.ofNat (char.toNat + 32) else char

/-- The upper-case form of an ASCII letter; every other character is its own. -/
def asciiUpper (char : Char) : Char :=
  if isAsciiLower char then Char.ofNat (char.toNat - 32) else char

/-- The Unicode property `Uppercase`. -/
def isUppercase (char : Char) : Bool :=
  if char.toNat < 128 then isAsciiUpper char
  else CaseTable.uppercase.any (·.contains char.toNat)

/-- The Unicode property `Lowercase`. -/
def isLowercase (char : Char) : Bool :=
  if char.toNat < 128 then isAsciiLower char
  else CaseTable.lowercase.any (·.contains char.toNat)

/-- The image of a character under a table of runs and a table of sequences; a character in
neither is its own image. -/
def mapCase (shifts : List CaseTable.Shift) (sequences : List (Nat × List Nat)) (char : Char) :
    List Char :=
  let code := char.toNat
  match sequences.lookup code with
  | some image => image.map Char.ofNat
  | none =>
    match shifts.find? (·.run.contains code) with
    | some shift => [Char.ofNat (code + shift.distance).toNat]
    | none => [char]

/-- The full upper-case form of a character, which may be several characters. -/
def toUppercase (char : Char) : List Char :=
  if char.toNat < 128 then [asciiUpper char]
  else mapCase CaseTable.toUpper CaseTable.toUpperSequence char

/-- The full lower-case form of a character, which may be several characters. -/
def toLowercase (char : Char) : List Char :=
  if char.toNat < 128 then [asciiLower char]
  else mapCase CaseTable.toLower CaseTable.toLowerSequence char

end EntityModel.Text
