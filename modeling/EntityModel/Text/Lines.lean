/-!
# Lines and lists as text
-/

namespace EntityModel.Text

/-- Texts behind one another with a separator between each two. -/
def joinWith (separator : String) : List String → String
  | [] => ""
  | [last] => last
  | first :: second :: rest => first ++ separator ++ joinWith separator (second :: rest)

/-- Lines, each with its end. -/
def unlines : List String → String
  | [] => ""
  | line :: rest => line ++ "\n" ++ unlines rest

def hasPart (part : List Char) : List Char → Bool
  | [] => part.isEmpty
  | char :: rest => part.isPrefixOf (char :: rest) || hasPart part rest

theorem joinWith_cons_cons (separator first second : String) (rest : List String) :
    joinWith separator (first :: second :: rest) =
      first ++ separator ++ joinWith separator (second :: rest) := rfl

theorem unlines_append (first second : List String) :
    unlines (first ++ second) = unlines first ++ unlines second := by
  induction first with
  | nil => simp [unlines]
  | cons line rest ih => simp [unlines, ih, String.append_assoc]

end EntityModel.Text
