import ContentRepository.Text.Blank

/-!
# Pieces and words of a text

A text is cut into pieces at every character of a kind; its words are the nonempty pieces between
white space.
-/

namespace ContentRepository.Text

/-- The pieces between the characters satisfying `cut`, from the first to the last. There is one
piece more than there are such characters. -/
def pieces (cut : Char → Bool) : List Char → List (List Char)
  | [] => [[]]
  | c :: rest =>
    if cut c then [] :: pieces cut rest
    else match pieces cut rest with
      | [] => [[c]]
      | piece :: more => (c :: piece) :: more

/-- The words of a text: its longest runs without white space. -/
def words (text : List Char) : List (List Char) :=
  (pieces isBlank text).filter (· ≠ [])

/-- Whether the text has no word. -/
def allBlank (text : List Char) : Bool := text.all isBlank

end ContentRepository.Text
