import ContentRepository.Document.Basic

/-!
# The text of a document

What is indexed of a document (`simple_text`) is the text of its own fields: not the reserved ones,
and not the texts that indexing itself put there.
-/

namespace ContentRepository

mutual

/-- The nonempty strings in a value, at every depth and in their order. -/
def Value.texts : Value → List String
  | .string text => if text.isEmpty then [] else [text]
  | .array items => itemTexts items
  | .object fields => fieldTexts fields
  | _ => []

def Value.itemTexts : List Value → List String
  | [] => []
  | item :: rest => item.texts ++ itemTexts rest

def Value.fieldTexts : List (String × Value) → List String
  | [] => []
  | (_, value) :: rest => value.texts ++ fieldTexts rest

end

namespace Document

/-- Whether the field holds indexed text: its name begins like one of the two kinds. -/
def isIndexed (key : String) : Bool :=
  Field.simpleText.toList.isPrefixOf key.toList || Field.binaryText.toList.isPrefixOf key.toList

/-- Whether the field is the document's own, and neither reserved nor an indexed text. -/
def isContent (key : String) : Bool := !Field.isReserved key && !isIndexed key

/-- The texts of the document's own fields in the order of their names, with blanks between them. -/
def simpleText (d : Document) : String :=
  " ".intercalate ((d.entries.filter fun e => isContent e.1).flatMap fun e => e.2.texts)

end Document

end ContentRepository
