import ContentRepository.Query.Fault

/-!
# Errors of a store

A `StoreError` is a `StorageError`, with the text that is shown for it.
-/

namespace ContentRepository

/-- Why a store refused a call. -/
inductive StoreError where
  /-- No document with this id is stored. -/
  | notFound (id : String)
  /-- A document with this id is stored already. -/
  | alreadyExists (id : String)
  /-- A document that was to be written has no id. -/
  | missingId
  /-- The query cannot be read or evaluated. -/
  | invalidExpression (message : String)
  /-- The store cannot be reached. -/
  | unavailable (message : String)
deriving DecidableEq

namespace StoreError

/-- A query refused for a definite reason. -/
def ofFault (fault : Query.Fault) : StoreError := .invalidExpression fault.message

/-- The refusal of a store that was shut down. -/
def shutDown : StoreError := .unavailable "store has been shut down"

/-- The wording of an error. -/
def message : StoreError → String
  | .notFound id => "missing document: " ++ id
  | .alreadyExists id => "document already exists: " ++ id
  | .missingId => "state has no id"
  | .invalidExpression message => "invalid expression: " ++ message
  | .unavailable message => "store unavailable: " ++ message

end StoreError

end ContentRepository
