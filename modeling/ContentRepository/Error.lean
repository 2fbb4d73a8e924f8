import ContentRepository.Store.Error
import ContentRepository.Text.Quoted

/-!
# Errors of a repository

* **`Error`** (`CoreError`) is why a repository, a session or a transaction refused a call.
* **`Refusal`** lists the operations that the rules of the tree, of versions, of transactions and of
  indexing forbid.
-/

namespace ContentRepository

/-- Why a call was refused. -/
inductive Error where
  /-- An error of the store, passed on as it is. -/
  | store (cause : StoreError)
  /-- A connection was used after it was closed. -/
  | closedHandle (session : String)
  /-- A session was used after it was closed. -/
  | sessionClosed
  /-- The parent has a child of this name already. -/
  | nameConflict (parent name : String)
  /-- The operation is not permitted as things stand. -/
  | invalidOperation (message : String)
  /-- The transaction was rolled back instead of committed. -/
  | transactionAborted (reason : String)
  /-- The thread has no transaction, or the transaction is over. -/
  | noActiveTransaction
  /-- The thread was interrupted while it waited. -/
  | interrupted
  /-- Something that is needed cannot be reached. -/
  | unavailable (message : String)
deriving DecidableEq

namespace Error

/-- The document is not there. -/
def notFound (id : String) : Error := .store (.notFound id)

/-- The wording of an error. -/
def message : Error → String
  | .store cause => cause.message
  | .closedHandle session => "cannot use closed connection handle: " ++ session
  | .sessionClosed => "session is closed"
  | .nameConflict parent name =>
    "document " ++ Text.quoted name ++ " already exists under " ++ parent
  | .invalidOperation message => "invalid operation: " ++ message
  | .transactionAborted reason => "transaction aborted: " ++ reason
  | .noActiveTransaction => "no active transaction"
  | .interrupted => "interrupted"
  | .unavailable message => "unavailable: " ++ message

/-- Whether a document was missing. -/
def isNotFound : Error → Bool
  | .store (.notFound _) => true
  | _ => false

/-- Whether a document was there already. -/
def isAlreadyExists : Error → Bool
  | .store (.alreadyExists _) => true
  | _ => false

/-- Whether a closed connection was used. -/
def isClosedHandle : Error → Bool
  | .closedHandle _ => true
  | _ => false

end Error

/-- What the rules of the repository forbid. -/
inductive Refusal where
  /-- A child was to be put under a proxy. -/
  | proxyAsParent
  /-- A child was to be put under a version or among the versions. -/
  | versionAsParent
  /-- The root or the folder of versions was to be removed, moved or copied. -/
  | repositoryFolder (action : String)
  /-- A version was to be moved or copied. -/
  | versionInTree (action : String)
  /-- A document was to be moved or copied into itself or below. -/
  | intoItself (action : String)
  | checkInOfNonLive
  | alreadyCheckedIn
  | notCheckedIn
  | proxyToProxy
  /-- The stored policy has not the form of one. -/
  | malformedPolicy
  /-- The thread has a transaction already. -/
  | transactionOnThread
  /-- An indexing job was handed to the queue of another repository. -/
  | wrongQueue (job queue : String)
deriving DecidableEq

/-- The wording of a refusal. -/
def Refusal.message : Refusal → String
  | .proxyAsParent => "a proxy cannot have children"
  | .versionAsParent => "versions cannot be modified through the tree"
  | .repositoryFolder action => "cannot " ++ action ++ " a repository folder"
  | .versionInTree action => "cannot " ++ action ++ " a version"
  | .intoItself action => "cannot " ++ action ++ " a document under itself"
  | .checkInOfNonLive => "only live documents can be checked in"
  | .alreadyCheckedIn => "document is already checked in"
  | .notCheckedIn => "document is not checked in"
  | .proxyToProxy => "cannot create a proxy to a proxy"
  | .malformedPolicy => "malformed acp property"
  | .transactionOnThread => "transaction already active on this thread"
  | .wrongQueue job queue => "fulltext job for repository " ++ job ++ " submitted to " ++ queue

/-- The error that a refusal is. -/
def Error.refused (refusal : Refusal) : Error := .invalidOperation refusal.message

end ContentRepository
