/-!
# Access control policies

A `Policy`, or `Acp`, is the list of access control lists (`Acl`) of one document. Policies are
stored and combined here; nobody is granted or denied anything on their account.
-/

namespace ContentRepository

/-- One entry: what is granted or denied to whom. -/
structure AccessEntry where
  /-- A user or a group. -/
  principal : String
  permission : String
  /-- True to grant, false to deny. -/
  granted : Bool
deriving DecidableEq

/-- A named list of entries, in the order in which they count. -/
structure AccessList where
  name : String
  entries : List AccessEntry
deriving DecidableEq

/-- The access control lists of one document, no two with one name when built by the operations
below. -/
structure Policy where
  lists : List AccessList
deriving DecidableEq

namespace Policy

/-- The policy without lists. -/
def empty : Policy := ⟨[]⟩

def isEmpty (p : Policy) : Bool := p.lists.isEmpty

/-- The list of this name. -/
def list? (p : Policy) (name : String) : Option AccessList :=
  p.lists.find? fun l => l.name == name

/-- The lists with `list` in the place of the first of its name, or else at the end. -/
def place (list : AccessList) : List AccessList → List AccessList
  | [] => [list]
  | first :: rest => if first.name = list.name then list :: rest else first :: place list rest

/-- Adds a list; one of the same name is replaced in its place. -/
def add (p : Policy) (list : AccessList) : Policy := ⟨place list p.lists⟩

/-- Adds the lists of another policy one after another. -/
def merge (p other : Policy) : Policy := other.lists.foldl add p

/-- The group of those who administer the repository. -/
def administrators : String := "administrators"

/-- The user who administers the repository. -/
def administrator : String := "Administrator"

/-- The group of all who are known to the repository. -/
def members : String := "members"

/-- The permission that includes all others. -/
def everything : String := "Everything"

def readPermission : String := "Read"

/-- The list that grants on a document itself go to. -/
def localList : String := "local"

/-- The policy of a new repository: those who administer may do everything, members may read. -/
def rootDefault : Policy :=
  empty.add
    { name := localList
      entries :=
        [⟨administrators, everything, true⟩, ⟨administrator, everything, true⟩,
         ⟨members, readPermission, true⟩] }

/-- Whether some list grants the permission to the principal. -/
def grants (p : Policy) (principal permission : String) : Bool :=
  p.lists.any fun l => l.entries.contains ⟨principal, permission, true⟩

end Policy

end ContentRepository
