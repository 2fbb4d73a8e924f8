import ContentRepository.Session.Tree

/-!
# Proxies

A proxy stands for a document elsewhere in the tree. It names its target, and the target lists its
proxies. `Workspace.addProxy` is `add_proxy`, and `Workspace.proxiesOf` is `get_proxies`.
-/

namespace ContentRepository

/-- The plan to add a proxy of a document under a parent, and the id it gets. -/
def Site.planProxy (site : Site) (targetId parentId name : String) :
    Except Error (Plan × String) := do
  let target ← site.require targetId
  if target.isProxy then throw (.refused .proxyToProxy)
  let parent ← site.require parentId
  site.requireContainer parent
  site.requireFreeName parentId name
  let id := site.ids.peek 0
  let proxy := (Document.newChild id parent parentId name).setAll <|
    [(Field.isProxy, .boolean true), (Field.target, .reference targetId)] ++
    target.type?.toList.map fun type => (Field.type, .string type)
  return ({ writes := [.create proxy, .update (target.relinked [id] [])], drawn := 1 }, id)

namespace Workspace

/-- Adds a proxy. -/
def addProxy (w : Workspace) (target parent name : String) : Except Error Document × Workspace :=
  w.produce do (← w.liveSite).planProxy target parent name

/-- The proxies that a document lists and that are there, in the order of the list; if a parent is
given, only those under it. -/
def proxiesOf (w : Workspace) (target : String) (parent? : Option String) :
    Except Error (List Document) := do
  let d ← w.require target
  let proxies ← w.ask (·.findEach d.proxies)
  return (proxies.filterMap fun d => d).filter fun proxy =>
    parent?.all fun parent => proxy.parent? == some parent

end Workspace

end ContentRepository
