import TypeStub.Workspace
/-!
# Bringing a document up to date

The document is made if it is not there.
-/

namespace TypeStub.Docs

open TypeStub.WorkM

def update (path : Path) : WorkM Unit := do
  if !(← files).pathExists path then alter (·.writeText path blank)
  let text ← look (·.readText path)
  let text ← ofExcept .docs (updated (← get).render Toml.write text)
  alter (·.writeText path (String.ofList text))

end TypeStub.Docs
