import Mathlib.Data.List.Basic
import Wacp.Model.ProfileValidation

/-!
# Texts of the tool crate

Of `wacp-tools/src`: the checks of names and versions (`descriptor.rs`), and the messages that are
cut at 4093 bytes, that of a handler that panics (`execution.rs`) and that of a failed process
(`sandbox.rs`). No result stands for a panic of the cut itself.
-/

namespace Wacp.Tools

open Console ProfileInput

end Wacp.Tools
