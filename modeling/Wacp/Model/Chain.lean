import Wacp.Model.FsTrail

/-!
# The hash chain of the trail

`wacp-trail/src/chain.rs`. SHA-256 is that of the `sha2` crate and a parameter here.
-/

namespace Wacp

/-- The `Display` text of a hash: two hexadecimal digits for each byte. -/
def ChainHash.display (hash : ChainHash) : String :=
  String.ofList (hash.bytes.flatMap fun b =>
    [Nat.digitChar (b.toNat / 16), Nat.digitChar (b.toNat % 16)])

section Sha

variable (sha256 : List UInt8 → ChainHash)

def computeChainHash (previous : ChainHash) (entryBytes : List UInt8) : ChainHash :=
  sha256 (previous.bytes ++ entryBytes)

structure ChainVerificationError where
  index : ℕ
  (expected computed : ChainHash)
  deriving DecidableEq

/-- The loop of `verify_chain`; it goes on with the stored hash. -/
def verifyChainLoop (previous : ChainHash) (i : ℕ) :
    List TrailRecord → Except ChainVerificationError Unit
  | [] => .ok ()
  | (entryBytes, expected) :: rest =>
    let computed := computeChainHash sha256 previous entryBytes
    if computed ≠ expected then
      .error { index := i, expected := expected, computed := computed }
    else verifyChainLoop expected (i + 1) rest

def verifyChain (entries : List TrailRecord) : Except ChainVerificationError Unit :=
  verifyChainLoop sha256 ChainHash.genesis 0 entries

end Sha

end Wacp
