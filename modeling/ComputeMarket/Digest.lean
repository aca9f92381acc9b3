import ComputeMarket.Blake3
import ComputeMarket.Word

/-
This file defines digests, the addresses of job definitions and results in content storage.
-/

namespace ComputeMarket

/-- A 32-byte content digest. The zero digest means that nothing is set. -/
structure Digest where
  word : Word
  deriving DecidableEq, Inhabited

namespace Digest

def zero : Digest := ⟨Word.zero⟩

/-- The digest of a content. -/
def ofContent (content : List UInt8) : Digest := ⟨Blake3.hash content⟩

/-- Whether a digest stands for no content. -/
def isZero (digest : Digest) : Bool := digest = zero

@[simp] theorem isZero_iff (digest : Digest) : digest.isZero = true ↔ digest = zero := by
  simp [isZero]

end Digest

end ComputeMarket
