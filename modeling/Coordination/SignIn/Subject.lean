import Coordination.Digest.Sha256

/-! # Who signs in to what

A subject is what is signed in to and who attempts it, both as digests, so that neither reaches the store as it
is. Its records live under keys of one prefix.
-/
namespace Coordination.SignIn

structure Subject where
  identifierHash : String
  identityHash : String
deriving DecidableEq, Repr

namespace Subject

/-- The subject of two raw values. -/
def ofRaw (identifier identity : String) : Subject :=
  ⟨Digest.Sha256.hexDigest identifier, Digest.Sha256.hexDigest identity⟩

def key (s : Subject) (record : String) : String :=
  s!"auth:sign-in-throttle:{s.identifierHash}:{s.identityHash}:{record}"

def failuresKey (s : Subject) : String := s.key "failures"

def lockedKey (s : Subject) : String := s.key "locked"

def knownGoodKey (s : Subject) : String := s.key "known-good"

end Subject

end Coordination.SignIn
