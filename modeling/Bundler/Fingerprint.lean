import Bundler.Blake3
import Bundler.Text.Hex
import Bundler.Text.Utf8

/-!
# Fingerprints

A fingerprint identifies a byte string by its BLAKE3 hash. Laws about
fingerprints take the hash as a parameter, so that the absence of collisions
can be a hypothesis about the strings that were hashed.
-/

namespace Bundler

/-- The hash of some bytes. -/
structure Fingerprint where
  bytes : ByteArray
  deriving DecidableEq, Inhabited

namespace Fingerprint

def of (content : ByteArray) : Fingerprint := ⟨blake3 content⟩

def ofText (content : String) : Fingerprint := of content.toUTF8

def hex (fingerprint : Fingerprint) : String := Text.hexBytes fingerprint.bytes

/-- The first eight digits. -/
def short (fingerprint : Fingerprint) : String := String.ofList (fingerprint.hex.toList.take 8)

/-- The fingerprint as a listing shows it. -/
def listing (fingerprint : Fingerprint) : String := "Fingerprint(" ++ fingerprint.short ++ ")"

end Fingerprint

end Bundler
