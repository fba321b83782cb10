import DataShape.Digest.Sha256
import DataShape.Schema.Basic
import DataShape.Value.Json

/-! # Fingerprints

The fingerprint of a schema is the SHA-256 digest of the canonical JSON text of its description.
Names, labels and attributes that are no plain data have no JSON text, and a schema with one of
them has no fingerprint. -/

namespace DataShape

/-- The text that is hashed: the canonical JSON text of a description. -/
def canonicalText (w : World) (description : Value) : Except Fault String :=
  Json.text .compact (w.settled false description)

/-- The fingerprint of a description's text. -/
def fingerprintOf (text : String) : String :=
  "sha256:" ++ Sha256.hex text.toUTF8.toList

/-- The fingerprint of a schema. -/
def fingerprint (d : Dispatch) (id : Nat) : Action String := do
  let description ← orStandIn d (.schema id) "to_dict" [] pure (describeSchema d id)
  return fingerprintOf (← ofExcept (canonicalText (← get) description))

end DataShape
