import ScriptValues.Sha256

/-! Hash codes that do not depend on the process that computes them: the first eight bytes of a
SHA-256 digest, read as a word. -/

namespace ScriptValues

abbrev HashCode := UInt64

namespace HashCode

def ofBytes (bytes : ByteArray) : HashCode :=
  Bytes.toWord ((Sha256.digest bytes).data.toList.take 8)

/-- The hash code of a text is that of its UTF-8 bytes. -/
def ofText (text : String) : HashCode :=
  ofBytes text.toByteArray

def ofWord (word : UInt64) : HashCode :=
  ofBytes (Bytes.ofWord word)

def combineBytes (seed value : HashCode) : ByteArray :=
  Bytes.ofWord seed ++ Bytes.ofWord value

/-- Folds a hash code into a seed; the two do not commute. -/
def combine (seed value : HashCode) : HashCode :=
  ofBytes (combineBytes seed value)

/-- The seeds after each of the values, the first one not included. -/
def combineAll (seed : HashCode) : List HashCode → List HashCode
  | [] => []
  | v :: vs => combine seed v :: combineAll (combine seed v) vs

end HashCode
end ScriptValues
