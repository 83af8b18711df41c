/-! Words written as bytes and read back, in the two byte orders. -/

namespace ScriptValues.Bytes

/-- The eight bytes of a word, least significant first. -/
def ofWord (w : UInt64) : ByteArray :=
  ⟨#[w.toUInt8, (w >>> 8).toUInt8, (w >>> 16).toUInt8, (w >>> 24).toUInt8,
     (w >>> 32).toUInt8, (w >>> 40).toUInt8, (w >>> 48).toUInt8, (w >>> 56).toUInt8]⟩

/-- The word with these bytes, least significant first; bytes past the eighth are lost. -/
def toWord (bytes : List UInt8) : UInt64 :=
  bytes.foldr (fun b w => 256 * w + b.toUInt64) 0

/-- The eight bytes of a word, most significant first. -/
def ofWordBig (w : UInt64) : ByteArray :=
  ⟨(ofWord w).data.reverse⟩

/-- The four bytes of a half word, most significant first. -/
def ofHalfBig (w : UInt32) : List UInt8 :=
  [(w >>> 24).toUInt8, (w >>> 16).toUInt8, (w >>> 8).toUInt8, w.toUInt8]

/-- The byte at a position, zero past the end. -/
def byteAt (bytes : ByteArray) (i : Nat) : UInt8 :=
  if h : i < bytes.size then bytes[i] else 0

/-- The half word at a position, most significant byte first. -/
def halfAt (bytes : ByteArray) (i : Nat) : UInt32 :=
  ((byteAt bytes i).toUInt32 <<< 24) ||| ((byteAt bytes (i + 1)).toUInt32 <<< 16) |||
    ((byteAt bytes (i + 2)).toUInt32 <<< 8) ||| (byteAt bytes (i + 3)).toUInt32

def zeros (n : Nat) : ByteArray :=
  ⟨Array.replicate n 0⟩

/-- A byte string written `n` times over. -/
def copies (n : Nat) (bytes : ByteArray) : ByteArray :=
  n.fold (fun _ _ acc => acc ++ bytes) .empty

@[simp] theorem size_ofWord (w : UInt64) : (ofWord w).size = 8 := rfl

theorem toWord_ofWord (w : UInt64) : toWord (ofWord w).data.toList = w := by
  apply UInt64.toNat_inj.1
  have hw := w.toNat_lt
  simp only [toWord, ofWord, List.foldr_cons, List.foldr_nil, UInt64.toNat_add, UInt64.toNat_mul,
    UInt8.toNat_toUInt64, UInt64.toNat_toUInt8, UInt64.toNat_shiftRight]
  simp [Nat.shiftRight_eq_div_pow]
  omega

/-- Different words have different bytes. -/
theorem ofWord_injective {v w : UInt64} (h : ofWord v = ofWord w) : v = w := by
  rw [← toWord_ofWord v, h, toWord_ofWord w]

end ScriptValues.Bytes
