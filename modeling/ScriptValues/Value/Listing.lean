import ScriptValues.Value.Table

/-! The entries of a table in an order that does not depend on its buckets: by display, then by hash
code, then by payload. -/

namespace ScriptValues

/-- How one key is listed. -/
structure Line where
  display : String
  hash : HashCode
deriving DecidableEq

namespace Line

def ofValue (v : Value) : Line :=
  ⟨v.display, v.hashCode⟩

def le (a b : Line) : Bool :=
  decide (a.display < b.display) || a.display == b.display && decide (a.hash ≤ b.hash)

def leWith (a b : Line × String) : Bool :=
  if a.1 = b.1 then decide (a.2 ≤ b.2) else a.1.le b.1

end Line

def Table.listing {n : Nat} {assign : HashCode → Fin n} (t : Table assign Unit) : List Line :=
  (t.keys.map Line.ofValue).mergeSort Line.le

def Table.listingWith {n : Nat} {assign : HashCode → Fin n} (t : Table assign String) :
    List (Line × String) :=
  (t.entries.map fun e => (Line.ofValue e.1, e.2)).mergeSort Line.leWith

end ScriptValues
