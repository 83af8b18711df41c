import ScriptValues.Value.Scan

/-! Entries under values, found by comparing a key with the keys in the bucket of its hash code.
That finds what a scan of all keys finds because equal values have equal hash codes, whichever way
hash codes are assigned to buckets. -/

namespace ScriptValues

structure Table {n : Nat} (assign : HashCode → Fin n) (α : Type) where
  buckets : Vector (Scan α) n

namespace Table

variable {n : Nat} {assign : HashCode → Fin n} {α : Type}

def empty : Table assign α :=
  ⟨Vector.replicate n .empty⟩

def bucket (t : Table assign α) (key : Value) : Scan α :=
  t.buckets.get (assign key.hashCode)

def modify (t : Table assign α) (key : Value) (f : Scan α → Scan α) : Table assign α :=
  ⟨t.buckets.set (assign key.hashCode).val (f (t.bucket key)) (assign key.hashCode).isLt⟩

def find? (t : Table assign α) (key : Value) : Option α :=
  (t.bucket key).find? key

def contains (t : Table assign α) (key : Value) : Bool :=
  (t.find? key).isSome

def insert (t : Table assign α) (key : Value) (a : α) : Table assign α :=
  t.modify key (·.insert key a)

def erase (t : Table assign α) (key : Value) : Table assign α :=
  t.modify key (·.erase key)

def filter (t : Table assign α) (p : Value × α → Bool) : Table assign α :=
  ⟨t.buckets.map (·.filter p)⟩

def entries (t : Table assign α) : List (Value × α) :=
  t.buckets.toList.flatMap (·.entries)

def keys (t : Table assign α) : List Value :=
  t.entries.map (·.1)

def size (t : Table assign α) : Nat :=
  t.entries.length

/-- The table that holds these values and nothing under them. -/
def ofList (vs : List Value) : Table assign Unit :=
  vs.foldl (fun t v => t.insert v ()) empty

def union (a b : Table assign Unit) : Table assign Unit :=
  b.keys.foldl (fun t v => t.insert v ()) a

def inter (a b : Table assign Unit) : Table assign Unit :=
  a.filter fun e => b.contains e.1

def diff (a b : Table assign Unit) : Table assign Unit :=
  a.filter fun e => !b.contains e.1

def subset (a b : Table assign Unit) : Bool :=
  a.keys.all b.contains

def sameKeys (a b : Table assign Unit) : Bool :=
  a.size == b.size && a.subset b

end Table

/-- The assignment of the tables in use: the low six bits. -/
def spread (h : HashCode) : Fin 64 :=
  Fin.ofNat 64 h.toNat

abbrev ValueSet := Table spread Unit

abbrev ValueMap := Table spread String

end ScriptValues
