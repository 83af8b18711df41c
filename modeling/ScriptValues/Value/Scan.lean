import ScriptValues.Value

/-! Entries under values, found by comparing a key with every key stored. -/

namespace ScriptValues

structure Scan (α : Type) where
  entries : List (Value × α)

namespace Scan

variable {α : Type}

def empty : Scan α :=
  ⟨[]⟩

def find? (s : Scan α) (key : Value) : Option α :=
  s.entries.findSome? fun e => if e.1 == key then some e.2 else none

/-- The payload of an equal key is replaced and the key stays the one stored first. -/
def put (key : Value) (a : α) : List (Value × α) → List (Value × α)
  | [] => [(key, a)]
  | e :: es => if e.1 == key then (e.1, a) :: es else e :: put key a es

def insert (s : Scan α) (key : Value) (a : α) : Scan α :=
  ⟨put key a s.entries⟩

def erase (s : Scan α) (key : Value) : Scan α :=
  ⟨s.entries.eraseP (·.1 == key)⟩

def filter (s : Scan α) (p : Value × α → Bool) : Scan α :=
  ⟨s.entries.filter p⟩

def size (s : Scan α) : Nat :=
  s.entries.length

end Scan
end ScriptValues
