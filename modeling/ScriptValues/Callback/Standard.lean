import ScriptValues.Callback.Computation

/-! The computations that every host offers. -/

namespace ScriptValues.Computation

def null : Computation :=
  pure (fun _ => .ok .null) fun _ _ h => by
    cases h
    exact List.nil_subset _

theorem functions_headD_subset (args : List Value) :
    (args.headD .null).functions ⊆ Value.functionsOfItems args := by
  cases args with
  | nil => exact List.nil_subset _
  | cons v vs =>
    rw [Value.functionsOfItems]
    exact List.subset_append_left _ _

/-- The first argument, or null. -/
def echo : Computation :=
  pure (fun args => .ok (args.headD .null)) fun args _ h => by
    cases h
    exact functions_headD_subset args

def arguments : Computation :=
  pure (fun args => .ok (.list args)) fun _ _ h => by
    cases h
    exact List.Subset.refl _

def count : Computation :=
  pure (fun args => .ok (.string (toString args.length))) fun _ _ h => by
    cases h
    exact List.nil_subset _

def typeNames (args : List Value) : List Value :=
  args.map fun v => .string v.typeName

theorem functions_typeNames (args : List Value) : Value.functionsOfItems (typeNames args) = [] := by
  induction args with
  | nil => rfl
  | cons v vs ih => exact ih

def types : Computation :=
  pure (fun args => .ok (.list (typeNames args))) fun args _ h => by
    cases h
    rw [Value.functions, functions_typeNames]
    exact List.nil_subset _

def fail (text : String) : Computation :=
  pure (fun _ => .error text) fun _ _ h => by cases h

/-- Fails with the displays of the arguments. -/
def showFail : Computation :=
  pure (fun args => .error ("|".intercalate (args.map Value.display))) fun _ _ h => by cases h

/-- The number of its runs, this one included. -/
def counter : Computation where
  run memory _ := (.ok (.string (toString (memory + 1))), memory + 1)
  functions_subset _ _ _ h := by
    cases h
    exact List.nil_subset _

end ScriptValues.Computation
