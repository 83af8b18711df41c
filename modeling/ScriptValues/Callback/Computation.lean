import ScriptValues.Value

/-! What a callback does when it runs. A computation sees its memory and its arguments and nothing
else, so the functions it returns are among those it was given. -/

namespace ScriptValues

structure Computation where
  run : Nat → List Value → Except String Value × Nat
  functions_subset : ∀ memory args v, (run memory args).1 = .ok v →
    v.functions ⊆ Value.functionsOfItems args

inductive Behaviour where
  | plain (computation : Computation)
  | constant (v : Value)
  /-- Calls the first argument with the others. -/
  | forward
  /-- Calls the first argument with each of the others alone. -/
  | forwardEach

/-- A behaviour with the memory that its runs share. -/
structure Routine where
  behaviour : Behaviour
  memory : Nat := 0

namespace Computation

/-- A computation without memory. -/
def pure (f : List Value → Except String Value)
    (h : ∀ args v, f args = .ok v → v.functions ⊆ Value.functionsOfItems args) : Computation where
  run memory args := (f args, memory)
  functions_subset _ := h

end Computation
end ScriptValues
