/-! Callbacks as the functions hold them: which object, and which routine it runs. -/

namespace ScriptValues

/-- The identity of a callback object. -/
structure CallbackId where
  ordinal : Nat
deriving DecidableEq

/-- The place of a routine among those of the host. -/
structure RoutineId where
  index : Nat
deriving DecidableEq

/-- Two objects may run one routine: an object wrapped around another is new, what it runs is not. -/
structure Callback where
  object : CallbackId
  routine : RoutineId
deriving DecidableEq

end ScriptValues
