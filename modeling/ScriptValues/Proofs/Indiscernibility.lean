import ScriptValues.Proofs.KeyContract

/-! Equal values cannot be told apart. Equality compares identities and nothing else, while texts,
reports and calls read the serials, signatures and callbacks that stand beside them. In a session one
identity comes with one serial or with one signature and callback, since it was made once, so what
is equal there is the same. -/

namespace ScriptValues

namespace Value

/-- A value with one place left open, inside so many lists. -/
inductive Surrounding where
  | hole
  | list (before : List Value) (inner : Surrounding) (after : List Value)

def Surrounding.fill : Surrounding → Value → Value
  | hole, v => v
  | list before inner after, v => .list (before ++ inner.fill v :: after)

/-- What stands at a position, the place in the outermost list first. -/
def at? : Value → List Nat → Option Value
  | v, [] => some v
  | list vs, i :: path => vs[i]?.bind (·.at? path)
  | _, _ :: _ => none

def functionAt? (v : Value) (path : List Nat) : Option Function :=
  (v.at? path).bind function?

/-- Comparison, hashing and printing do not tell the values apart. -/
structure SameSight (u v : Value) : Prop where
  equal : u == v
  typeName : u.typeName = v.typeName
  display : u.display = v.display
  texts : u.outline.texts = v.outline.texts
  hashCode : u.hashCode = v.hashCode
  feed : u.feed = v.feed

theorem SameSight.refl (v : Value) : SameSight v v :=
  ⟨BEq.rfl, rfl, rfl, rfl, rfl, rfl⟩

end Value

/-- The functions are equal, and nothing that is read off one differs from the other. -/
structure World.SameFunction (w : World) (f g : Function) : Prop where
  equal : f == g
  compilerId : f.compilerId? = g.compilerId?
  token : f.context?.map w.reportToken = g.context?.map w.reportToken
  signature : f.signature? = g.signature?
  callback : f.callback? = g.callback?
  descriptor : f.descriptor = g.descriptor
  json : f.descriptor.json = g.descriptor.json

theorem World.SameFunction.refl (w : World) (f : Function) : w.SameFunction f f :=
  ⟨BEq.rfl, rfl, rfl, rfl, rfl, rfl, rfl⟩

namespace Session

/-- The value is in the session: an expression gives it, a container has it for a key, a callback has
captured it, or it is inside such a value. -/
inductive HoldsValue (s : Session) : Value → Prop where
  | given {e : Expr} {v : Value} : s.eval e = .ok v → HoldsValue s v
  | inSet {name : String} {t : ValueSet} {v : Value} : s.sets.get? name = some t → v ∈ t.keys →
      HoldsValue s v
  | inMap {name : String} {t : ValueMap} {v : Value} : s.maps.get? name = some t → v ∈ t.keys →
      HoldsValue s v
  | captured {v : Value} : .constant v ∈ s.world.routines.map (·.behaviour) → HoldsValue s v
  | element {vs : List Value} {v : Value} : HoldsValue s (.list vs) → v ∈ vs → HoldsValue s v

theorem HoldsValue.knows {n : UInt64} {cs : List Command} {v : Value}
    (h : ((start n).after cs).HoldsValue v) : v.Forall ((start n).after cs).world.Knows := by
  induction h with
  | given he => exact knows_eval he
  | inSet ht hv => exact fun f hf => (HoldsFunction.inSet ht hv hf).knows
  | inMap ht hv => exact fun f hf => (HoldsFunction.inMap ht hv hf).knows
  | captured hb => exact fun f hf => (HoldsFunction.captured hb hf).knows
  | element _ hv ih => exact Value.forall_list.1 ih _ hv

/-- Equal values of a session look the same wherever they are put, and the functions at the same
positions in them agree in all that can be read off a function. -/
theorem equal_values_indiscernible (n : UInt64) (cs : List Command) :
    let s := (start n).after cs
    ∀ u v, s.HoldsValue u → s.HoldsValue v → u == v →
      u.SameSight v ∧
      (∀ around : Value.Surrounding, (around.fill u).SameSight (around.fill v)) ∧
      ∀ path, Option.Rel s.world.SameFunction (u.functionAt? path) (v.functionAt? path) := by
  intro s u v hu hv huv
  obtain rfl : u = v := (fresh_after n cs).value_eq hu.knows hv.knows huv
  refine ⟨.refl u, fun around => .refl _, fun path => ?_⟩
  cases u.functionAt? path with
  | none => exact .none
  | some f => exact .some (.refl s.world f)

/-- One function by way of a token and by way of its context, which is dropped in between. -/
def rejoined : List Command :=
  [.act (.mint (some "a")), .act (.takeToken "a" (some "t")),
    .act (.contextFunction "a" 7 (some "f")), .act (.dropContext "a"),
    .act (.compiler 7 "t" (some "g")), .act (.host "h()" (.fresh (.plain .counter)) (some "h")),
    .act (.copyFunction "h" (some "k"))]

theorem rejoined_indiscernible : ∃ u v,
    ((start 1).after rejoined).eval (.list [.function "f", .list [.function "h"]]) = .ok u ∧
    ((start 1).after rejoined).eval (.list [.function "g", .list [.function "k"]]) = .ok v ∧
    u == v ∧ u.outline.texts = v.outline.texts ∧
    (Value.list [.null, u]).feed = (Value.list [.null, v]).feed ∧
    Option.Rel ((start 1).after rejoined).world.SameFunction (u.functionAt? [1, 0])
      (v.functionAt? [1, 0]) := by
  let u : Value :=
    .list [.function (.compiler 7 ⟨⟨0⟩, 1⟩), .list [.function (.host ⟨⟨0⟩, "h()", ⟨⟨1⟩, ⟨0⟩⟩⟩)]]
  have hu : ((start 1).after rejoined).eval (.list [.function "f", .list [.function "h"]]) = .ok u :=
    rfl
  have hv : ((start 1).after rejoined).eval (.list [.function "g", .list [.function "k"]]) = .ok u :=
    rfl
  obtain ⟨hsight, haround, hfunctions⟩ :=
    equal_values_indiscernible 1 rejoined u u (.given hu) (.given hv) BEq.rfl
  exact ⟨u, u, hu, hv, hsight.equal, hsight.texts, (haround (.list [.null] .hole [])).feed,
    hfunctions [1, 0]⟩

end Session
end ScriptValues
