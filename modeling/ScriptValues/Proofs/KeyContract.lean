import ScriptValues.Callback.Standard
import ScriptValues.Proofs.Provenance

/-! What makes values and functions fit for keys. Equality is an equivalence on everything there is.
That equal keys have equal hash codes needs more, since a host function is compared by its
registration and hashed by its signature: it holds within one world, where one registration has one
signature. -/

namespace ScriptValues

/-- Equality is an equivalence that keeps the kinds apart, and equal keys that belong together are
hashed alike. -/
structure KeyContract {α : Type} [BEq α] (kind : α → Nat) (hash : α → HashCode)
    (feed : α → List HashCode) (Known : α → Prop) : Prop where
  refl : ∀ a : α, a == a
  symm : ∀ a b : α, a == b → b == a
  trans : ∀ a b c : α, a == b → b == c → a == c
  kinds : ∀ a b : α, kind a ≠ kind b → (a == b) = false
  hash : ∀ a b : α, Known a → Known b → a == b → hash a = hash b
  feed : ∀ a b : α, Known a → Known b → a == b → feed a = feed b

theorem Function.ctorIdx_eq_of_beq {f g : Function} (h : f == g) : f.ctorIdx = g.ctorIdx := by
  rcases beq_iff.1 h with ⟨id, t, u, rfl, rfl, -⟩ | ⟨r, s, rfl, rfl, -⟩
  · rfl
  · rfl

namespace World.Fresh

variable {w : World}

theorem function_contract (h : w.Fresh) :
    KeyContract Function.ctorIdx Function.hashCode Function.feed w.Knows where
  refl := Function.beq_refl
  symm _ _ := Function.beq_symm
  trans _ _ _ := Function.beq_trans
  kinds f g hne := Bool.eq_false_iff.2 fun heq => hne (Function.ctorIdx_eq_of_beq heq)
  hash f g hf hg heq := by rw [h.function_eq hf hg heq]
  feed f g hf hg heq := by rw [h.function_eq hf hg heq]

theorem value_contract (h : w.Fresh) :
    KeyContract Value.ctorIdx Value.hashCode Value.feed (Value.Forall w.Knows) where
  refl := Value.beq_refl
  symm _ _ := Value.beq_symm
  trans _ _ _ := Value.beq_trans
  kinds v u hne := Bool.eq_false_iff.2 fun heq => hne (Value.ctorIdx_eq_of_beq heq)
  hash v u hv hu heq := by rw [h.value_eq hv hu heq]
  feed v u hv hu heq := by rw [h.value_eq hv hu heq]

end World.Fresh

namespace Session

theorem HoldsFunction.knows {n : UInt64} {cs : List Command} {f : Function}
    (h : ((start n).after cs).HoldsFunction f) : ((start n).after cs).world.Knows f :=
  made_of_holds h.holds

theorem knows_eval {n : UInt64} {cs : List Command} {e : Expr} {v : Value}
    (h : ((start n).after cs).eval e = .ok v) : v.Forall ((start n).after cs).world.Knows :=
  (over_made n cs).eval e h

/-- Values and functions are fit for keys after every run, which knows all it holds, and a function
is the same key inside a value and outside. -/
theorem keys_keep_contract (n : UInt64) (cs : List Command) :
    let s := (start n).after cs
    KeyContract Value.ctorIdx Value.hashCode Value.feed (Value.Forall s.world.Knows) ∧
    KeyContract Function.ctorIdx Function.hashCode Function.feed s.world.Knows ∧
    (∀ f g, (Value.function f == Value.function g) = (f == g)) ∧
    (∀ f, (Value.function f).hashCode = f.hashCode ∧ (Value.function f).feed = f.feed) ∧
    (∀ f, s.HoldsFunction f → s.world.Knows f) ∧
    (∀ e v, s.eval e = .ok v → v.Forall s.world.Knows) := by
  have hfresh := fresh_after n cs
  refine ⟨hfresh.value_contract, hfresh.function_contract, ?_, ?_, ?_, ?_⟩
  · intro f g
    exact Value.function_beq_function f g
  · intro f
    exact ⟨rfl, rfl⟩
  · intro f hf
    exact hf.knows
  · intro e v hv
    exact knows_eval hv

def registeredTwice : List Command :=
  [.act (.host "f()" (.fresh (.plain .null)) (some "f")), .act (.copyFunction "f" (some "copy")),
    .act (.host "f()" (.fresh (.plain .null)) (some "again"))]

/-- The function of the registration and the callback object with these numbers. -/
def registered (registration object routine : Nat) : Function :=
  .host ⟨⟨registration⟩, "f()", ⟨object⟩, ⟨routine⟩⟩

theorem registeredTwice_keys : ∃ u v w,
    ((start 1).after registeredTwice).eval (.list [.function "f"]) = .ok u ∧
    ((start 1).after registeredTwice).eval (.list [.function "copy"]) = .ok v ∧
    ((start 1).after registeredTwice).eval (.list [.function "again"]) = .ok w ∧
    u == v ∧ u.hashCode = v.hashCode ∧ u.feed = v.feed ∧ (u == w) = false := by
  obtain ⟨hkeys, -, -, -, -, heval⟩ := keys_keep_contract 1 registeredTwice
  let u : Value := .list [.function (registered 0 1 0)]
  have hu : ((start 1).after registeredTwice).eval (.list [.function "f"]) = .ok u := rfl
  have hv : ((start 1).after registeredTwice).eval (.list [.function "copy"]) = .ok u := rfl
  have heq : u == u := hkeys.refl u
  refine ⟨u, u, .list [.function (registered 1 3 1)], hu, hv, rfl, heq, ?_, ?_, rfl⟩
  · exact hkeys.hash u u (heval _ u hu) (heval _ u hv) heq
  · exact hkeys.feed u u (heval _ u hu) (heval _ u hv) heq

end Session
end ScriptValues
