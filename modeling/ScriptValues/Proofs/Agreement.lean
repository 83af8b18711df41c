import ScriptValues.Session.Run

/-! Two computations that agree: both fail or both succeed, with failures and results that are related.
Sessions are compared by opening their commands bind by bind. -/

namespace ScriptValues

inductive Agree {ε ε' α β : Type} (E : ε → ε' → Prop) (R : α → β → Prop) :
    Except ε α → Except ε' β → Prop where
  | error {e : ε} {e' : ε'} : E e e' → Agree E R (.error e) (.error e')
  | ok {a : α} {b : β} : R a b → Agree E R (.ok a) (.ok b)

namespace Agree

variable {ε ε' α β γ δ : Type} {E : ε → ε' → Prop} {R : α → β → Prop} {S : γ → δ → Prop}
  {x : Except ε α} {y : Except ε' β}

theorem bind {f : α → Except ε γ} {g : β → Except ε' δ} (h : Agree E R x y)
    (hfg : ∀ a b, R a b → Agree E S (f a) (g b)) : Agree E S (x >>= f) (y >>= g) := by
  cases h with
  | error he => exact .error he
  | ok hab => exact hfg _ _ hab

theorem map {f : α → γ} {g : β → δ} (h : Agree E R x y) (hfg : ∀ a b, R a b → S (f a) (g b)) :
    Agree E S (x >>= fun a => pure (f a)) (y >>= fun b => pure (g b)) :=
  h.bind fun a b hab => .ok (hfg a b hab)

theorem of_eq {x y : Except ε α} (h : y = x) : Agree Eq Eq x y := by
  obtain rfl := h
  cases y with
  | error e => exact .error rfl
  | ok a => exact .ok rfl

end Agree

namespace Session

/-- A callback that is stored is made as any new one is. -/
theorem act_newCallback (s : Session) (e : CallbackExpr) (name : Option String) :
    s.act (.newCallback e name) = (s.callback (.fresh e) >>= fun q =>
      pure (.stored, { s with world := q.2, callbacks := s.callbacks.keep name q.1 })) := by
  rw [act, callback]
  cases s.behaviour e <;> rfl

/-- A function registered over a callback, in the world that has the callback. -/
def registerOver (s : Session) (signature : String) (name : Option String) (q : Callback × World) :
    Answer × Session :=
  { s with world := (q.2.register signature q.1).2 }.keepFunction name (q.2.register signature q.1).1

theorem act_host (s : Session) (signature : String) (ref : CallbackRef) (name : Option String) :
    s.act (.host signature ref name) = (s.callback ref >>= fun q =>
      pure (s.registerOver signature name (q.2.wrap q.1.routine))) :=
  rfl

theorem act_register (s : Session) (signature : String) (ref : CallbackRef) (name : Option String) :
    s.act (.register signature ref name) = (s.callback ref >>= fun q =>
      pure (s.registerOver signature name q)) :=
  rfl

end Session

end ScriptValues
