import ScriptValues.World.Call

/-! What a call can change: the memories of the routines. It mints, drops and registers nothing, makes
no callback and replaces no behaviour, so contexts, identities and history come out as they went in. -/

namespace ScriptValues.World

structure Quiet (w w' : World) : Prop where
  nextSerial : w'.nextSerial = w.nextSerial
  contextCount : w'.contextCount = w.contextCount
  live : w'.live = w.live
  registrationCount : w'.registrationCount = w.registrationCount
  callbackCount : w'.callbackCount = w.callbackCount
  history : w'.history = w.history
  behaviours : w'.routines.map (·.behaviour) = w.routines.map (·.behaviour)

theorem Quiet.refl (w : World) : Quiet w w :=
  ⟨rfl, rfl, rfl, rfl, rfl, rfl, rfl⟩

theorem Quiet.trans {a b c : World} (h : Quiet a b) (k : Quiet b c) : Quiet a c :=
  ⟨k.1.trans h.1, k.2.trans h.2, k.3.trans h.3, k.4.trans h.4, k.5.trans h.5, k.6.trans h.6,
    k.7.trans h.7⟩

theorem quiet_remember (w : World) (r : RoutineId) (memory : Nat) : Quiet w (w.remember r memory) := by
  refine ⟨rfl, rfl, rfl, rfl, rfl, rfl, ?_⟩
  apply Array.ext
  · simp [remember]
  · intro i h h'
    simp only [remember, Array.getElem_map, Array.getElem_modify]
    split <;> rfl

theorem quiet_call_perform_callEach :
    (∀ w f args, Quiet w (w.call f args).2) ∧ (∀ w r args, Quiet w (w.perform r args).2) ∧
      (∀ w f args, Quiet w (w.callEach f args).2) := by
  apply World.call.mutual_induct (fun w f args => Quiet w (w.call f args).2)
    (fun w r args => Quiet w (w.perform r args).2) (fun w f args => Quiet w (w.callEach f args).2)
  case case7 | case8 | case9 | case10 | case11 | case12 =>
    intros
    rw [perform]
    simp_all only
    split <;> simp_all [Quiet.refl]
  case case15 =>
    intro w f a rest v w' hcall e w'' heach h h'
    rw [callEach, hcall]
    simp only [hcall, heach] at h h' ⊢
    exact h.trans h'
  case case16 =>
    intro w f a rest v w' hcall vs w'' heach h h'
    rw [callEach, hcall]
    simp only [hcall, heach] at h h' ⊢
    exact h.trans h'
  all_goals
    intros
    first | rw [call] | rw [perform] | rw [callEach]
    simp_all only [Quiet.refl, quiet_remember]

theorem quiet_call (w : World) (f : Function) (args : List Value) : Quiet w (w.call f args).2 :=
  quiet_call_perform_callEach.1 w f args

end ScriptValues.World
