import ScriptValues.Proofs.Logging
import ScriptValues.Proofs.Tracing

/-! Which routine a function runs. Every callback that a session has anywhere runs a routine that is
there, a function runs what the callback runs that it was registered over, whichever way it was
registered, and only calls touch the routines. -/

namespace ScriptValues

namespace World

/-- The routines that were there are as they were, and the new ones have not run yet. -/
def Extends (w w' : World) : Prop :=
  ∃ new : Array Routine, w'.routines = w.routines ++ new ∧ ∀ r ∈ new, r.memory = 0

variable {w w' : World} {k : Nat} {r : Routine}

namespace Extends

theorem of_eq (h : w'.routines = w.routines) : w.Extends w' :=
  ⟨#[], by simp [h], by simp⟩

theorem newCallback (w : World) (b : Behaviour) : w.Extends (w.newCallback b).2 :=
  ⟨#[⟨b, 0⟩], by simp [World.newCallback, wrap], by simp⟩

theorem getElem? (h : w.Extends w') (hr : w.routines[k]? = some r) : w'.routines[k]? = some r := by
  obtain ⟨new, hnew, -⟩ := h
  obtain ⟨hlt, -⟩ := Array.getElem?_eq_some_iff.1 hr
  rw [hnew, Array.getElem?_append_left hlt, hr]

theorem size_le (h : w.Extends w') : w.routines.size ≤ w'.routines.size := by
  obtain ⟨new, hnew, -⟩ := h
  rw [hnew, Array.size_append]
  omega

/-- A routine was there before, or it is new. -/
theorem old_or_new (h : w.Extends w') (hr : w'.routines[k]? = some r) :
    w.routines[k]? = some r ∨ w.routines.size ≤ k ∧ r.memory = 0 := by
  obtain ⟨new, hnew, hmemory⟩ := h
  rw [hnew] at hr
  by_cases hk : k < w.routines.size
  · rw [Array.getElem?_append_left hk] at hr
    exact Or.inl hr
  · rw [Array.getElem?_append_right (Nat.le_of_not_lt hk)] at hr
    exact Or.inr ⟨Nat.le_of_not_lt hk, hmemory r (Array.mem_of_getElem? hr)⟩

end Extends

/-- What was registered is in the log. -/
theorem Logs.registered_mem {log : List LogEntry} (h : w.Logs w' log) {i : Nat} {q : Registration}
    (hq : w.MakesAt w' i (.registration q)) : .registered q.signature ∈ log := by
  obtain ⟨hle, e, he, hmade⟩ := hq
  have hentry : (w'.history.map Event.entry)[i]? = some e.entry := by
    rw [List.getElem?_map, he]
    rfl
  rw [h, List.getElem?_append_right (by simpa using hle)] at hentry
  cases e with
  | registered p =>
    cases hmade
    exact List.mem_of_getElem? hentry
  | _ => cases hmade

theorem not_makesAt_of_history {i : Nat} {x : Entity} (h : w'.history = w.history) :
    ¬ w.MakesAt w' i x := by
  rintro ⟨hle, e, he, -⟩
  rw [h, List.getElem?_eq_none hle] at he
  cases he

theorem makesAt_register {v : World} (h : v.history = w.history) {signature : String} {c : Callback}
    {i : Nat} {q : Registration}
    (hq : w.MakesAt (v.register signature c).2 i (.registration q)) : q.callback = c := by
  obtain ⟨hle, e, he, hmade⟩ := hq
  change (v.history ++ [.registered _])[i]? = some e at he
  rw [h, List.getElem?_append_right hle, List.getElem?_singleton] at he
  split at he
  · cases he
    cases hmade
    rfl
  · cases he

end World

/-- The parts make a function that has to be registered. -/
def Parts.registers (p : Parts) : Bool :=
  match p.origin with
  | .ok (.host _ _) => true
  | _ => false

namespace Session

variable {s s' : Session} {w : World} {n : UInt64} {cs : List Command}

theorem Ready.extends (h : s.Ready w) : s.world.Extends w := by
  induction h with
  | same => exact .of_eq rfl
  | made _ => exact .newCallback _ _
  | wrapped r _ ih => exact ih

theorem routines_keepContext (s : Session) (name : Option String) (c : Context) :
    (s.keepContext name c).world.routines = s.world.routines := by
  cases name with
  | none => rfl
  | some name =>
    change ((s.contexts.get? name).elim s.world s.world.drop).routines = _
    cases s.contexts.get? name <;> rfl

/-- Only calls touch the routines. -/
theorem Change.extends (h : s.Change s') : s.world.Extends s'.world := by
  cases h with
  | mint name => exact .of_eq (routines_keepContext { s with world := s.world.mint.2 } name _)
  | dropContext name =>
    unfold Session.dropContext
    split <;> exact .of_eq rfl
  | newCallback name hw hc => exact hw.extends
  | register signature name hw hc => exact hw.extends
  | keepParts name hw hp hc => exact hw.extends
  | _ => exact .of_eq rfl

/-- The callbacks of a session, and those of everything registered, run one of the first routines. -/
structure Wired (size : Nat) (s : Session) : Prop where
  callbacks : s.callbacks.Forall fun c => c.routine.index < size
  parts : s.parts.Forall fun p => ∀ c, p.callback = some c → c.routine.index < size
  registered : ∀ r, .registered r ∈ s.world.history → r.callback.routine.index < size

theorem Wired.mono {size size' : Nat} (h : s.Wired size) (hle : size ≤ size') : s.Wired size' where
  callbacks := h.callbacks.mono fun _ hc => Nat.lt_of_lt_of_le hc hle
  parts := h.parts.mono fun _ hp c hc => Nat.lt_of_lt_of_le (hp c hc) hle
  registered r hr := Nat.lt_of_lt_of_le (h.registered r hr) hle

theorem Wired.serves {c : Callback} (h : s.Wired w.routines.size) (hc : s.Serves w c) :
    c.routine.index < w.routines.size := by
  cases hc with
  | stored hd hroutine => exact hroutine ▸ h.callbacks _ _ hd
  | inParts hp hd hroutine => exact hroutine ▸ h.parts _ _ hp _ hd
  | made hlt => exact hlt

theorem registered_mem_keepContext {name : Option String} {c : Context} {r : Registration}
    (h : .registered r ∈ (s.keepContext name c).world.history) :
    .registered r ∈ s.world.history := by
  cases name with
  | none => simpa [keepContext, World.drop] using h
  | some name =>
    change _ ∈ ((s.contexts.get? name).elim s.world s.world.drop).history at h
    cases hget : s.contexts.get? name with
    | none => simpa [hget] using h
    | some old => simpa [hget, World.drop] using h

theorem Change.wired (h : s.Change s') (hs : s.Wired s.world.routines.size) :
    s'.Wired s'.world.routines.size := by
  replace hs := hs.mono h.extends.size_le
  cases h with
  | mint name =>
    refine ⟨by cases name <;> exact hs.callbacks, by cases name <;> exact hs.parts, fun r hr => ?_⟩
    have hminted := registered_mem_keepContext hr
    exact hs.registered r (by simpa [World.mint] using hminted)
  | dropContext name =>
    unfold Session.dropContext at hs ⊢
    split
    · next hget =>
      rw [hget] at hs
      exact hs
    · next c hget =>
      rw [hget] at hs
      refine ⟨hs.callbacks, hs.parts, fun r hr => hs.registered r ?_⟩
      simpa [World.drop] using hr
  | newCallback name hw hc =>
    refine ⟨hs.callbacks.keep name (hs.serves hc), hs.parts, fun r hr => hs.registered r ?_⟩
    rwa [← hw.history]
  | @register signature c name w hw hc =>
    have hcallback : c.routine.index < w.routines.size := by
      apply Wired.serves _ hc
      exact hs
    refine ⟨hs.callbacks, hs.parts, fun r hr => ?_⟩
    rcases List.mem_append.1 hr with hr | hr
    · exact hs.registered r (hw.history ▸ hr)
    · cases List.mem_singleton.1 hr
      exact hcallback
  | keepParts name hw hp hc =>
    refine ⟨hs.callbacks, hs.parts.keep name fun c hcallback => hs.serves (hc c hcallback), ?_⟩
    intro r hr
    exact hs.registered r (hw.history ▸ hr)
  | _ => exact ⟨hs.callbacks, hs.parts, hs.registered⟩

theorem Effect.wired (h : s.Effect s') (hs : s.Wired s.world.routines.size) :
    s'.Wired s'.world.routines.size := by
  cases h with
  | change h => exact h.wired hs
  | @call name f args hf hargs =>
    have hsize := World.size_call s.world f args
    have hhistory := (World.quiet_call s.world f args).history
    rw [call_world, hsize]
    refine ⟨?_, ?_, fun r hr => hs.registered r ?_⟩
    · unfold Session.call
      split <;> exact hs.callbacks
    · unfold Session.call
      split <;> exact hs.parts
    · rwa [call_world, hhistory] at hr

theorem wired_after (n : UInt64) (cs : List Command) :
    ((start n).after cs).Wired ((start n).after cs).world.routines.size := by
  induction cs using List.reverseRecOn with
  | nil => exact ⟨Store.Forall.empty, Store.Forall.empty, nofun⟩
  | append_singleton cs c ih => exact ((start n).after_effect cs c).wired ih

/-- Whatever a session holds runs a routine that is there. -/
theorem runsBelow_holds {x : Entity} (h : ((start n).after cs).Holds x) :
    World.RunsBelow ((start n).after cs).world.routines.size x := by
  obtain ⟨e, he, hmade⟩ := made_of_holds h
  cases e with
  | minted c =>
    cases hmade
    trivial
  | dropped c => cases hmade
  | registered r =>
    cases hmade
    exact (wired_after n cs).registered r he

/-- The routine that the parts under a name hold. -/
def partsRoutine (s : Session) (name : String) : Option RoutineId :=
  ((s.parts.get? name).bind (·.callback)).map (·.routine)

/-- The routine that a command means by its callback: that of a stored one, or the next new one. -/
def meant (s : Session) : CallbackRef → Option RoutineId
  | .stored name => (s.callbacks.get? name).map (·.routine)
  | .fresh _ => some ⟨s.world.routines.size⟩

/-- The routine that an action stores a callback over, puts into parts or registers a function over. -/
def offered (s : Session) : Action → Option RoutineId
  | .newCallback _ _ => some ⟨s.world.routines.size⟩
  | .host _ ref _ => s.meant ref
  | .register _ ref _ => s.meant ref
  | .parts e _ =>
    if .callback ∈ e.clear then none
    else e.callback.bind s.meant <|> e.source.bind s.partsRoutine
  | .build parts _ => s.partsRoutine parts
  | _ => none

/-- The name under which an action stores a function that it registers. -/
def registersAs (s : Session) : Action → Option String
  | .host _ _ name => name
  | .register _ _ name => name
  | .build parts name => if (s.parts.get? parts).any Parts.registers then name else none
  | _ => none

/-- The action shares the routine that it offers and makes no other: what it stores under a name runs
that routine, everything it registers runs that routine, and a copy of a function is the function. -/
structure Shares (s : Session) (a : Action) (s' : Session) : Prop where
  callback : ∀ e name, a = .newCallback e (some name) →
    (s'.callbacks.get? name).map (·.routine) = s.offered a
  routine : ∀ e name b, a = .newCallback e name → s.behaviour e = .ok b →
    s'.world.routines[s.world.routines.size]? = some ⟨b, 0⟩
  parts : ∀ e name, a = .parts e (some name) → s'.partsRoutine name = s.offered a
  function : ∀ name, s.registersAs a = some name →
    ∃ r, s'.functions.get? name = some (.host r) ∧ s.offered a = some r.callback.routine
  copy : ∀ f g, a = .copyFunction f (some g) → s'.functions.get? g = s.functions.get? f
  registration : ∀ i r, s.world.MakesAt s'.world i (.registration r) →
    s.offered a = some r.callback.routine

theorem meant_eq {ref : CallbackRef} {p : Callback × World} (h : s.callback ref = .ok p) :
    s.meant ref = some p.1.routine := by
  cases ref with
  | stored name =>
    obtain ⟨d, hd, rfl⟩ := bind_pure_eq_ok.1 h
    rw [meant, Store.fetch_eq_ok.1 hd]
    rfl
  | fresh e =>
    obtain ⟨b, -, rfl⟩ := bind_pure_eq_ok.1 h
    rfl

theorem get?_keep_self {α : Type} (t : Store α) (name : String) (a : α) :
    (t.keep (some name) a).get? name = some a := by
  rw [Store.keep, Store.get?_insert, if_pos rfl]

theorem offered_edit {e : PartsEdit} {name : Option String} {p : Parts × World}
    (h : s.edit e = .ok p) : s.offered (.parts e name) = p.1.callback.map (·.routine) := by
  obtain ⟨p₀, made, hp₀, hmade, hcallback, -⟩ := edit_callback h
  rw [offered, hcallback]
  split
  · rfl
  · have hsource : e.source.bind s.partsRoutine = p₀.callback.map (·.routine) := by
      cases hsource : e.source with
      | none =>
        rw [hsource] at hp₀
        cases hp₀
        rfl
      | some source =>
        rw [hsource] at hp₀
        rw [Option.bind_some, partsRoutine, Store.fetch_eq_ok.1 hp₀]
        rfl
    rw [hsource]
    cases href : e.callback with
    | none =>
      rw [href] at hmade
      cases hmade
      rfl
    | some ref =>
      rw [href] at hmade
      obtain ⟨q, hq, rfl⟩ := bind_pure_eq_ok.1 hmade
      rw [Option.bind_some, meant_eq hq]
      rfl

/-- Only these actions register. -/
theorem registers_of_logged {a : Action} {answer : Except Fault Answer} {signature : String}
    (h : .registered signature ∈ s.logged (.act a) answer) :
    (∃ signature ref name, a = .host signature ref name) ∨
      (∃ signature ref name, a = .register signature ref name) ∨
      ∃ parts name, a = .build parts name := by
  have hdeparture (name : String) : .registered signature ∉ s.departure name := by
    unfold departure
    cases s.contexts.get? name <;> simp
  unfold logged at h
  split at h
  · simp [hdeparture] at h
  · simp at h
  · exact absurd h (hdeparture _)
  · next heq =>
    cases heq
    exact Or.inl ⟨_, _, _, rfl⟩
  · next heq =>
    cases heq
    exact Or.inr (Or.inl ⟨_, _, _, rfl⟩)
  · next heq =>
    cases heq
    exact Or.inr (Or.inr ⟨_, _, rfl⟩)
  · cases h

theorem registers_of_registersAs {a : Action} {name : String} (h : s.registersAs a = some name) :
    (∃ signature ref, a = .host signature ref (some name)) ∨
      (∃ signature ref, a = .register signature ref (some name)) ∨
      ∃ parts, a = .build parts (some name) := by
  cases a with
  | host signature ref stored =>
    obtain rfl : stored = some name := h
    exact Or.inl ⟨_, _, rfl⟩
  | register signature ref stored =>
    obtain rfl : stored = some name := h
    exact Or.inr (Or.inl ⟨_, _, rfl⟩)
  | build parts stored =>
    rw [registersAs] at h
    split at h
    · subst h
      exact Or.inr (Or.inr ⟨_, rfl⟩)
    · cases h
  | _ => cases h

/-- The action comes down to one registration over the routine that it offers. -/
inductive Registers (s : Session) (a : Action) (name : Option String) : Session → Prop where
  | intro {w : World} {signature : String} {c : Callback} : w.history = s.world.history →
      s.offered a = some c.routine →
      Registers s a name ({ s with world := (w.register signature c).2 }.keepFunction name
        (w.register signature c).1).2

namespace Registers

variable {a : Action}

theorem function {name : String} (h : s.Registers a (some name) s') :
    ∃ r, s'.functions.get? name = some (.host r) ∧ s.offered a = some r.callback.routine := by
  obtain ⟨-, hoffered⟩ := h
  exact ⟨_, get?_keep_self _ _ _, hoffered⟩

theorem registration {name : Option String} {i : Nat} {r : Registration} (h : s.Registers a name s')
    (hmade : s.world.MakesAt s'.world i (.registration r)) :
    s.offered a = some r.callback.routine := by
  obtain ⟨hhistory, hoffered⟩ := h
  rw [World.makesAt_register hhistory hmade]
  exact hoffered

end Registers

section Registering

variable {signature : String} {ref : CallbackRef} {name : Option String} {p : Answer × Session}

theorem host_registers (h : s.act (.host signature ref name) = .ok p) :
    s.Registers (.host signature ref name) name p.2 := by
  obtain ⟨c, hc, rfl⟩ := bind_pure_eq_ok.1 h
  have hhistory : (c.2.wrap c.1.routine).2.history = s.world.history := (ready_callback hc).history
  exact .intro hhistory (meant_eq hc)

theorem register_registers (h : s.act (.register signature ref name) = .ok p) :
    s.Registers (.register signature ref name) name p.2 := by
  obtain ⟨c, hc, rfl⟩ := bind_pure_eq_ok.1 h
  exact .intro (ready_callback hc).history (meant_eq hc)

/-- Parts of a host function register; other parts leave the history as it was. -/
theorem build_registers {parts : String} (h : s.act (.build parts name) = .ok p) :
    s.Registers (.build parts name) name p.2 ∨
      p.2.world.history = s.world.history ∧ s.registersAs (.build parts name) = none := by
  obtain ⟨q, hq, rfl⟩ := bind_pure_eq_ok.1 h
  have hget : s.parts.get? parts = some q := Store.fetch_eq_ok.1 hq
  have hregistersAs (hnone : q.registers = false) : s.registersAs (.build parts name) = none := by
    simp [registersAs, hget, hnone]
  unfold build World.build
  cases ho : q.origin with
  | error e => exact Or.inr ⟨rfl, hregistersAs (by rw [Parts.registers, ho])⟩
  | ok o =>
    cases o with
    | compiler id t => exact Or.inr ⟨rfl, hregistersAs (by rw [Parts.registers, ho])⟩
    | host signature c =>
      refine Or.inl (.intro rfl ?_)
      rw [offered, partsRoutine, hget, Option.bind_some, (parts_of_host ho).2]
      rfl

end Registering

theorem act_shares {a : Action} {p : Answer × Session} (h : s.act a = .ok p) : s.Shares a p.2 where
  callback := by
    rintro e name rfl
    obtain ⟨b, -, rfl⟩ := bind_pure_eq_ok.1 h
    rw [get?_keep_self]
    rfl
  routine := by
    rintro e name b rfl hb
    obtain ⟨b', hb', rfl⟩ := bind_pure_eq_ok.1 h
    obtain rfl : b = b' := Except.ok.inj (hb.symm.trans hb')
    exact Array.getElem?_push_size
  parts := by
    rintro e name rfl
    obtain ⟨q, hq, rfl⟩ := bind_pure_eq_ok.1 h
    rw [offered_edit hq, partsRoutine, get?_keep_self]
    rfl
  function := by
    intro name hname
    rcases registers_of_registersAs hname with ⟨_, _, rfl⟩ | ⟨_, _, rfl⟩ | ⟨parts, rfl⟩
    · exact (host_registers h).function
    · exact (register_registers h).function
    · rcases build_registers h with hregisters | ⟨-, hnone⟩
      · exact hregisters.function
      · rw [hname] at hnone
        cases hnone
  copy := by
    rintro f g rfl
    obtain ⟨q, hq, rfl⟩ := bind_pure_eq_ok.1 h
    rw [Store.fetch_eq_ok.1 hq]
    exact get?_keep_self _ _ _
  registration := by
    intro i r hmade
    rcases registers_of_logged ((act_logs h).registered_mem hmade) with
      ⟨_, _, _, rfl⟩ | ⟨_, _, _, rfl⟩ | ⟨_, _, rfl⟩
    · exact (host_registers h).registration hmade
    · exact (register_registers h).registration hmade
    · rcases build_registers h with hregisters | ⟨hhistory, -⟩
      · exact hregisters.registration hmade
      · exact absurd hmade (World.not_makesAt_of_history hhistory)

end Session
end ScriptValues
