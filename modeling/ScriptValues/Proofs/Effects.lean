import ScriptValues.Proofs.Holdings

/-! What one command can do to a session. Every action is one of a few changes, each of which stores
only what the session holds already or what the change itself has made. -/

namespace ScriptValues
namespace Session

/-- The world once a command has its callback: as it was, or with new callback objects. -/
inductive Ready (s : Session) : World → Prop where
  | same : Ready s s.world
  | made {b : Behaviour} : b.Over s.Holds → Ready s (s.world.newCallback b).2
  | wrapped {w : World} (r : RoutineId) : Ready s w → Ready s (w.wrap r).2

/-- The callback runs what a callback of the session runs, or a new routine of the world. -/
inductive Serves (s : Session) (w : World) (c : Callback) : Prop where
  | stored {name : String} {d : Callback} : s.callbacks.get? name = some d → c.routine = d.routine →
      Serves s w c
  | inParts {name : String} {p : Parts} {d : Callback} : s.parts.get? name = some p →
      p.callback = some d → c.routine = d.routine → Serves s w c
  | made : c.routine.index < w.routines.size → Serves s w c

/-- The sets that a command can make. -/
inductive MakesSet (s : Session) : ValueSet → Prop where
  | collected {vs : List Value} : (∀ v ∈ vs, v.Over s.Holds) → MakesSet s (.ofList vs)
  | named (name : String) : MakesSet s (s.setOrNew name)
  | inserted (name : String) {v : Value} : v.Over s.Holds → MakesSet s ((s.setOrNew name).insert v ())
  | erased (name : String) {v : Value} : v.Over s.Holds → MakesSet s ((s.setOrNew name).erase v)

/-- The changes of a session that call nothing. -/
inductive Change (s : Session) : Session → Prop where
  | none : Change s s
  | mint (name : Option String) : Change s (s.mint name).2
  | dropContext (name : String) : Change s (s.dropContext name).2
  | keepToken (name : Option String) {t : Token} : s.HoldsToken t → Change s (s.keepToken name t).2
  | dropToken (name : String) : Change s { s with tokens := s.tokens.erase name }
  | keepFunction (name : Option String) {f : Function} : s.Holds f.entity →
      Change s (s.keepFunction name f).2
  | dropFunction (name : String) : Change s { s with functions := s.functions.erase name }
  | newCallback (name : Option String) {c : Callback} {w : World} : s.Ready w → s.Serves w c →
      Change s { s with world := w, callbacks := s.callbacks.keep name c }
  | register (signature : String) {c : Callback} (name : Option String) {w : World} : s.Ready w →
      s.Serves w c → Change s ({ s with world := (w.register signature c).2 }.keepFunction name
        (w.register signature c).1).2
  | keepParts (name : Option String) {p : Parts} {w : World} : s.Ready w → p.Over s.Holds →
      (∀ c, p.callback = some c → s.Serves w c) →
      Change s { s with world := w, parts := s.parts.keep name p }
  | keepValue (name : Option String) {v : Value} : v.Over s.Holds →
      Change s { s with values := s.values.keep name v }
  | dropValue (name : String) : Change s { s with values := s.values.erase name }
  | keepSet (name : Option String) {t : ValueSet} : s.MakesSet t →
      Change s { s with sets := s.sets.keep name t }
  | keepMap (name : String) {t : ValueMap} : t.Over s.Holds →
      Change s { s with maps := s.maps.insert name t }

/-- The changes of a session. -/
inductive Effect (s : Session) : Session → Prop where
  | change {s' : Session} : s.Change s' → Effect s s'
  | call (name : Option String) {f : Function} {args : List Value} : s.Holds f.entity →
      (∀ v ∈ args, v.Over s.Holds) → Effect s (s.call name f args).2

variable {s : Session}

theorem holds_context {name : String} {c : Context} (h : s.context name = .ok c) :
    s.HoldsToken c.token :=
  .owned (Store.fetch_eq_ok.1 h)

theorem holds_token {name : String} {t : Token} (h : s.token name = .ok t) : s.HoldsToken t :=
  .stored (Store.fetch_eq_ok.1 h)

theorem holds_function {name : String} {f : Function} (h : s.function name = .ok f) :
    s.Holds f.entity :=
  (HoldsFunction.stored (Store.fetch_eq_ok.1 h)).holds

theorem ready_callback {ref : CallbackRef} {p : Callback × World} (h : s.callback ref = .ok p) :
    s.Ready p.2 := by
  cases ref with
  | stored name =>
    obtain ⟨d, _, rfl⟩ := bind_pure_eq_ok.1 h
    exact .same
  | fresh e =>
    obtain ⟨b, hb, rfl⟩ := bind_pure_eq_ok.1 h
    exact .made (s.over_holds.behaviour hb)

theorem Serves.wrap {w : World} {c : Callback} (h : s.Serves w c) :
    s.Serves (w.wrap c.routine).2 (w.wrap c.routine).1 := by
  cases h with
  | stored hd hc => exact .stored hd hc
  | inParts hp hd hc => exact .inParts hp hd hc
  | made hlt => exact .made hlt

theorem serves_newCallback (s : Session) (b : Behaviour) :
    s.Serves (s.world.newCallback b).2 (s.world.newCallback b).1 := by
  apply Serves.made
  simp [World.newCallback, World.wrap]

theorem serves_callback {ref : CallbackRef} {p : Callback × World} (h : s.callback ref = .ok p) :
    s.Serves p.2 p.1 := by
  cases ref with
  | stored name =>
    obtain ⟨d, hd, rfl⟩ := bind_pure_eq_ok.1 h
    exact .stored (Store.fetch_eq_ok.1 hd) rfl
  | fresh e =>
    obtain ⟨b, -, rfl⟩ := bind_pure_eq_ok.1 h
    exact s.serves_newCallback b

theorem orElse_eq_ok {α β : Type} {x : Option α} {get : α → Except Fault β} {y z : Option β}
    (h : orElse x get y = .ok z) : z = y ∨ ∃ a b, get a = .ok b ∧ z = some b := by
  cases x with
  | none =>
    cases h
    exact Or.inl rfl
  | some a =>
    obtain ⟨b, hb, rfl⟩ := bind_pure_eq_ok.1 h
    exact Or.inr ⟨a, b, hb, rfl⟩

theorem context_clear (p : Parts) (fields : List PartsField) :
    (fields.foldl Parts.clear p).context = if .context ∈ fields then none else p.context := by
  induction fields generalizing p with
  | nil => simp
  | cons field fields ih => cases field <;> simp [ih, Parts.clear]

theorem callback_clear (p : Parts) (fields : List PartsField) :
    (fields.foldl Parts.clear p).callback = if .callback ∈ fields then none else p.callback := by
  induction fields generalizing p with
  | nil => simp
  | cons field fields ih => cases field <;> simp [ih, Parts.clear]

/-- The parts after an edit have the callback that it sets, or else the one they had before it. -/
theorem edit_callback {e : PartsEdit} {p : Parts × World} (h : s.edit e = .ok p) :
    ∃ p₀ made, e.source.elim (.ok {}) s.partsNamed = .ok p₀ ∧
      orElse e.callback s.callback none = .ok made ∧
      p.1.callback = (if .callback ∈ e.clear then none else made.map (·.1) <|> p₀.callback) ∧
      p.2 = (made.map (·.2)).getD s.world := by
  obtain ⟨p₀, hp₀, h⟩ := bind_eq_ok.1 h
  obtain ⟨context, -, h⟩ := bind_eq_ok.1 h
  obtain ⟨made, hmade, rfl⟩ := bind_pure_eq_ok.1 h
  exact ⟨p₀, made, hp₀, hmade, callback_clear _ _, rfl⟩

/-- A token in the parts after an edit is the one that it sets, or else the one from before it. -/
theorem edit_token {e : PartsEdit} {p : Parts × World} (h : s.edit e = .ok p) {t : Token}
    (ht : p.1.context = some t) : .context ∉ e.clear ∧
      ((∃ token, e.token = some token ∧ s.tokens.get? token = some t) ∨
        e.token = none ∧ ∃ source q, e.source = some source ∧ s.parts.get? source = some q ∧
          q.context = some t) := by
  obtain ⟨p₀, hp₀, h⟩ := bind_eq_ok.1 h
  obtain ⟨context, hcontext, h⟩ := bind_eq_ok.1 h
  obtain ⟨made, -, rfl⟩ := bind_pure_eq_ok.1 h
  rw [context_clear] at ht
  split at ht
  · cases ht
  · next hclear =>
    refine ⟨hclear, ?_⟩
    cases htoken : e.token with
    | some token =>
      rw [htoken] at hcontext
      obtain ⟨u, hu, rfl⟩ := bind_pure_eq_ok.1 hcontext
      cases ht
      exact Or.inl ⟨token, rfl, Store.fetch_eq_ok.1 hu⟩
    | none =>
      rw [htoken] at hcontext
      cases hcontext
      cases hsource : e.source with
      | none =>
        rw [hsource] at hp₀
        cases hp₀
        cases ht
      | some source =>
        rw [hsource] at hp₀
        exact Or.inr ⟨rfl, source, p₀, rfl, Store.fetch_eq_ok.1 hp₀, ht⟩

theorem edit_eq_ok {e : PartsEdit} {p : Parts × World} (h : s.edit e = .ok p) :
    s.Ready p.2 ∧ p.1.Over s.Holds := by
  constructor
  · obtain ⟨p₀, made, -, hmade, -, hworld⟩ := edit_callback h
    rw [hworld]
    rcases orElse_eq_ok hmade with rfl | ⟨ref, p, href, rfl⟩
    · exact .same
    · exact ready_callback href
  · intro t ht
    obtain ⟨-, ⟨token, -, htoken⟩ | ⟨-, source, q, -, hq, ht⟩⟩ := edit_token h ht
    · exact HoldsToken.stored htoken
    · exact HoldsToken.inParts hq ht

theorem serves_edit {e : PartsEdit} {p : Parts × World} (h : s.edit e = .ok p) :
    ∀ c, p.1.callback = some c → s.Serves p.2 c := by
  obtain ⟨p₀, made, hp₀, hmade, hcallback, hworld⟩ := edit_callback h
  intro c hc
  rw [hcallback] at hc
  split at hc
  · cases hc
  · rcases orElse_eq_ok hmade with rfl | ⟨ref, q, href, rfl⟩
    · cases hsource : e.source with
      | none =>
        rw [hsource] at hp₀
        cases hp₀
        cases hc
      | some name =>
        rw [hsource] at hp₀
        exact .inParts (Store.fetch_eq_ok.1 hp₀) hc rfl
    · cases hc
      rw [hworld]
      exact serves_callback href

theorem over_setOrNew (s : Session) (name : String) : (s.setOrNew name).Over s.Holds := by
  unfold setOrNew
  cases h : s.sets.get? name with
  | none => exact Table.Over.empty
  | some t => exact s.over_holds.sets name t h

theorem MakesSet.over {t : ValueSet} (h : s.MakesSet t) : t.Over s.Holds := by
  cases h with
  | collected hvs => exact Table.over_ofList hvs
  | named name => exact s.over_setOrNew name
  | inserted name hv => exact (s.over_setOrNew name).insert hv ()
  | erased name hv => exact (s.over_setOrNew name).erase _

theorem over_mapOrNew (s : Session) (name : String) : (s.mapOrNew name).Over s.Holds := by
  unfold mapOrNew
  cases h : s.maps.get? name with
  | none => exact Table.Over.empty
  | some t => exact s.over_holds.maps name t h

theorem context_of_origin {p : Parts} {id : UInt32} {t : Token}
    (h : p.origin = .ok (.compiler id t)) : p.context = some t := by
  unfold Parts.origin at h
  split at h
  · cases h
  · cases h
  · split at h
    · next hcontext =>
      cases h
      exact hcontext
    · cases h
    · cases h
  · split at h <;> cases h

theorem parts_of_host {p : Parts} {signature : String} {c : Callback}
    (h : p.origin = .ok (.host signature c)) : p.signature = some signature ∧ p.callback = some c := by
  unfold Parts.origin at h
  split at h
  · cases h
  · cases h
  · split at h <;> cases h
  · split at h
    · next hsignature hcallback =>
      cases h
      exact ⟨hsignature, hcallback⟩
    · cases h
    · cases h

theorem build_change {parts : String} (name : Option String) {p : Parts}
    (hp : s.parts.get? parts = some p) : s.Change (s.build name p).2 := by
  unfold build World.build
  cases ho : p.origin with
  | error e => exact .none
  | ok o =>
    cases o with
    | host signature c => exact .register signature name .same (.inParts hp (parts_of_host ho).2 rfl)
    | compiler id t => exact .keepFunction name (s.over_holds.parts _ p hp t (context_of_origin ho))

/-- Every action but a call is one of the changes. -/
theorem act_change {a : Action} {p : Answer × Session} (h : s.act a = .ok p)
    (hcall : ∀ function args name, a ≠ .call function args name) : s.Change p.2 := by
  cases a with
  | mint name =>
    obtain rfl := Except.ok.inj h
    exact .mint name
  | dropContext name =>
    obtain rfl := Except.ok.inj h
    exact .dropContext name
  | takeToken context name =>
    obtain ⟨c, hc, rfl⟩ := bind_pure_eq_ok.1 h
    exact .keepToken name (holds_context hc)
  | copyToken token name =>
    obtain ⟨t, ht, rfl⟩ := bind_pure_eq_ok.1 h
    exact .keepToken name (holds_token ht)
  | tokenOf function name =>
    obtain ⟨f, hf, rfl⟩ := bind_pure_eq_ok.1 h
    unfold tokenOf
    split
    · exact .none
    · next t ht => exact .keepToken name (.inFunction (.stored (Store.fetch_eq_ok.1 hf)) ht)
  | dropToken name =>
    obtain rfl := Except.ok.inj h
    exact .dropToken name
  | compiler id token name =>
    obtain ⟨t, ht, rfl⟩ := bind_pure_eq_ok.1 h
    exact .keepFunction name (holds_token ht)
  | contextFunction context id name =>
    obtain ⟨c, hc, rfl⟩ := bind_pure_eq_ok.1 h
    exact .keepFunction name (holds_context hc)
  | newCallback e name =>
    obtain ⟨b, hb, rfl⟩ := bind_pure_eq_ok.1 h
    exact .newCallback name (.made (s.over_holds.behaviour hb)) (s.serves_newCallback b)
  | host signature callback name =>
    obtain ⟨c, hc, rfl⟩ := bind_pure_eq_ok.1 h
    exact .register signature name (.wrapped c.1.routine (ready_callback hc)) (serves_callback hc).wrap
  | register signature callback name =>
    obtain ⟨c, hc, rfl⟩ := bind_pure_eq_ok.1 h
    exact .register signature name (ready_callback hc) (serves_callback hc)
  | copyFunction function name =>
    obtain ⟨f, hf, rfl⟩ := bind_pure_eq_ok.1 h
    exact .keepFunction name (holds_function hf)
  | dropFunction name =>
    obtain rfl := Except.ok.inj h
    exact .dropFunction name
  | call function args name => exact absurd rfl (hcall function args name)
  | parts e name =>
    obtain ⟨q, hq, rfl⟩ := bind_pure_eq_ok.1 h
    obtain ⟨hw, hover⟩ := edit_eq_ok hq
    exact .keepParts name hw hover (serves_edit hq)
  | build parts name =>
    obtain ⟨q, hq, rfl⟩ := bind_pure_eq_ok.1 h
    exact build_change name (Store.fetch_eq_ok.1 hq)
  | value e name =>
    obtain ⟨v, hv, rfl⟩ := bind_pure_eq_ok.1 h
    exact .keepValue name (s.over_holds.eval e hv)
  | functionOf e name =>
    obtain ⟨v, hv, rfl⟩ := bind_pure_eq_ok.1 h
    have hover := s.over_holds.eval e hv
    cases v with
    | function f => exact .keepFunction name (Value.forall_function.1 hover)
    | _ => exact .none
  | dropValue name =>
    obtain rfl := Except.ok.inj h
    exact .dropValue name
  | collect values name =>
    obtain ⟨vs, hvs, rfl⟩ := bind_pure_eq_ok.1 h
    exact .keepSet name (.collected (s.over_holds.evalItems values hvs))
  | setInsert name e =>
    obtain ⟨v, hv, rfl⟩ := bind_pure_eq_ok.1 h
    exact .keepSet (some name) (.inserted name (s.over_holds.eval e hv))
  | setContains name e =>
    obtain ⟨v, hv, rfl⟩ := bind_pure_eq_ok.1 h
    exact .keepSet (some name) (.named name)
  | setRemove name e =>
    obtain ⟨v, hv, rfl⟩ := bind_pure_eq_ok.1 h
    exact .keepSet (some name) (.erased name (s.over_holds.eval e hv))
  | mapInsert name key payload =>
    obtain ⟨v, hv, rfl⟩ := bind_pure_eq_ok.1 h
    exact .keepMap name ((s.over_mapOrNew name).insert (s.over_holds.eval key hv) payload)
  | mapGet name key =>
    obtain ⟨v, hv, rfl⟩ := bind_pure_eq_ok.1 h
    exact .keepMap name (s.over_mapOrNew name)
  | mapRemove name key =>
    obtain ⟨v, hv, rfl⟩ := bind_pure_eq_ok.1 h
    exact .keepMap name ((s.over_mapOrNew name).erase v)

theorem act_effect {a : Action} {p : Answer × Session} (h : s.act a = .ok p) : s.Effect p.2 := by
  by_cases hcall : ∃ function args name, a = .call function args name
  · obtain ⟨function, args, name, rfl⟩ := hcall
    obtain ⟨f, hf, h⟩ := bind_eq_ok.1 h
    obtain ⟨vs, hvs, rfl⟩ := bind_pure_eq_ok.1 h
    exact .call name (holds_function hf) (s.over_holds.evalItems args hvs)
  · refine .change (act_change h fun function args name heq => hcall ⟨function, args, name, heq⟩)

variable {s' : Session} {w : World} {A : Entity → Prop}

theorem Ready.moves (h : s.Ready w) : s.world.Moves w := by
  induction h with
  | same => exact .refl
  | made _ => exact .newCallback _ .refl
  | wrapped r _ ih => exact .wrap r ih

theorem Ready.history (h : s.Ready w) : w.history = s.world.history := by
  induction h with
  | same => rfl
  | made _ => rfl
  | wrapped r _ ih => exact ih

theorem Ready.preserves_over (h : s.Ready w) (hs : s.Over A) : w.Over A := by
  induction h with
  | same => exact hs.world
  | made hb => exact hs.world.newCallback (hb.mono fun _ => hs.of_holds)
  | wrapped r _ ih => exact ih

theorem keepContext_moves (s : Session) (name : Option String) (c : Context) :
    s.world.Moves (s.keepContext name c).world := by
  cases name with
  | none => exact .drop c .refl
  | some name =>
    change s.world.Moves ((s.contexts.get? name).elim s.world s.world.drop)
    cases s.contexts.get? name with
    | none => exact .refl
    | some old => exact .drop old .refl

theorem call_world (s : Session) (name : Option String) (f : Function) (args : List Value) :
    (s.call name f args).2.world = (s.world.call f args).2 := by
  unfold Session.call
  split
  · next hcall => rw [hcall]
  · next hcall => rw [hcall]

theorem Change.moves (h : s.Change s') : s.world.Moves s'.world := by
  cases h with
  | mint name =>
    have hkeep := keepContext_moves { s with world := s.world.mint.2 } name s.world.mint.1
    exact World.Moves.trans (.mint .refl) hkeep
  | dropContext name =>
    unfold Session.dropContext
    split
    · exact .refl
    · exact .drop _ .refl
  | newCallback name hw hc => exact hw.moves
  | register signature name hw hc => exact .register signature _ hw.moves
  | keepParts name hw hp hc => exact hw.moves
  | _ => exact .refl

theorem Change.preserves_over (h : s.Change s') (hs : s.Over A)
    (hnew : ∀ i x, s.world.MakesAt s'.world i x → A x) : s'.Over A := by
  have hold : ∀ x, s.Holds x → A x := fun _ => hs.of_holds
  cases h with
  | none => exact hs
  | mint name =>
    have hc : A (.token s.world.mint.1.token) := by
      refine hnew s.world.history.length _ (World.makesAt_of_isPrefix (e := .minted _) ?_ rfl)
      exact (keepContext_moves { s with world := s.world.mint.2 } name s.world.mint.1).history_isPrefix
    cases name with
    | none => exact { hs with }
    | some name =>
      have hcontexts := hs.contexts.insert name hc
      refine { hs with contexts := hcontexts, world := ?_ }
      change ((s.contexts.get? name).elim s.world.mint.2 s.world.mint.2.drop).Over A
      cases s.contexts.get? name with
      | none => exact hs.world
      | some old => exact hs.world
  | dropContext name =>
    unfold Session.dropContext
    split
    · exact hs
    · exact { hs with contexts := hs.contexts.erase name }
  | keepToken name ht => exact { hs with tokens := hs.tokens.keep name (hold (.token _) ht) }
  | dropToken name => exact { hs with tokens := hs.tokens.erase name }
  | keepFunction name hf => exact { hs with functions := hs.functions.keep name (hold _ hf) }
  | dropFunction name => exact { hs with functions := hs.functions.erase name }
  | newCallback name hw hc => exact { hs with world := hw.preserves_over hs }
  | @register signature c name w hw hc =>
    have hr : A (w.register signature c).1.entity := by
      refine hnew s.world.history.length _ (World.makesAt_of_isPrefix (e := .registered _) ?_ rfl)
      rw [← hw.history]
      exact List.prefix_rfl
    exact { hs with world := hw.preserves_over hs, functions := hs.functions.keep name hr }
  | keepParts name hw hp hc =>
    exact { hs with world := hw.preserves_over hs, parts := hs.parts.keep name (hp.mono hold) }
  | keepValue name hv => exact { hs with values := hs.values.keep name (hv.mono hold) }
  | dropValue name => exact { hs with values := hs.values.erase name }
  | keepSet name ht => exact { hs with sets := hs.sets.keep name (ht.over.mono hold) }
  | keepMap name ht => exact { hs with maps := hs.maps.insert name (ht.mono hold) }

namespace Effect

theorem moves (h : s.Effect s') : s.world.Moves s'.world := by
  cases h with
  | change h => exact h.moves
  | call name hf hargs =>
    rw [call_world]
    exact .call _ _ .refl

/-- What the entities held have in common they keep, if what is made has it too. -/
theorem preserves_over (h : s.Effect s') (hs : s.Over A)
    (hnew : ∀ i x, s.world.MakesAt s'.world i x → A x) : s'.Over A := by
  cases h with
  | change h => exact h.preserves_over hs hnew
  | @call name f args hf hargs =>
    have hargs' : ∀ v ∈ args, v.Over A := fun v hv => (hargs v hv).mono fun _ => hs.of_holds
    have hquiet := World.quiet_call s.world f args
    unfold Session.call
    split
    · next e w hcall =>
      rw [hcall] at hquiet
      exact { hs with world := hs.world.quiet hquiet }
    · next v w hcall =>
      rw [hcall] at hquiet
      have hv : v.Over A := World.over_call hs.world hargs' (by rw [hcall])
      exact { hs with world := hs.world.quiet hquiet, values := hs.values.keep name hv }

end Effect

end Session
end ScriptValues
