import ScriptValues.Proofs.Places
import ScriptValues.Proofs.Wiring

/-! What an action makes, and what it hands over: from which place to which. Both are said of the
places alone, whatever is in them; what is handed over is what was in the place that it comes from,
and what is made has an identity that nothing had before. -/

namespace ScriptValues

/-- The callback that an action is given. -/
def Action.callback? : Action → Option CallbackRef
  | .newCallback e _ => some (.fresh e)
  | .host _ ref _ => some ref
  | .register _ ref _ => some ref
  | .parts e _ => e.callback
  | _ => none

namespace Session

/-- The action makes a context or a registration, and keeps it in the place. -/
inductive Makes (s : Session) : Action → Place → Prop where
  | context {name : String} : Makes s (.mint (some name)) (.context name)
  | registration {a : Action} {name : String} : s.registersAs a = some name →
      Makes s a (.function name)

/-- The action puts into the second place what is in the first. -/
inductive Hands (s : Session) : Action → Place → Place → Prop where
  | takeToken {context name : String} :
      Hands s (.takeToken context (some name)) (.context context) (.token name)
  | copyToken {token name : String} : Hands s (.copyToken token (some name)) (.token token) (.token name)
  | tokenOf {function name : String} {t : Token} : s.At (.function function) (.token t) →
      Hands s (.tokenOf function (some name)) (.function function) (.token name)
  | compiler {id : UInt32} {token name : String} :
      Hands s (.compiler id token (some name)) (.token token) (.function name)
  | contextFunction {context name : String} {id : UInt32} :
      Hands s (.contextFunction context id (some name)) (.context context) (.function name)
  | copyFunction {function name : String} :
      Hands s (.copyFunction function (some name)) (.function function) (.function name)
  | editToken {e : PartsEdit} {token name : String} : e.token = some token → .context ∉ e.clear →
      Hands s (.parts e (some name)) (.token token) (.parts name)
  | editSource {e : PartsEdit} {source name : String} : e.token = none → e.source = some source →
      .context ∉ e.clear → Hands s (.parts e (some name)) (.parts source) (.parts name)
  | build {parts name : String} {p : Parts} {id : UInt32} {t : Token} :
      s.parts.get? parts = some p → p.origin = .ok (.compiler id t) →
      Hands s (.build parts (some name)) (.parts parts) (.function name)
  | value {e : Expr} {name : String} {i : Nat} {p : Place} : (s.sources e)[i]? = some p →
      Hands s (.value e (some name)) p (.inValue name i)
  | functionOf {e : Expr} {name : String} {f : Function} {p : Place} :
      s.eval e = .ok (.function f) → s.sources e = [p] →
      Hands s (.functionOf e (some name)) p (.function name)
  /-- A routine captures the value of the expression that it is made from. -/
  | captured {a : Action} {e : Expr} {i : Nat} {p : Place} :
      a.callback? = some (.fresh (.constant e)) → (s.sources e)[i]? = some p →
      Hands s a p (.captured s.world.routines.size i)
  /-- Of equal values the set keeps the first, and so an equal key that is there already. -/
  | collected {before later : List Expr} {e : Expr} {name : String} {vs : List Value} {v : Value}
      {i : Nat} {p : Place} : s.evalItems before = .ok vs → s.eval e = .ok v →
      (.ofList vs : ValueSet).contains v = false → (s.sources e)[i]? = some p →
      Hands s (.collect (before ++ e :: later) (some name)) p (.inSet name v i)
  | setInsert {set : String} {e : Expr} {v : Value} {i : Nat} {p : Place} : s.eval e = .ok v →
      (s.setOrNew set).contains v = false → (s.sources e)[i]? = some p →
      Hands s (.setInsert set e) p (.inSet set v i)
  | mapInsert {map : String} {key : Expr} {payload : String} {v : Value} {i : Nat} {p : Place} :
      s.eval key = .ok v → (s.mapOrNew map).contains v = false → (s.sources key)[i]? = some p →
      Hands s (.mapInsert map key payload) p (.inMap map v i)
  /-- A call returns what it was given or what a routine that runs in it has captured. What a routine
  computes is any function of values, so it is by the function itself that the places are matched. -/
  | argument {function name : String} {args : List Expr} {f g : Function} {vs : List Value} {v : Value}
      {i j : Nat} {p : Place} : s.function function = .ok f → s.evalItems args = .ok vs →
      (s.world.call f vs).1 = .ok v → (s.sourcesItems args)[i]? = some p →
      (Value.functionsOfItems vs)[i]? = some g → v.functions[j]? = some g →
      Hands s (.call function args (some name)) p (.inValue name j)
  | returned {function name : String} {args : List Expr} {f g : Function} {vs given : List Value}
      {v : Value} {k : RoutineId} {result : Except String Value} {i j : Nat} :
      s.function function = .ok f → s.evalItems args = .ok vs → (s.world.call f vs).1 = .ok v →
      .run k given result ∈ s.world.callTrace f vs → s.FunctionAt (.captured k.index i) g →
      v.functions[j]? = some g →
      Hands s (.call function args (some name)) (.captured k.index i) (.inValue name j)

/-- The identity of what the action makes if it makes something: the first that is not taken. -/
def next (s : Session) : Action → Identity
  | .mint _ => .context ⟨s.world.contextCount⟩
  | _ => .registration ⟨s.world.registrationCount⟩

section Callbacks

variable {s : Session} {ref : CallbackRef} {c : Callback × World}

theorem captures_newCallback {w : World} {b : Behaviour} {k : Nat} {v : Value} :
    (w.newCallback b).2.Captures k v ↔
      w.Captures k v ∨ k = w.routines.size ∧ b = .constant v := by
  change ((w.routines.push ⟨b, 0⟩).map (·.behaviour))[k]? = _ ↔ _
  rw [Array.map_push, Array.getElem?_push, Array.size_map]
  split
  · next hk =>
    subst hk
    simp [World.Captures]
  · next hk => simp [World.Captures, hk]

theorem captures_callback (h : s.callback ref = .ok c) {k : Nat} {v : Value} :
    c.2.Captures k v ↔ s.world.Captures k v ∨ k = s.world.routines.size ∧
      ∃ e, ref = .fresh (.constant e) ∧ s.eval e = .ok v := by
  cases ref with
  | stored name =>
    obtain ⟨d, -, rfl⟩ := bind_pure_eq_ok.1 h
    simp
  | fresh e =>
    obtain ⟨b, hb, rfl⟩ := bind_pure_eq_ok.1 h
    rw [captures_newCallback]
    refine or_congr_right (and_congr_right fun _ => ?_)
    cases e with
    | constant e =>
      obtain ⟨u, hu, rfl⟩ := bind_pure_eq_ok.1 hb
      simp [hu]
    | _ =>
      cases hb
      simp

end Callbacks

variable {s : Session} {a : Action} {r : Answer × Session} {p q : Place} {x : Entity}

/-- An action that is given a callback has it, and no other routines are new after it. -/
theorem act_callback {ref : CallbackRef} (h : s.act a = .ok r) (ha : a.callback? = some ref) :
    ∃ c, s.callback ref = .ok c ∧ ∀ k v, r.2.world.Captures k v ↔ c.2.Captures k v := by
  cases a with
  | newCallback e name =>
    obtain rfl := Option.some.inj ha
    obtain ⟨b, hb, rfl⟩ := bind_pure_eq_ok.1 h
    exact ⟨_, bind_pure_eq_ok.2 ⟨b, hb, rfl⟩, fun _ _ => Iff.rfl⟩
  | host signature ref' name =>
    obtain rfl := Option.some.inj ha
    obtain ⟨c, hc, rfl⟩ := bind_pure_eq_ok.1 h
    exact ⟨c, hc, fun _ _ => Iff.rfl⟩
  | register signature ref' name =>
    obtain rfl := Option.some.inj ha
    obtain ⟨c, hc, rfl⟩ := bind_pure_eq_ok.1 h
    exact ⟨c, hc, fun _ _ => Iff.rfl⟩
  | parts e name =>
    obtain ⟨q, hq, rfl⟩ := bind_pure_eq_ok.1 h
    obtain ⟨p₀, made, -, hmade, -, hworld⟩ := edit_callback hq
    rw [show e.callback = some ref from ha] at hmade
    obtain ⟨c, hc, rfl⟩ := bind_pure_eq_ok.1 hmade
    exact ⟨c, hc, fun _ _ => by rw [hworld]; rfl⟩
  | _ => cases ha

theorem eq_of_keepToken {name : String} {t : Token}
    (h : (s.keepToken (some name) t).2.At (.token name) x) : x = .token t := by
  obtain ⟨u, hu, rfl⟩ := h
  rw [Option.some.inj (hu.symm.trans (get?_keep_self _ _ _))]

theorem eq_of_keepFunction {name : String} {f : Function}
    (h : (s.keepFunction (some name) f).2.At (.function name) x) : x = f.entity := by
  obtain ⟨g, hg, rfl⟩ := h
  rw [Option.some.inj (hg.symm.trans (get?_keep_self _ _ _))]

theorem eq_of_keepValue {t : Store Value} {name : String} {u v : Value}
    (h : (t.keep (some name) u).get? name = some v) : v = u :=
  Option.some.inj (h.symm.trans (get?_keep_self _ _ _))

theorem not_captures_size {w : World} {v : Value} : ¬ w.Captures w.routines.size v := by
  simp [World.Captures]

theorem functionAt_call {function name : String} {args : List Expr} {f : Function} {vs : List Value}
    {v : Value} {j : Nat} (hf : s.function function = .ok f) (hvs : s.evalItems args = .ok vs)
    (hv : (s.world.call f vs).1 = .ok v) (h : s.act (.call function args (some name)) = .ok r)
    (hq : r.2.At (.inValue name j) x) : ∃ g, v.functions[j]? = some g ∧ x = g.entity := by
  obtain ⟨f', hf', h⟩ := bind_eq_ok.1 h
  obtain rfl := Except.ok.inj (hf.symm.trans hf')
  obtain ⟨vs', hvs', rfl⟩ := bind_pure_eq_ok.1 h
  obtain rfl := Except.ok.inj (hvs.symm.trans hvs')
  obtain ⟨g, ⟨u, hu, hg⟩, rfl⟩ := hq
  refine ⟨g, ?_, rfl⟩
  unfold Session.call at hu
  split at hu
  · next hcall =>
    rw [hcall] at hv
    cases hv
  · next hcall =>
    rw [hcall] at hv
    cases hv
    rwa [← eq_of_keepValue hu]

/-- Getting a callback registers nothing. -/
theorem Ready.registrationCount {w : World} (h : s.Ready w) :
    w.registrationCount = s.world.registrationCount := by
  induction h with
  | same => rfl
  | made _ => rfl
  | wrapped r _ ih => exact ih

/-- What is handed over is what was where it comes from. -/
theorem Hands.at (hp : s.Hands a p q) (h : s.act a = .ok r) (hq : r.2.At q x) : s.At p x := by
  cases hp with
  | takeToken =>
    obtain ⟨c, hc, rfl⟩ := bind_pure_eq_ok.1 h
    exact ⟨c, Store.fetch_eq_ok.1 hc, eq_of_keepToken hq⟩
  | copyToken =>
    obtain ⟨t, ht, rfl⟩ := bind_pure_eq_ok.1 h
    exact ⟨t, Store.fetch_eq_ok.1 ht, eq_of_keepToken hq⟩
  | tokenOf hfunction =>
    obtain ⟨f, hf, rfl⟩ := bind_pure_eq_ok.1 h
    obtain ⟨g, hg, ht⟩ := hfunction
    obtain rfl := Option.some.inj (hg.symm.trans (Store.fetch_eq_ok.1 hf))
    cases g with
    | host r => cases ht
    | compiler id u => exact ⟨_, hg, eq_of_keepToken hq⟩
  | compiler =>
    obtain ⟨t, ht, rfl⟩ := bind_pure_eq_ok.1 h
    exact ⟨t, Store.fetch_eq_ok.1 ht, eq_of_keepFunction hq⟩
  | contextFunction =>
    obtain ⟨c, hc, rfl⟩ := bind_pure_eq_ok.1 h
    exact ⟨c, Store.fetch_eq_ok.1 hc, eq_of_keepFunction hq⟩
  | copyFunction =>
    obtain ⟨f, hf, rfl⟩ := bind_pure_eq_ok.1 h
    exact ⟨f, Store.fetch_eq_ok.1 hf, eq_of_keepFunction hq⟩
  | editToken htoken hclear =>
    obtain ⟨c, hc, rfl⟩ := bind_pure_eq_ok.1 h
    obtain ⟨p', t, hp', ht, rfl⟩ := hq
    obtain rfl := Option.some.inj (hp'.symm.trans (get?_keep_self _ _ _))
    obtain ⟨-, ⟨token, htoken', hget⟩ | ⟨htoken', -⟩⟩ := edit_token hc ht
    · obtain rfl := Option.some.inj (htoken.symm.trans htoken')
      exact ⟨t, hget, rfl⟩
    · rw [htoken] at htoken'
      cases htoken'
  | editSource htoken hsource hclear =>
    obtain ⟨c, hc, rfl⟩ := bind_pure_eq_ok.1 h
    obtain ⟨p', t, hp', ht, rfl⟩ := hq
    obtain rfl := Option.some.inj (hp'.symm.trans (get?_keep_self _ _ _))
    obtain ⟨-, ⟨token, htoken', -⟩ | ⟨-, source, p₀, hsource', hget, ht⟩⟩ := edit_token hc ht
    · rw [htoken] at htoken'
      cases htoken'
    · obtain rfl := Option.some.inj (hsource.symm.trans hsource')
      exact ⟨p₀, t, hget, ht, rfl⟩
  | build hget horigin =>
    obtain ⟨p', hp', rfl⟩ := bind_pure_eq_ok.1 h
    obtain rfl := Option.some.inj (hget.symm.trans (Store.fetch_eq_ok.1 hp'))
    simp only [Session.build, World.build, horigin] at hq
    exact ⟨_, _, hget, context_of_origin horigin, eq_of_keepFunction hq⟩
  | value hp =>
    obtain ⟨v, hv, rfl⟩ := bind_pure_eq_ok.1 h
    obtain ⟨f, ⟨u, hu, hf⟩, rfl⟩ := hq
    obtain rfl := eq_of_keepValue hu
    exact (eval_located _ hv).at hp hf
  | functionOf he hp =>
    obtain ⟨v, hv, rfl⟩ := bind_pure_eq_ok.1 h
    obtain rfl := Except.ok.inj (he.symm.trans hv)
    obtain rfl := eq_of_keepFunction hq
    have hlocated := eval_located _ he
    rw [hp] at hlocated
    exact hlocated.at (i := 0) rfl rfl
  | captured ha hp =>
    obtain ⟨f, ⟨v, hv, hf⟩, rfl⟩ := hq
    obtain ⟨c, hc, hcaptures⟩ := act_callback h ha
    rcases (captures_callback hc).1 ((hcaptures _ v).1 hv) with hv | ⟨-, e, heq, he⟩
    · exact absurd hv not_captures_size
    · cases heq
      exact (eval_located _ he).at hp hf
  | collected _ he _ hp =>
    obtain ⟨f, ⟨_, _, _, hf⟩, rfl⟩ := hq
    exact (eval_located _ he).at hp hf
  | setInsert he _ hp =>
    obtain ⟨f, ⟨_, _, _, hf⟩, rfl⟩ := hq
    exact (eval_located _ he).at hp hf
  | mapInsert he _ hp =>
    obtain ⟨f, ⟨_, _, _, hf⟩, rfl⟩ := hq
    exact (eval_located _ he).at hp hf
  | argument hf hvs hv hp hi hj =>
    obtain ⟨g, hg, rfl⟩ := functionAt_call hf hvs hv h hq
    obtain rfl := Option.some.inj (hg.symm.trans hj)
    exact (evalItems_located _ hvs).at hp hi
  | returned hf hvs hv _ hcaptured hj =>
    obtain ⟨g, hg, rfl⟩ := functionAt_call hf hvs hv h hq
    obtain rfl := Option.some.inj (hg.symm.trans hj)
    exact hcaptured.at

theorem origin_of_registers {p : Parts} (h : p.registers = true) :
    ∃ signature c, p.origin = .ok (.host signature c) := by
  unfold Parts.registers at h
  split at h
  · next ho => exact ⟨_, _, ho⟩
  · cases h

/-- What is made is new: its identity is the next one. -/
theorem Makes.identity (hm : s.Makes a q) (h : s.act a = .ok r) (hq : r.2.At q x) :
    x.identity = s.next a := by
  cases hm with
  | context =>
    obtain rfl := Except.ok.inj h
    obtain ⟨c, hc, rfl⟩ := hq
    obtain rfl := Option.some.inj (hc.symm.trans (get?_keep_self _ _ _))
    rfl
  | registration hname =>
    rcases registers_of_registersAs hname with ⟨signature, ref, rfl⟩ | ⟨signature, ref, rfl⟩ | ⟨parts, rfl⟩
    · obtain ⟨c, hc, rfl⟩ := bind_pure_eq_ok.1 h
      obtain rfl := eq_of_keepFunction hq
      exact congrArg (fun n => Identity.registration ⟨n⟩) (ready_callback hc).registrationCount
    · obtain ⟨c, hc, rfl⟩ := bind_pure_eq_ok.1 h
      obtain rfl := eq_of_keepFunction hq
      exact congrArg (fun n => Identity.registration ⟨n⟩) (ready_callback hc).registrationCount
    · obtain ⟨p, hp, rfl⟩ := bind_pure_eq_ok.1 h
      have hregisters : p.registers = true := by
        simpa [registersAs, Store.fetch_eq_ok.1 hp] using hname
      obtain ⟨signature, c, ho⟩ := origin_of_registers hregisters
      simp only [Session.build, World.build, ho] at hq
      obtain rfl := eq_of_keepFunction hq
      rfl

end Session
end ScriptValues