import ScriptValues.Callback.Standard
import ScriptValues.Proofs.Agreement
import ScriptValues.Proofs.Provenance

/-! Nothing but a call looks at what a callback does. Commands that make no call are answered alike
whichever callbacks are made in the place of others, as long as the same ones are shared. -/

namespace ScriptValues

def World.withRoutines (w : World) (routines : Array Routine) : World :=
  { w with routines }

/-- The worlds differ at most in what their routines do. -/
def World.Alike (w w' : World) : Prop :=
  ∃ routines, routines.size = w.routines.size ∧ w' = w.withRoutines routines

/-- The numbers of routines agree, so the new callbacks are over the same one. -/
theorem World.Alike.newCallback {w w' : World} (h : w.Alike w') (b b' : Behaviour) :
    (w'.newCallback b').1 = (w.newCallback b).1 ∧ (w.newCallback b).2.Alike (w'.newCallback b').2 := by
  obtain ⟨routines, hsize, rfl⟩ := h
  refine ⟨?_, routines.push ⟨b', 0⟩, ?_, rfl⟩
  · simp only [World.newCallback, World.wrap, World.withRoutines, hsize]
  · simp only [World.newCallback, World.wrap, Array.size_push, hsize]

theorem World.Alike.wrap {w w' : World} (h : w.Alike w') (r : RoutineId) :
    (w'.wrap r).1 = (w.wrap r).1 ∧ (w.wrap r).2.Alike (w'.wrap r).2 := by
  obtain ⟨routines, hsize, rfl⟩ := h
  exact ⟨rfl, routines, hsize, rfl⟩

namespace Session

def withRoutines (s : Session) (routines : Array Routine) : Session :=
  { s with world := s.world.withRoutines routines }

/-- The sessions have stored the same things, in worlds that are alike. -/
def Alike (s s' : Session) : Prop :=
  ∃ routines, routines.size = s.world.routines.size ∧ s' = s.withRoutines routines

/-- The same answer, and sessions that are alike after it. -/
def Mates (p p' : Answer × Session) : Prop :=
  p'.1 = p.1 ∧ p.2.Alike p'.2

section Reading

variable (s : Session) (routines : Array Routine)

mutual
theorem eval_withRoutines : ∀ e : Expr, (s.withRoutines routines).eval e = s.eval e
  | .null | .boolean _ | .string _ | .function _ | .value _ | .compiler .. | .text .. => rfl
  | .list es => by rw [eval, eval, evalItems_withRoutines es]
  | .copies n e => by rw [eval, eval, eval_withRoutines e]
  | .nest n e => by rw [eval, eval, eval_withRoutines e]
  | .concat es => by rw [eval, eval, evalConcat_withRoutines es]

theorem evalItems_withRoutines :
    ∀ es : List Expr, (s.withRoutines routines).evalItems es = s.evalItems es
  | [] => rfl
  | e :: es => by rw [evalItems, evalItems, eval_withRoutines e, evalItems_withRoutines es]

theorem evalConcat_withRoutines :
    ∀ es : List Expr, (s.withRoutines routines).evalConcat es = s.evalConcat es
  | [] => rfl
  | e :: es => by rw [evalConcat, evalConcat, eval_withRoutines e, evalConcat_withRoutines es]
end

theorem ask_withRoutines (q : Query) : (s.withRoutines routines).ask q = s.ask q := by
  cases q with
  | hashValue e | valueTexts e | feed e => rw [ask, ask, eval_withRoutines]
  | compareValues a b => rw [ask, ask, eval_withRoutines, eval_withRoutines]
  | matrix items => rw [ask, ask, evalItems_withRoutines]
  | _ => rfl

theorem behaviour_withRoutines (e : CallbackExpr) :
    (s.withRoutines routines).behaviour e = s.behaviour e := by
  cases e with
  | constant e => rw [behaviour, behaviour, eval_withRoutines]
  | _ => rfl

end Reading

/-- A callback can be made from the one expression exactly when one can be made from the other. -/
def Exchangeable (s : Session) (e e' : CallbackExpr) : Prop :=
  ∀ fault, s.behaviour e = .error fault ↔ s.behaviour e' = .error fault

/-- The same stored callback, or a new one in the place of another. -/
inductive SwapsRef (s : Session) : CallbackRef → CallbackRef → Prop where
  | stored (name : String) : SwapsRef s (.stored name) (.stored name)
  | fresh {e e' : CallbackExpr} : s.Exchangeable e e' → SwapsRef s (.fresh e) (.fresh e')

/-- The same action with other callbacks. Any action but a call may also stay as it is. -/
inductive Swaps (s : Session) : Action → Action → Prop where
  | newCallback {e e' : CallbackExpr} (name : Option String) : s.Exchangeable e e' →
      Swaps s (.newCallback e name) (.newCallback e' name)
  | host {r r' : CallbackRef} (signature : String) (name : Option String) : s.SwapsRef r r' →
      Swaps s (.host signature r name) (.host signature r' name)
  | register {r r' : CallbackRef} (signature : String) (name : Option String) : s.SwapsRef r r' →
      Swaps s (.register signature r name) (.register signature r' name)
  | parts {r r' : Option CallbackRef} (edit : PartsEdit) (name : Option String) :
      Option.Rel s.SwapsRef r r' →
      Swaps s (.parts { edit with callback := r } name) (.parts { edit with callback := r' } name)
  | same {a : Action} : (∀ f args name, a ≠ .call f args name) → Swaps s a a

/-- The runs that swap callbacks as they come to be made. -/
inductive SwapsRun : Session → List Command → List Command → Prop where
  | nil (s : Session) : SwapsRun s [] []
  | ask {s : Session} {cs cs' : List Command} (q : Query) : SwapsRun s cs cs' →
      SwapsRun s (.ask q :: cs) (.ask q :: cs')
  | act {s : Session} {a a' : Action} {cs cs' : List Command} : s.Swaps a a' →
      SwapsRun (s.step (.act a)).2 cs cs' → SwapsRun s (.act a :: cs) (.act a' :: cs')

variable {s s' : Session}

theorem SwapsRef.refl (s : Session) : ∀ r : CallbackRef, s.SwapsRef r r
  | .stored name => .stored name
  | .fresh _ => .fresh fun _ => Iff.rfl

theorem Alike.world (h : s.Alike s') : s.world.Alike s'.world := by
  obtain ⟨routines, hsize, rfl⟩ := h
  exact ⟨routines, hsize, rfl⟩

theorem agree_behaviour (h : s.Alike s') {e e' : CallbackExpr} (he : s.Exchangeable e e') :
    Agree Eq (fun _ _ => True) (s.behaviour e) (s'.behaviour e') := by
  obtain ⟨routines, -, rfl⟩ := h
  rw [behaviour_withRoutines]
  cases hb : s.behaviour e with
  | error fault =>
    rw [(he fault).1 hb]
    exact .error rfl
  | ok b =>
    cases hb' : s.behaviour e' with
    | error fault => cases hb.symm.trans ((he fault).2 hb')
    | ok b' => exact .ok trivial

theorem agree_callback (h : s.Alike s') {r r' : CallbackRef} (hr : s.SwapsRef r r') :
    Agree Eq (fun q q' => q'.1 = q.1 ∧ q.2.Alike q'.2) (s.callback r) (s'.callback r') := by
  cases hr with
  | stored name =>
    have hsame : s'.callbacks.fetch .callback name = s.callbacks.fetch .callback name := by
      obtain ⟨routines, -, rfl⟩ := h
      rfl
    exact (Agree.of_eq hsame).map fun c _ hc => ⟨hc.symm, h.world⟩
  | fresh he => exact (agree_behaviour h he).map fun b b' _ => h.world.newCallback b b'

theorem agree_edit (h : s.Alike s') (e : PartsEdit) {r r' : Option CallbackRef}
    (hr : Option.Rel s.SwapsRef r r') :
    Agree Eq (fun q q' => q'.1 = q.1 ∧ q.2.Alike q'.2)
      (s.edit { e with callback := r }) (s'.edit { e with callback := r' }) := by
  have hmade : Agree Eq (Option.Rel fun q q' => q'.1 = q.1 ∧ q.2.Alike q'.2)
      (orElse r s.callback none) (orElse r' s'.callback none) := by
    cases hr with
    | none => exact .ok .none
    | some hr => exact (agree_callback h hr).map fun q q' hq => .some hq
  have hsource : e.source.elim (.ok {}) s'.partsNamed = e.source.elim (.ok {}) s.partsNamed := by
    obtain ⟨routines, -, rfl⟩ := h
    rfl
  have htoken (p : Parts) : orElse e.token s'.token p.context = orElse e.token s.token p.context := by
    obtain ⟨routines, -, rfl⟩ := h
    rfl
  refine (Agree.of_eq hsource).bind fun p _ hp => ?_
  obtain rfl := hp
  refine (Agree.of_eq (htoken p)).bind fun context _ hcontext => ?_
  obtain rfl := hcontext
  refine hmade.map fun made made' hq => ?_
  cases hq with
  | none => exact ⟨rfl, h.world⟩
  | @some q q' hq => exact ⟨by simp only [Option.map_some, hq.1], hq.2⟩

theorem agree_newCallback (h : s.Alike s') {e e' : CallbackExpr} (he : s.Exchangeable e e')
    (name : Option String) :
    Agree Eq Mates (s.act (.newCallback e name)) (s'.act (.newCallback e' name)) := by
  rw [act_newCallback, act_newCallback]
  refine (agree_callback h (.fresh he)).map fun q q' hq => ?_
  obtain ⟨hobject, routines, hsize, hw⟩ := hq
  obtain ⟨_, -, rfl⟩ := h
  rw [hobject, hw]
  exact ⟨rfl, routines, hsize, rfl⟩

/-- The callback that a function is registered over may be wrapped first. -/
theorem agree_registerOver (h : s.Alike s') {r r' : CallbackRef} (hr : s.SwapsRef r r')
    (signature : String) (name : Option String) {prepare : Callback × World → Callback × World}
    (hprepare : ∀ q q', q'.1 = q.1 ∧ q.2.Alike q'.2 →
      (prepare q').1 = (prepare q).1 ∧ (prepare q).2.Alike (prepare q').2) :
    Agree Eq Mates (s.callback r >>= fun q => pure (s.registerOver signature name (prepare q)))
      (s'.callback r' >>= fun q => pure (s'.registerOver signature name (prepare q))) := by
  refine (agree_callback h hr).map fun q q' hq => ?_
  obtain ⟨hobject, routines, hsize, hw⟩ := hprepare q q' hq
  obtain ⟨_, -, rfl⟩ := h
  rw [registerOver, registerOver, hobject, hw]
  exact ⟨rfl, routines, hsize, rfl⟩

theorem agree_host (h : s.Alike s') {r r' : CallbackRef} (hr : s.SwapsRef r r') (signature : String)
    (name : Option String) :
    Agree Eq Mates (s.act (.host signature r name)) (s'.act (.host signature r' name)) := by
  rw [act_host, act_host]
  refine agree_registerOver h hr signature name fun q q' ⟨hobject, hw⟩ => ?_
  rw [hobject]
  exact hw.wrap q.1.routine

theorem agree_register (h : s.Alike s') {r r' : CallbackRef} (hr : s.SwapsRef r r')
    (signature : String) (name : Option String) :
    Agree Eq Mates (s.act (.register signature r name)) (s'.act (.register signature r' name)) := by
  rw [act_register, act_register]
  exact agree_registerOver h hr signature name fun q q' hq => hq

theorem agree_parts (h : s.Alike s') (e : PartsEdit) {r r' : Option CallbackRef}
    (hr : Option.Rel s.SwapsRef r r') (name : Option String) :
    Agree Eq Mates (s.act (.parts { e with callback := r } name))
      (s'.act (.parts { e with callback := r' } name)) := by
  refine (agree_edit h e hr).map fun q q' hq => ?_
  obtain ⟨hparts, routines, hsize, hw⟩ := hq
  obtain ⟨_, -, rfl⟩ := h
  rw [hparts, hw]
  exact ⟨rfl, routines, hsize, rfl⟩

theorem mint_mates (h : s.Alike s') (name : Option String) : Mates (s.mint name) (s'.mint name) := by
  obtain ⟨routines, hsize, rfl⟩ := h
  cases name with
  | none => exact ⟨rfl, routines, hsize, rfl⟩
  | some name =>
    refine ⟨rfl, routines, ?_, ?_⟩
    all_goals
      simp only [mint, keepContext, withRoutines]
      cases s.contexts.get? name <;> first | exact hsize | rfl

theorem dropContext_mates (h : s.Alike s') (name : String) :
    Mates (s.dropContext name) (s'.dropContext name) := by
  obtain ⟨routines, hsize, rfl⟩ := h
  simp only [dropContext, withRoutines]
  cases s.contexts.get? name <;> exact ⟨rfl, routines, hsize, rfl⟩

theorem tokenOf_mates (h : s.Alike s') (name : Option String) (f : Function) :
    Mates (s.tokenOf name f) (s'.tokenOf name f) := by
  obtain ⟨routines, hsize, rfl⟩ := h
  simp only [tokenOf]
  cases f.context? <;> exact ⟨rfl, routines, hsize, rfl⟩

theorem functionOf_mates (h : s.Alike s') (name : Option String) (v : Value) :
    Mates (s.functionOf name v) (s'.functionOf name v) := by
  obtain ⟨routines, hsize, rfl⟩ := h
  simp only [functionOf]
  cases v.function? <;> exact ⟨rfl, routines, hsize, rfl⟩

theorem build_mates (h : s.Alike s') (name : Option String) (p : Parts) :
    Mates (s.build name p) (s'.build name p) := by
  obtain ⟨routines, hsize, rfl⟩ := h
  simp only [build, World.build]
  cases p.origin with
  | error e => exact ⟨rfl, routines, hsize, rfl⟩
  | ok o => cases o <;> exact ⟨rfl, routines, hsize, rfl⟩

theorem Alike.agree_eval (h : s.Alike s') (e : Expr) : Agree Eq Eq (s.eval e) (s'.eval e) := by
  obtain ⟨routines, -, rfl⟩ := h
  exact .of_eq (s.eval_withRoutines routines e)

theorem Alike.agree_evalItems (h : s.Alike s') (es : List Expr) :
    Agree Eq Eq (s.evalItems es) (s'.evalItems es) := by
  obtain ⟨routines, -, rfl⟩ := h
  exact .of_eq (s.evalItems_withRoutines routines es)

theorem agree_same (h : s.Alike s') {a : Action} (ha : ∀ f args name, a ≠ .call f args name) :
    Agree Eq Mates (s.act a) (s'.act a) := by
  cases a with
  | call f args name => exact absurd rfl (ha f args name)
  | newCallback e name => exact agree_newCallback h (fun _ => Iff.rfl) name
  | host signature r name => exact agree_host h (.refl s r) signature name
  | register signature r name => exact agree_register h (.refl s r) signature name
  | parts e name =>
    have hr : Option.Rel s.SwapsRef e.callback e.callback := by
      cases e.callback with
      | none => exact .none
      | some r => exact .some (.refl s r)
    exact agree_parts h e hr name
  | mint name => exact .ok (mint_mates h name)
  | dropContext name => exact .ok (dropContext_mates h name)
  | tokenOf function name =>
    have hfetch : s'.function function = s.function function := by
      obtain ⟨routines, -, rfl⟩ := h
      rfl
    exact (Agree.of_eq hfetch).map fun f _ hf => hf ▸ tokenOf_mates h name f
  | functionOf e name => exact (h.agree_eval e).map fun v _ hv => hv ▸ functionOf_mates h name v
  | build parts name =>
    have hfetch : s'.partsNamed parts = s.partsNamed parts := by
      obtain ⟨routines, -, rfl⟩ := h
      rfl
    exact (Agree.of_eq hfetch).map fun p _ hp => hp ▸ build_mates h name p
  | dropToken | dropFunction | dropValue =>
    obtain ⟨routines, hsize, rfl⟩ := h
    exact .ok ⟨rfl, routines, hsize, rfl⟩
  | collect es name =>
    refine (h.agree_evalItems es).map fun vs _ hvs => ?_
    obtain rfl := hvs
    obtain ⟨routines, hsize, rfl⟩ := h
    exact ⟨rfl, routines, hsize, rfl⟩
  | value e | setInsert _ e | setContains _ e | setRemove _ e | mapInsert _ e | mapGet _ e
      | mapRemove _ e =>
    refine (h.agree_eval e).map fun v _ hv => ?_
    obtain rfl := hv
    obtain ⟨routines, hsize, rfl⟩ := h
    exact ⟨rfl, routines, hsize, rfl⟩
  -- what is left takes one thing from a store and keeps another
  | _ =>
    obtain ⟨routines, hsize, rfl⟩ := h
    exact (Agree.of_eq rfl).map fun x _ hx => hx ▸ ⟨rfl, routines, hsize, rfl⟩

theorem act_mates (h : s.Alike s') {a a' : Action} (ha : s.Swaps a a') :
    Agree Eq Mates (s.act a) (s'.act a') := by
  cases ha with
  | newCallback name he => exact agree_newCallback h he name
  | host signature name hr => exact agree_host h hr signature name
  | register signature name hr => exact agree_register h hr signature name
  | parts e name hr => exact agree_parts h e hr name
  | same ha => exact agree_same h ha

theorem step_mates (h : s.Alike s') {a a' : Action} (ha : s.Swaps a a') :
    (s'.step (.act a')).1 = (s.step (.act a)).1 ∧
      (s.step (.act a)).2.Alike (s'.step (.act a')).2 := by
  have hmates := act_mates h ha
  have hhistory : s'.world.history = s.world.history := by
    obtain ⟨routines, -, rfl⟩ := h
    rfl
  simp only [step, hhistory]
  generalize s.act a = x, s'.act a' = y at hmates ⊢
  cases hmates with
  | error hfault => exact ⟨by rw [hfault], h⟩
  | @ok p q hpq =>
    obtain ⟨answer, t⟩ := p
    obtain ⟨answer', t'⟩ := q
    obtain ⟨hanswer : answer' = answer, routines, hsize, ht : t' = t.withRoutines routines⟩ := hpq
    subst hanswer ht
    exact ⟨rfl, routines, hsize, rfl⟩

theorem run_alike (h : s.Alike s') {cs cs' : List Command} (hcs : SwapsRun s cs cs') :
    (s'.run cs').1 = (s.run cs).1 ∧ (s.after cs).Alike (s'.after cs') := by
  induction hcs generalizing s' with
  | nil => exact ⟨rfl, h⟩
  | @ask s cs cs' q hcs ih =>
    obtain ⟨hlater, hafter⟩ := ih h
    have hanswer : s'.ask q = s.ask q := by
      obtain ⟨routines, -, rfl⟩ := h
      exact s.ask_withRoutines routines q
    refine ⟨?_, hafter⟩
    simp only [run, step, hanswer, hlater]
  | @act s a a' cs cs' ha hcs ih =>
    obtain ⟨hresponse, hs⟩ := step_mates h ha
    obtain ⟨hlater, hafter⟩ := ih hs
    refine ⟨?_, hafter⟩
    simp only [run, hresponse, hlater]

/-- Runs without calls that differ in what their callbacks do get the same responses, and what they
have stored is the same. -/
theorem responses_blind_to_callbacks (n : UInt64) {cs cs' : List Command}
    (h : SwapsRun (start n) cs cs') :
    ((start n).run cs').1 = ((start n).run cs).1 ∧
      ((start n).after cs).Alike ((start n).after cs') :=
  run_alike ⟨_, rfl, rfl⟩ h

/-- One callback shared by two functions, one of its own for each of two more, and a set of functions. -/
def sharing (shared own : CallbackExpr) : List Command :=
  [.act (.newCallback shared (some "c")), .act (.register "f($x)" (.stored "c") (some "f")),
    .act (.register "f($x)" (.stored "c") (some "g")), .act (.host "f($x)" (.fresh own) (some "h")),
    .act (.parts ⟨none, none, none, some "k()", some (.fresh own), []⟩ (some "p")),
    .act (.build "p" (some "k")), .ask (.compareFunctions "f" "g"), .ask (.compareFunctions "f" "h"),
    .act (.collect [.list [.function "f"], .function "k"] (some "keys")), .ask (.listSet "keys")]

/-- They are all answered alike, and yet a call tells the callbacks apart. -/
theorem sharing_blind_to_callbacks :
    let quiet := sharing (.plain .null) (.plain .counter)
    let loud := sharing (.plain (.fail "no")) .forward
    let f : Function := .host ⟨⟨0⟩, "f($x)", ⟨⟨0⟩, ⟨0⟩⟩⟩
    ((start 1).run loud).1 = ((start 1).run quiet).1 ∧
      ((start 1).after quiet).Alike ((start 1).after loud) ∧
      (((start 1).after quiet).world.call f []).1 = .ok .null ∧
      (((start 1).after loud).world.call f []).1 = .error (.callback "no") := by
  intro quiet loud f
  have hswaps : SwapsRun (start 1) quiet loud := by
    refine .act (.newCallback _ fun _ => ⟨nofun, nofun⟩) ?_
    refine .act (.register _ _ (.stored "c")) (.act (.register _ _ (.stored "c")) ?_)
    refine .act (.host _ _ (.fresh fun _ => ⟨nofun, nofun⟩)) ?_
    refine .act (.parts ⟨none, none, none, some "k()", none, []⟩ _ (.some (.fresh ?_))) ?_
    · exact fun _ => ⟨nofun, nofun⟩
    exact .act (.same nofun) (.ask _ (.ask _ (.act (.same nofun) (.ask _ (.nil _)))))
  obtain ⟨hresponses, halike⟩ := responses_blind_to_callbacks 1 hswaps
  refine ⟨hresponses, halike, ?_, ?_⟩
  · rw [World.call, World.perform]
    rfl
  · rw [World.call, World.perform]
    rfl

end Session
end ScriptValues
