import ScriptValues.Proofs.Agreement
import ScriptValues.Proofs.Masking

/-! Sessions with other serials. Every command does the same in a session and in the one with the
serials counted from elsewhere: the answers are alike behind the mask, and so are the sessions after. -/

namespace ScriptValues

namespace Store

variable {α β : Type} (f : α → β)

def map (s : Store α) : Store β where
  entries := s.entries.map fun e => (e.1, f e.2)
  nodup := by
    rw [List.map_map]
    exact s.nodup

theorem get?_map (s : Store α) (name : String) : (s.map f).get? name = (s.get? name).map f := by
  change (s.entries.map fun e => (e.1, f e.2)).lookup name = _
  rw [get?]
  induction s.entries with
  | nil => rfl
  | cons e es ih =>
    obtain ⟨key, a⟩ := e
    simp only [List.map_cons, List.lookup_cons, ih]
    cases name == key <;> rfl

theorem contains_map (s : Store α) (name : String) : (s.map f).contains name = s.contains name := by
  rw [contains, contains, map, List.any_map]
  rfl

theorem erase_map (s : Store α) (name : String) : (s.map f).erase name = (s.erase name).map f := by
  simp only [erase, map, List.filter_map]
  rfl

theorem insert_map (s : Store α) (name : String) (a : α) :
    (s.map f).insert name (f a) = (s.insert name a).map f := by
  simp only [insert, erase_map]
  rfl

theorem keep_map (s : Store α) (name : Option String) (a : α) :
    (s.map f).keep name (f a) = (s.keep name a).map f := by
  cases name with
  | none => rfl
  | some name => exact s.insert_map f name a

end Store

namespace Session

/-- The session as it would be had the first context been given this serial. -/
def renumber (first : UInt64) (s : Session) : Session where
  world := s.world.renumber first
  contexts := s.contexts.map (Context.renumber first)
  tokens := s.tokens.map (Token.renumber first)
  callbacks := s.callbacks
  functions := s.functions.map (Function.renumber first)
  values := s.values.map (Value.renumber first)
  parts := s.parts.map (Parts.renumber first)
  sets := s.sets.map (Table.renumber first)
  maps := s.maps.map (Table.renumber first)

theorem start_renumber (m n : UInt64) : (start n).renumber m = start m := by
  simp only [renumber, World.renumber, start, ContextId.serialFrom_zero, Array.map_empty]
  rfl

/-- Both fail alike, or both give the same thing with serials of its own. -/
abbrev Renumbered {α β : Type} (first : UInt64) (f : α → β) : Except Fault α → Except Fault β → Prop :=
  Agree (fun e e' => e' = e.renumber first) fun a b => b = f a

section Reading

variable (first : UInt64) (s : Session)

theorem fetch_renumber {α β : Type} (f : α → β) (store : Store α) (kind : StoreKind) (name : String) :
    Renumbered first f (store.fetch kind name) ((store.map f).fetch kind name) := by
  rw [Store.fetch, Store.fetch, Store.get?_map]
  cases store.get? name with
  | none => exact .error rfl
  | some a => exact .ok rfl

theorem elements_renumber (v : Value) : Renumbered first (List.map (Value.renumber first))
    (elements v) (elements (v.renumber first)) := by
  cases v with
  | list vs =>
    rw [Value.renumber_list]
    exact .ok rfl
  | _ => exact .error rfl

mutual
theorem eval_renumber : ∀ e : Expr,
    Renumbered first (Value.renumber first) (s.eval e) ((s.renumber first).eval e)
  | .null | .boolean _ | .string _ | .text .. => .ok rfl
  | .function name => (fetch_renumber first _ s.functions _ name).map fun _ _ h => congrArg _ h
  | .value name => fetch_renumber first _ s.values _ name
  | .compiler id name =>
    (fetch_renumber first _ s.contexts _ name).map fun _ _ h => h ▸ rfl
  | .list es => by
    rw [eval, eval]
    exact (evalItems_renumber es).map fun vs _ h => h ▸ (Value.renumber_list first vs).symm
  | .copies n e => by
    rw [eval, eval]
    refine (eval_renumber e).map fun v _ h => ?_
    rw [h, Value.renumber_list, List.map_replicate]
  | .nest n e => by
    rw [eval, eval]
    exact (eval_renumber e).map fun v _ h => h ▸ (v.nest_renumber first n).symm
  | .concat es => by
    rw [eval, eval]
    exact (evalConcat_renumber es).map fun vs _ h => h ▸ (Value.renumber_list first vs).symm

theorem evalItems_renumber : ∀ es : List Expr, Renumbered first (List.map (Value.renumber first))
    (s.evalItems es) ((s.renumber first).evalItems es)
  | [] => .ok rfl
  | e :: es => by
    rw [evalItems, evalItems]
    refine (eval_renumber e).bind fun v _ hv => ?_
    refine (evalItems_renumber es).map fun vs _ hvs => ?_
    rw [hv, hvs, List.map_cons]

theorem evalConcat_renumber : ∀ es : List Expr, Renumbered first (List.map (Value.renumber first))
    (s.evalConcat es) ((s.renumber first).evalConcat es)
  | [] => .ok rfl
  | e :: es => by
    rw [evalConcat, evalConcat]
    refine (eval_renumber e).bind fun v _ hv => ?_
    subst hv
    refine (elements_renumber first v).bind fun vs _ hvs => ?_
    refine (evalConcat_renumber es).map fun ws _ hws => ?_
    rw [hvs, hws, List.map_append]
end

theorem tokens_renumber (names : List String) : Renumbered first (List.map (Token.renumber first))
    (names.mapM s.token) (names.mapM (s.renumber first).token) := by
  induction names with
  | nil => exact .ok rfl
  | cons name names ih =>
    rw [List.mapM_cons, List.mapM_cons]
    refine (fetch_renumber first _ s.tokens _ name).bind fun t _ ht => ?_
    refine ih.map fun ts _ hts => ?_
    rw [ht, hts, List.map_cons]

theorem behaviour_renumber (e : CallbackExpr) : Renumbered first (Behaviour.renumber first)
    (s.behaviour e) ((s.renumber first).behaviour e) := by
  cases e with
  | constant e => exact (eval_renumber first s e).map fun _ _ h => congrArg _ h
  | _ => exact .ok rfl

theorem setOrNew_renumber (name : String) :
    (s.renumber first).setOrNew name = (s.setOrNew name).renumber first := by
  rw [setOrNew, setOrNew, renumber, Store.get?_map]
  cases s.sets.get? name with
  | none => exact (Table.empty_renumber first).symm
  | some t => rfl

theorem mapOrNew_renumber (name : String) :
    (s.renumber first).mapOrNew name = (s.mapOrNew name).renumber first := by
  rw [mapOrNew, mapOrNew, renumber, Store.get?_map]
  cases s.maps.get? name with
  | none => exact (Table.empty_renumber first).symm
  | some t => rfl

theorem equalityMatrix_renumber (vs : List Value) :
    equalityMatrix (vs.map (Value.renumber first)) = equalityMatrix vs := by
  simp only [equalityMatrix, List.map_map, Function.comp_def, Value.renumber_beq_renumber]

theorem setOperations_renumber (a b : ValueSet) :
    setOperations (a.renumber first) (b.renumber first) = setOperations a b := by
  simp only [setOperations, Table.union_renumber, Table.inter_renumber, Table.diff_renumber,
    Table.listing_renumber, Table.sameKeys_renumber, Table.subset_renumber]

end Reading

/-- Both fail alike, or both answer the same behind the mask. -/
abbrev Masked (first : UInt64) : Except Fault Answer → Except Fault Answer → Prop :=
  Agree (fun e e' => e' = e.renumber first) fun a a' => a'.mask = a.mask

theorem ask_renumber (first : UInt64) (s : Session) (q : Query) :
    Masked first (s.ask q) ((s.renumber first).ask q) := by
  cases q with
  | hashBytes | hashText | hashWord | combine | failure | compareFailures => exact .ok rfl
  | context name => exact (fetch_renumber first _ s.contexts _ name).map fun _ _ _ => rfl
  | token name => exact (fetch_renumber first _ s.tokens _ name).map fun _ _ h => h ▸ rfl
  | compareTokens a b =>
    refine (fetch_renumber first _ s.tokens _ a).bind fun t _ ht => ?_
    refine (fetch_renumber first _ s.tokens _ b).map fun u _ hu => ?_
    simp only [ht, hu, bne, Token.renumber_beq_renumber, Token.feed_renumber]
  | insertTokens names =>
    refine (tokens_renumber first s names).map fun ts _ hts => ?_
    have hfirsts := Token.firsts_renumber first [] ts
    rw [List.map_nil] at hfirsts
    rw [hts, hfirsts]
  | belongs token context =>
    refine (fetch_renumber first _ s.tokens _ token).bind fun t _ ht => ?_
    refine (fetch_renumber first _ s.contexts _ context).map fun c _ hc => ?_
    rw [ht, hc, Token.belongsTo_renumber]
  | function name =>
    refine (fetch_renumber first _ s.functions _ name).map fun f _ hf => ?_
    subst hf
    exact congrArg (fun r => Answer.function (some r)) (s.world.mask_reportFunction_renumber first f)
  | functionTexts name => exact (fetch_renumber first _ s.functions _ name).map fun _ _ _ => rfl
  | compareFunctions a b =>
    refine (fetch_renumber first _ s.functions _ a).bind fun f _ hf => ?_
    refine (fetch_renumber first _ s.functions _ b).map fun g _ hg => ?_
    subst hf hg
    exact congrArg Answer.functionsCompared (f.mask_compare_renumber first g)
  | hashValue e =>
    refine (eval_renumber first s e).map fun v _ hv => ?_
    rw [hv, Value.typeName_renumber, Value.hashCode_renumber, Value.display_renumber]
  | valueTexts e => exact (eval_renumber first s e).map fun _ _ _ => rfl
  | feed e =>
    refine (eval_renumber first s e).map fun v _ hv => ?_
    rw [hv, Value.feed_renumber, Value.function?_renumber, Option.map_map]
    simp only [Function.comp_def, Function.feed_renumber]
  | compareValues a b =>
    refine (eval_renumber first s a).bind fun v _ hv => ?_
    refine (eval_renumber first s b).map fun w _ hw => ?_
    simp only [hv, hw, bne, Value.renumber_beq_renumber, Value.hashCode_renumber]
  | matrix items =>
    refine (evalItems_renumber first s items).map fun vs _ hvs => ?_
    simp only [hvs, equalityMatrix_renumber, List.map_map, Function.comp_def, Value.hashCode_renumber]
  | listSet name =>
    refine (fetch_renumber first _ s.sets _ name).map fun t _ ht => ?_
    rw [ht, Table.size_renumber, Table.listing_renumber]
  | setOperations a b =>
    refine (fetch_renumber first _ s.sets _ a).bind fun t _ ht => ?_
    refine (fetch_renumber first _ s.sets _ b).map fun u _ hu => ?_
    rw [ht, hu, setOperations_renumber]
  | listMap name =>
    refine (fetch_renumber first _ s.maps _ name).map fun t _ ht => ?_
    rw [ht, Table.size_renumber, Table.listingWith_renumber]

/-- The same answer behind the mask, and the same session with other serials. -/
def Twins (first : UInt64) (p p' : Answer × Session) : Prop :=
  p'.1.mask = p.1.mask ∧ p'.2 = p.2.renumber first

section Acting

variable (first : UInt64) (s : Session)

theorem keepContext_renumber (name : Option String) (c : Context) :
    (s.renumber first).keepContext name (c.renumber first) = (s.keepContext name c).renumber first := by
  cases name with
  | none => simp only [keepContext, renumber, World.drop_renumber]
  | some name =>
    simp only [keepContext, renumber, Store.insert_map, Store.get?_map]
    cases s.contexts.get? name with
    | none => rfl
    | some old => simp only [Option.map_some, Option.elim_some, World.drop_renumber]

theorem mint_twins (name : Option String) :
    Twins first (s.mint name) ((s.renumber first).mint name) := by
  have hmint : (s.renumber first).world.mint = _ := s.world.mint_renumber first
  rw [mint, mint, hmint]
  exact ⟨rfl, keepContext_renumber first { s with world := s.world.mint.2 } name s.world.mint.1⟩

theorem dropContext_twins (name : String) :
    Twins first (s.dropContext name) ((s.renumber first).dropContext name) := by
  simp only [dropContext, renumber, Store.get?_map]
  cases s.contexts.get? name with
  | none => exact ⟨rfl, rfl⟩
  | some c =>
    simp only [Option.map_some, World.drop_renumber, Store.erase_map]
    exact ⟨rfl, rfl⟩

theorem keepToken_twins (name : Option String) (t : Token) :
    Twins first (s.keepToken name t) ((s.renumber first).keepToken name (t.renumber first)) := by
  refine ⟨rfl, ?_⟩
  simp only [keepToken, renumber, Store.keep_map]

theorem keepFunction_twins (name : Option String) (f : Function) :
    Twins first (s.keepFunction name f)
      ((s.renumber first).keepFunction name (f.renumber first)) := by
  refine ⟨?_, ?_⟩
  · exact congrArg (fun r => Answer.function (some r)) (s.world.mask_reportFunction_renumber first f)
  · simp only [keepFunction, renumber, Store.keep_map]

theorem keepSet_twins (name : String) (t : ValueSet) (result : Bool) :
    Twins first (s.keepSet name t result)
      ((s.renumber first).keepSet name (t.renumber first) result) := by
  refine ⟨?_, ?_⟩
  · simp only [keepSet, Table.size_renumber]
  · simp only [keepSet, renumber, Store.insert_map]

theorem tokenOf_twins (name : Option String) (f : Function) :
    Twins first (s.tokenOf name f) ((s.renumber first).tokenOf name (f.renumber first)) := by
  rw [tokenOf, tokenOf, Function.context?_renumber]
  cases f.context? with
  | none => exact ⟨rfl, rfl⟩
  | some t => exact keepToken_twins first s name t

theorem functionOf_twins (name : Option String) (v : Value) :
    Twins first (s.functionOf name v) ((s.renumber first).functionOf name (v.renumber first)) := by
  rw [functionOf, functionOf, Value.function?_renumber]
  cases v.function? with
  | none => exact ⟨rfl, rfl⟩
  | some f => exact keepFunction_twins first s name f

theorem build_twins (name : Option String) (p : Parts) :
    Twins first (s.build name p) ((s.renumber first).build name (p.renumber first)) := by
  have hbuild : (s.renumber first).world.build (p.renumber first) = _ := s.world.build_renumber first p
  rw [build, build, hbuild]
  generalize s.world.build p = built
  obtain ⟨e | f, w⟩ := built
  · exact ⟨rfl, rfl⟩
  · exact keepFunction_twins first { s with world := w } name f

theorem call_twins (hw : s.world.Blind) (name : Option String) (f : Function) (args : List Value) :
    Twins first (s.call name f args)
      ((s.renumber first).call name (f.renumber first) (args.map (Value.renumber first))) := by
  have hcall : (s.renumber first).world.call (f.renumber first) (args.map (Value.renumber first)) = _ :=
    World.call_renumber first hw f args
  rw [call, call, hcall]
  generalize s.world.call f args = result
  obtain ⟨e | v, w⟩ := result
  · exact ⟨rfl, rfl⟩
  · refine ⟨congrArg Answer.returned (v.report_renumber first), ?_⟩
    simp only [Except.map, renumber, Store.keep_map]

/-- The same callback object, in the same world with other serials. -/
theorem callback_renumber (r : CallbackRef) :
    Renumbered first (fun q : Callback × World => (q.1, q.2.renumber first)) (s.callback r)
      ((s.renumber first).callback r) := by
  cases r with
  | stored name =>
    simp only [callback, renumber, Store.fetch]
    cases s.callbacks.get? name with
    | none => exact .error rfl
    | some c => exact .ok rfl
  | fresh e =>
    refine (behaviour_renumber first s e).map fun b _ hb => ?_
    rw [hb]
    exact s.world.newCallback_renumber first b

theorem clear_renumber (fields : List PartsField) (p : Parts) :
    fields.foldl Parts.clear (p.renumber first) = (fields.foldl Parts.clear p).renumber first := by
  induction fields generalizing p with
  | nil => rfl
  | cons field fields ih =>
    rw [List.foldl_cons, List.foldl_cons, ← ih]
    cases field <;> rfl

theorem orElse_renumber {α β : Type} {f : β → β} {get get' : α → Except Fault β}
    (h : ∀ a, Renumbered first f (get a) (get' a)) (x : Option α) (y : Option β) :
    Renumbered first (Option.map f) (orElse x get y) (orElse x get' (y.map f)) := by
  cases x with
  | none => exact .ok rfl
  | some a => exact (h a).map fun b _ hb => congrArg some hb

theorem edit_renumber (e : PartsEdit) :
    Renumbered first (fun q : Parts × World => (q.1.renumber first, q.2.renumber first)) (s.edit e)
      ((s.renumber first).edit e) := by
  have hsource : Renumbered first (Parts.renumber first) (e.source.elim (.ok {}) s.partsNamed)
      (e.source.elim (.ok {}) (s.renumber first).partsNamed) := by
    cases e.source with
    | none => exact .ok rfl
    | some name => exact fetch_renumber first _ s.parts _ name
  refine hsource.bind fun p _ hp => ?_
  subst hp
  have htoken (name : String) : Renumbered first (Token.renumber first) (s.token name)
      ((s.renumber first).token name) := fetch_renumber first _ s.tokens _ name
  refine (orElse_renumber first htoken e.token p.context).bind fun context _ hcontext => ?_
  subst hcontext
  refine (orElse_renumber first (callback_renumber first s) e.callback none).map fun made _ hmade => ?_
  subst hmade
  dsimp only
  rw [← clear_renumber]
  cases made <;> rfl

theorem register_twins (w : World) (signature : String) (c : Callback) (name : Option String) :
    Twins first
      ({ s with world := (w.register signature c).2 }.keepFunction name (w.register signature c).1)
      ({ s.renumber first with world := ((w.renumber first).register signature c).2 }.keepFunction
        name ((w.renumber first).register signature c).1) := by
  rw [World.register_renumber]
  exact keepFunction_twins first { s with world := (w.register signature c).2 } name _

theorem act_twins (hw : s.world.Blind) (a : Action) :
    Agree (fun e e' => e' = Fault.renumber first e) (Twins first) (s.act a)
      ((s.renumber first).act a) := by
  cases a with
  | mint name => exact .ok (mint_twins first s name)
  | dropContext name => exact .ok (dropContext_twins first s name)
  | takeToken context name =>
    exact (fetch_renumber first _ s.contexts _ context).map fun c _ hc =>
      hc ▸ keepToken_twins first s name c.token
  | copyToken token name =>
    exact (fetch_renumber first _ s.tokens _ token).map fun t _ ht =>
      ht ▸ keepToken_twins first s name t
  | tokenOf function name =>
    exact (fetch_renumber first _ s.functions _ function).map fun f _ hf =>
      hf ▸ tokenOf_twins first s name f
  | dropToken name | dropFunction name | dropValue name =>
    refine .ok ⟨?_, ?_⟩
    · simp only [renumber, Store.contains_map]
    · simp only [renumber, Store.erase_map]
  | compiler id token name =>
    exact (fetch_renumber first _ s.tokens _ token).map fun t _ ht =>
      ht ▸ keepFunction_twins first s name (.compiler id t)
  | contextFunction context id name =>
    exact (fetch_renumber first _ s.contexts _ context).map fun c _ hc =>
      hc ▸ keepFunction_twins first s name (.compiler id c.token)
  | newCallback e name =>
    rw [act_newCallback, act_newCallback]
    refine (callback_renumber first s (.fresh e)).map fun q _ hq => ?_
    subst hq
    exact ⟨rfl, rfl⟩
  | host signature r name =>
    refine (callback_renumber first s r).map fun q _ hq => ?_
    subst hq
    exact register_twins first s (q.2.wrap q.1.routine).2 signature (q.2.wrap q.1.routine).1 name
  | register signature r name =>
    refine (callback_renumber first s r).map fun q _ hq => ?_
    subst hq
    exact register_twins first s q.2 signature q.1 name
  | copyFunction function name =>
    exact (fetch_renumber first _ s.functions _ function).map fun f _ hf =>
      hf ▸ keepFunction_twins first s name f
  | call function args name =>
    refine (fetch_renumber first _ s.functions _ function).bind fun f _ hf => ?_
    refine (evalItems_renumber first s args).map fun vs _ hvs => ?_
    subst hf hvs
    exact call_twins first s hw name f vs
  | parts e name =>
    refine (edit_renumber first s e).map fun q _ hq => ?_
    subst hq
    refine ⟨congrArg Answer.parts (q.1.report_renumber first), ?_⟩
    simp only [renumber, Store.keep_map]
  | build parts name =>
    exact (fetch_renumber first _ s.parts _ parts).map fun p _ hp =>
      hp ▸ build_twins first s name p
  | value e name =>
    refine (eval_renumber first s e).map fun v _ hv => ?_
    subst hv
    refine ⟨congrArg Answer.value (v.report_renumber first), ?_⟩
    simp only [renumber, Store.keep_map]
  | functionOf e name =>
    exact (eval_renumber first s e).map fun v _ hv => hv ▸ functionOf_twins first s name v
  | collect values name =>
    refine (evalItems_renumber first s values).map fun vs _ hvs => ?_
    subst hvs
    refine ⟨?_, ?_⟩
    · simp only [Table.ofList_renumber, Table.size_renumber, Table.listing_renumber]
    · simp only [renumber, Table.ofList_renumber, Store.keep_map]
  | setInsert name e | setContains name e | setRemove name e =>
    refine (eval_renumber first s e).map fun v _ hv => ?_
    simp only [hv, setOrNew_renumber, Table.insert_renumber, Table.erase_renumber,
      Table.contains_renumber]
    exact keepSet_twins first s name _ _
  | mapInsert name key | mapGet name key | mapRemove name key =>
    refine (eval_renumber first s key).map fun v _ hv => ?_
    simp only [hv, mapOrNew_renumber, Table.insert_renumber, Table.erase_renumber,
      Table.find?_renumber, Table.size_renumber]
    refine ⟨rfl, ?_⟩
    simp only [renumber, Store.insert_map]

end Acting

end Session
end ScriptValues
