import ScriptValues.Proofs.Lifecycle
import ScriptValues.Proofs.Recounting

/-! Serials are shown and never used. Two runs that differ in the serial of the first context are the
same behind the mask, and what they store are the same things with other serials. -/

namespace ScriptValues

/-- The callback made from the expression does not read serials. -/
def CallbackExpr.Blind : CallbackExpr → Prop
  | plain c => c.Blind
  | _ => True

def CallbackRef.Blind : CallbackRef → Prop
  | stored _ => True
  | fresh e => e.Blind

/-- No callback that the command makes reads serials. -/
def Command.Blind : Command → Prop
  | act (.newCallback e _) => e.Blind
  | act (.host _ r _) => r.Blind
  | act (.register _ r _) => r.Blind
  | act (.parts e _) => ∀ r ∈ e.callback, r.Blind
  | _ => True

namespace Session

section Keeping

variable {s : Session} (h : s.world.Blind)
include h

theorem blind_callback {r : CallbackRef} {q : Callback × World} (hr : r.Blind)
    (hq : s.callback r = .ok q) : q.2.Blind := by
  cases r with
  | stored name =>
    obtain ⟨c, -, rfl⟩ := bind_pure_eq_ok.1 hq
    exact h
  | fresh e =>
    obtain ⟨b, hb, rfl⟩ := bind_pure_eq_ok.1 hq
    refine h.newCallback ?_
    cases e with
    | plain c =>
      obtain rfl := Except.ok.inj hb
      exact hr
    | constant e =>
      obtain ⟨v, -, rfl⟩ := bind_pure_eq_ok.1 hb
      trivial
    | forward | forwardEach =>
      obtain rfl := Except.ok.inj hb
      trivial

theorem blind_edit {e : PartsEdit} {q : Parts × World} (he : ∀ r ∈ e.callback, r.Blind)
    (hq : s.edit e = .ok q) : q.2.Blind := by
  obtain ⟨p, -, hq⟩ := bind_eq_ok.1 hq
  obtain ⟨context, -, hq⟩ := bind_eq_ok.1 hq
  obtain ⟨made, hmade, rfl⟩ := bind_pure_eq_ok.1 hq
  cases hcallback : e.callback with
  | none =>
    rw [hcallback] at hmade
    cases hmade
    exact h
  | some r =>
    rw [hcallback] at hmade
    obtain ⟨q, hr, rfl⟩ := bind_pure_eq_ok.1 hmade
    exact blind_callback h (he r hcallback) hr

theorem blind_act {a : Action} {p : Answer × Session} (ha : (Command.act a).Blind)
    (hp : s.act a = .ok p) : p.2.world.Blind := by
  cases a with
  | mint name =>
    obtain rfl := Except.ok.inj hp
    cases name with
    | none => exact h
    | some name =>
      simp only [mint, keepContext]
      cases s.contexts.get? name <;> exact h
  | dropContext name =>
    obtain rfl := Except.ok.inj hp
    unfold dropContext
    split <;> exact h
  | newCallback e name =>
    rw [act_newCallback] at hp
    obtain ⟨q, hq, rfl⟩ := bind_pure_eq_ok.1 hp
    exact blind_callback h (r := .fresh e) ha hq
  | host signature r name | register signature r name =>
    obtain ⟨q, hq, rfl⟩ := bind_pure_eq_ok.1 hp
    exact blind_callback h ha hq
  | parts e name =>
    obtain ⟨q, hq, rfl⟩ := bind_pure_eq_ok.1 hp
    exact blind_edit h ha hq
  | build parts name =>
    obtain ⟨q, -, rfl⟩ := bind_pure_eq_ok.1 hp
    unfold build World.build
    cases q.origin with
    | error e => exact h
    | ok o => cases o <;> exact h
  | call function args name =>
    obtain ⟨f, -, hp⟩ := bind_eq_ok.1 hp
    obtain ⟨vs, -, rfl⟩ := bind_pure_eq_ok.1 hp
    rw [call_world]
    exact h.quiet (World.quiet_call s.world f vs)
  | tokenOf function name =>
    obtain ⟨f, -, rfl⟩ := bind_pure_eq_ok.1 hp
    unfold tokenOf
    split <;> exact h
  | functionOf e name =>
    obtain ⟨v, -, rfl⟩ := bind_pure_eq_ok.1 hp
    unfold functionOf
    split <;> exact h
  | dropToken | dropFunction | dropValue =>
    obtain rfl := Except.ok.inj hp
    exact h
  -- what is left changes no routine
  | _ =>
    obtain ⟨x, -, rfl⟩ := bind_pure_eq_ok.1 hp
    exact h

end Keeping

theorem blind_step {s : Session} (h : s.world.Blind) {c : Command} (hc : c.Blind) :
    (s.step c).2.world.Blind := by
  cases c with
  | ask q => exact h
  | act a =>
    simp only [step]
    split
    · exact h
    · next hact => exact blind_act h hc hact

theorem mask_eq_of_agree (first : UInt64) {x y : Except Fault Answer} {log log' : List LogEntry}
    (h : Masked first x y) (hlog : log'.map LogEntry.mask = log.map LogEntry.mask) :
    (Response.mk y log').mask = (Response.mk x log).mask := by
  simp only [Response.mask, hlog, Response.mk.injEq, and_true]
  cases h with
  | error hfault =>
    subst hfault
    exact congrArg Except.error (Fault.renumber_renumber first 0 _)
  | ok hanswer => exact congrArg Except.ok hanswer

theorem mask_logSince_renumber (first : UInt64) (s : Session) (k : Nat) :
    ((s.renumber first).logSince k).map LogEntry.mask = (s.logSince k).map LogEntry.mask := by
  simp only [logSince, renumber, World.renumber, ← List.map_drop, List.map_map]
  exact List.map_congr_left fun e _ => e.mask_entry_renumber first

theorem step_twins (first : UInt64) (s : Session) (hw : s.world.Blind) (c : Command) :
    ((s.renumber first).step c).1.mask = (s.step c).1.mask ∧
      ((s.renumber first).step c).2 = (s.step c).2.renumber first := by
  cases c with
  | ask q => exact ⟨mask_eq_of_agree first (ask_renumber first s q) rfl, rfl⟩
  | act a =>
    have htwins := act_twins first s hw a
    -- so the logs of both are cut at the same place
    have hlength : (s.renumber first).world.history.length = s.world.history.length :=
      List.length_map _
    simp only [step, hlength]
    generalize s.act a = x, (s.renumber first).act a = y at htwins ⊢
    cases htwins with
    | error hfault => exact ⟨mask_eq_of_agree first (.error hfault) rfl, rfl⟩
    | @ok p q hpq =>
      obtain ⟨answer, t⟩ := p
      obtain ⟨answer', t'⟩ := q
      obtain ⟨hanswer, ht : t' = t.renumber first⟩ := hpq
      subst ht
      exact ⟨mask_eq_of_agree first (.ok hanswer) (mask_logSince_renumber first t _), rfl⟩

theorem run_twins (first : UInt64) {s : Session} (hw : s.world.Blind) {cs : List Command}
    (hcs : ∀ c ∈ cs, c.Blind) :
    ((s.renumber first).run cs).1.map Response.mask = (s.run cs).1.map Response.mask ∧
      (s.renumber first).after cs = (s.after cs).renumber first := by
  induction cs generalizing s with
  | nil => exact ⟨rfl, rfl⟩
  | cons c cs ih =>
    obtain ⟨hc, hcs⟩ := List.forall_mem_cons.1 hcs
    obtain ⟨hresponse, hs⟩ := step_twins first s hw c
    obtain ⟨hlater, hafter⟩ := ih (blind_step hw hc) hcs
    rw [← hs] at hlater hafter
    refine ⟨?_, hafter⟩
    simp only [run, List.map_cons, hresponse, hlater]

theorem serials_minted (n : UInt64) (cs : List Command) :
    (LogEntry.mintedSerials ((start n).log cs)).map UInt64.toNat =
      (List.range (cs.countP Command.isMint)).map fun k => (n.toNat + k) % 2 ^ 64 := by
  rw [log_start, mintedSerials_entries, (ledger_after n cs).minted, contextCount_after, List.map_map,
    List.map_map]
  refine List.map_congr_left fun k _ => ?_
  exact (UInt64.toNat_add n k.toUInt64).trans (Nat.add_mod_mod _ _ _)

/-- Serials are diagnostics. Whichever serial the count starts from, a run is answered the same behind
the mask and stores the same things with serials counted from there, as long as no callback reads
serials, and those that every host offers do not. The count wraps. -/
theorem serials_only_shown (m n : UInt64) (cs : List Command) (h : ∀ c ∈ cs, c.Blind) :
    ((start m).run cs).1.map Response.mask = ((start n).run cs).1.map Response.mask ∧
    (start m).after cs = ((start n).after cs).renumber m ∧
    (LogEntry.mintedSerials ((start m).log cs)).map UInt64.toNat =
      (List.range (cs.countP Command.isMint)).map (fun k => (m.toNat + k) % 2 ^ 64) ∧
    ∀ text, ∀ c ∈ Computation.standard text, c.Blind := by
  have hblind : (start n).world.Blind := by
    intro b hb
    simp [start] at hb
  obtain ⟨hresponses, hafter⟩ := run_twins m hblind h
  rw [start_renumber] at hresponses hafter
  exact ⟨hresponses, hafter, serials_minted m cs, Computation.blind_standard⟩

/-- Two contexts on both sides of the wrap, keys and arguments with functions of both, and a count. -/
def recounted : List Command :=
  [.act (.mint (some "a")), .act (.mint (some "b")), .act (.takeToken "b" (some "t")),
    .act (.host "f($x...)" (.fresh (.plain .showFail)) (some "f")),
    .act (.call "f" [.compiler 7 "a", .compiler 7 "b"] none), .act (.dropContext "b"),
    .act (.collect [.compiler 7 "a", .list [.compiler 7 "a"]] (some "keys")),
    .act (.setContains "keys" (.list [.compiler 7 "a"])), .ask (.token "t")]

theorem recounted_only_shown :
    ((start (-1)).run recounted).1.map Response.mask = ((start 5).run recounted).1.map Response.mask ∧
    (start (-1)).after recounted = ((start 5).after recounted).renumber (-1) ∧
    (LogEntry.mintedSerials ((start (-1)).log recounted)).map UInt64.toNat = [2 ^ 64 - 1, 0] := by
  have hblind : ∀ c ∈ recounted, c.Blind := by
    simp only [recounted, List.forall_mem_cons]
    exact ⟨trivial, trivial, trivial, Computation.blind_showFail, trivial, trivial, trivial, trivial,
      trivial, List.forall_mem_nil _⟩
  obtain ⟨hresponses, hafter, hserials, -⟩ := serials_only_shown (-1) 5 recounted hblind
  exact ⟨hresponses, hafter, hserials⟩

end Session
end ScriptValues
