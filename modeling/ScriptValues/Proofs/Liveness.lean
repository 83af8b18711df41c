import Mathlib.Data.List.Nodup
import ScriptValues.Proofs.Descent

/-! A token is live exactly as long as the context that it comes from has an owner. Whether it belongs
to a context can be asked in four ways, and all of them find the event that minted the context; and
nothing but minting and dropping contexts changes who is live. -/

namespace ScriptValues

/-- The contexts with an owner after the event. -/
def Event.track (live : List ContextId) : Event → List ContextId
  | minted c => c.id :: live
  | dropped c => live.erase c.id
  | registered _ => live

theorem Event.foldl_track_of_registered {es : List Event} {live : List ContextId}
    (h : ∀ e ∈ es, ∃ signature, e.entry = .registered signature) : es.foldl track live = live := by
  induction es with
  | nil => rfl
  | cons e es ih =>
    obtain ⟨⟨signature, he⟩, hes⟩ := List.forall_mem_cons.1 h
    cases e with
    | registered r => exact ih hes
    | _ => cases he

def Command.changesOwners : Command → Bool
  | .act (.mint _) => true
  | .act (.dropContext _) => true
  | _ => false

theorem Token.belongsTo_iff {t : Token} {c : Context} : t.belongsTo c ↔ t.context = c.id :=
  beq_iff_eq

theorem Token.belongsTo_iff_beq {t : Token} {c : Context} : t.belongsTo c ↔ t == c.token :=
  Token.belongsTo_iff.trans (Token.beq_iff (u := c.token)).symm

theorem Token.belongsTo_iff_feed {t : Token} {c : Context} :
    t.belongsTo c ↔ t.feed = c.token.feed :=
  Token.belongsTo_iff.trans List.singleton_inj.symm

namespace World

variable {n : UInt64} {owned : List Context} {w w' : World} {t : Token}

theorem isLive_iff : w.isLive t ↔ t.context ∈ w.live :=
  List.contains_iff_mem

/-- The events between the two worlds tell which contexts have an owner. -/
def Tracked (w w' : World) : Prop :=
  ∃ es, w'.history = w.history ++ es ∧ w'.live = es.foldl Event.track w.live

theorem Tracked.append {v : World} {e : Event} (h : w.Tracked v) (hhistory : w'.history = v.history ++ [e])
    (hlive : w'.live = e.track v.live) : w.Tracked w' := by
  obtain ⟨es, hes, hfold⟩ := h
  refine ⟨es ++ [e], ?_, ?_⟩
  · rw [hhistory, hes, List.append_assoc]
  · rw [hlive, hfold, List.foldl_append, List.foldl_cons, List.foldl_nil]

namespace Moves

theorem tracked (h : Moves w w') : w.Tracked w' := by
  induction h with
  | refl => exact ⟨[], (List.append_nil _).symm, rfl⟩
  | mint _ ih => exact ih.append rfl rfl
  | drop c _ ih => exact ih.append rfl rfl
  | wrap r _ ih => exact ih
  | newCallback b _ ih => exact ih
  | register s c _ ih => exact ih.append rfl rfl
  | @call v f args _ ih =>
    have hquiet := quiet_call v f args
    rw [Tracked, hquiet.history, hquiet.live]
    exact ih

theorem contextCount_le (h : Moves w w') : w.contextCount ≤ w'.contextCount := by
  induction h with
  | refl => exact Nat.le_refl _
  | mint _ ih => exact Nat.le_succ_of_le ih
  | drop c _ ih => exact ih
  | wrap r _ ih => exact ih
  | newCallback b _ ih => exact ih
  | register s c _ ih => exact ih
  | @call v f args _ ih =>
    rw [(quiet_call v f args).contextCount]
    exact ih

/-- A context that has an owner had one before, or is new. -/
theorem mem_live (h : Moves w w') {id : ContextId} (hid : id ∈ w'.live) :
    id ∈ w.live ∨ w.contextCount ≤ id.ordinal := by
  induction h with
  | refl => exact Or.inl hid
  | @mint v hv ih =>
    rcases List.mem_cons.1 hid with rfl | hid
    · exact Or.inr hv.contextCount_le
    · exact ih hid
  | drop c _ ih => exact ih (List.mem_of_mem_erase hid)
  | wrap r _ ih => exact ih hid
  | newCallback b _ ih => exact ih hid
  | register s c _ ih => exact ih hid
  | @call v f args _ ih =>
    rw [(quiet_call v f args).live] at hid
    exact ih hid

end Moves
namespace Ledger

theorem nodup_ids (h : w.Ledger n owned) : (owned.map (·.id)).Nodup := by
  have hminted : (w.minted.map (·.id)).Nodup := by
    rw [h.minted, List.map_map]
    exact List.nodup_range.map fun i j hij => congrArg ContextId.ordinal hij
  have hboth := (h.balance.map (·.id)).nodup_iff.1 hminted
  rw [List.map_append] at hboth
  exact hboth.of_append_left

theorem isLive_iff (h : w.Ledger n owned) : w.isLive t ↔ ∃ c ∈ owned, t.belongsTo c := by
  rw [World.isLive_iff, h.live.mem_iff, List.mem_map]
  refine exists_congr fun c => and_congr_right fun _ => ?_
  rw [Token.belongsTo_iff]
  exact eq_comm

end Ledger
end World

namespace Session

variable {n : UInt64} {cs : List Command} {t : Token} {c : Context} {name : String}

/-- An owned context goes back to the event that minted it. -/
theorem lineage_of_owned (h : ((start n).after cs).contexts.get? name = some c) :
    ∃ i, Lineage (start n) i cs (.token c.token) ∧
      ((start n).after cs).world.history[i]? = some (.minted c) := by
  obtain ⟨i, hi⟩ := exists_lineage (x := .token c.token) (HoldsToken.owned h)
  obtain ⟨e, he, hmade⟩ := hi.event
  cases e with
  | minted d =>
    have htoken := Entity.token.inj (Option.some.inj hmade)
    cases d
    cases c
    cases htoken
    exact ⟨i, hi, he⟩
  | dropped d => cases hmade
  | registered r => cases hmade

theorem lineage_of_minted {i : Nat} (h : ((start n).after cs).contexts.get? name = some c)
    (hi : ((start n).after cs).world.history[i]? = some (.minted c)) :
    Lineage (start n) i cs (.token c.token) := by
  obtain ⟨j, hj, hevent⟩ := lineage_of_owned h
  obtain rfl := (fresh_after n cs).index_eq hi hevent rfl rfl rfl
  exact hj

/-- The token belongs to an owned context when they go back to one event. -/
theorem belongsTo_iff_lineage (ht : ((start n).after cs).HoldsToken t)
    (hc : ((start n).after cs).contexts.get? name = some c) :
    t.belongsTo c ↔ ∃ i, Lineage (start n) i cs (.token t) ∧
      ((start n).after cs).world.history[i]? = some (.minted c) := by
  rw [Token.belongsTo_iff_beq, token_beq_iff_lineage ht (.owned hc)]
  constructor
  · rintro ⟨i, hi, hci⟩
    obtain ⟨j, hj, hevent⟩ := lineage_of_owned hc
    obtain rfl := hci.index_eq hj rfl
    exact ⟨i, hi, hevent⟩
  · rintro ⟨i, hi, hevent⟩
    exact ⟨i, hi, lineage_of_minted hc hevent⟩

/-- Wherever the token is, it belongs to the context when both descend from one mint. -/
theorem belongsTo_iff_descends {p : Place} (hp : ((start n).after cs).At p (.token t))
    (hc : ((start n).after cs).contexts.get? name = some c) :
    t.belongsTo c ↔ ∃ k, Descends (start n) cs p k ∧ Descends (start n) cs (.context name) k := by
  rw [Token.belongsTo_iff_beq]
  exact token_beq_iff_descends hp ⟨c, hc, rfl⟩

/-- Addresses tell the same, although they are used again. -/
theorem belongsTo_iff_address {address : Nat → Nat} (h : Allocates (start n) address cs) {i j : Nat}
    (hi : Lineage (start n) i cs (.token t))
    (hc : ((start n).after cs).contexts.get? name = some c)
    (hj : ((start n).after cs).world.history[j]? = some (.minted c)) :
    t.belongsTo c ↔ address i = address j := by
  rw [address_eq_iff h hi (lineage_of_minted hc hj), Token.belongsTo_iff]
  exact ⟨congrArg Identity.context, Identity.context.inj⟩

theorem isLive_iff_owned : ((start n).after cs).world.isLive t ↔
    ∃ name c, ((start n).after cs).contexts.get? name = some c ∧ t.belongsTo c := by
  rw [(ledger_after n cs).isLive_iff]
  constructor
  · rintro ⟨c, hc, ht⟩
    obtain ⟨name, hname⟩ := mem_owned_iff.1 hc
    exact ⟨name, c, hname, ht⟩
  · rintro ⟨name, c, hname, ht⟩
    exact ⟨c, mem_owned_iff.2 ⟨name, hname⟩, ht⟩

/-- One name, one context. -/
theorem owner_unique {p q : String × Context}
    (hp : ((start n).after cs).contexts.get? p.1 = some p.2) (htp : t.belongsTo p.2)
    (hq : ((start n).after cs).contexts.get? q.1 = some q.2) (htq : t.belongsTo q.2) : p = q := by
  have hids : (((start n).after cs).contexts.entries.map fun e => e.2.id).Nodup := by
    have hnodup := (ledger_after n cs).nodup_ids
    rwa [owned, Store.items, List.map_map] at hnodup
  refine List.inj_on_of_nodup_map hids (Store.mem_entries_iff.2 hp) (Store.mem_entries_iff.2 hq) ?_
  rw [← Token.belongsTo_iff.1 htp, ← Token.belongsTo_iff.1 htq]

theorem dead_after (ht : ((start n).after cs).HoldsToken t)
    (hdead : ((start n).after cs).world.isLive t = false) (later : List Command) :
    ((start n).after (cs ++ later)).world.isLive t = false := by
  rw [after_append]
  refine Bool.eq_false_iff.2 fun hlive => ?_
  have htaken := (fresh_after n cs).taken (.token t) (made_of_holds ht)
  rcases (after_moves _ later).mem_live (World.isLive_iff.1 hlive) with hbefore | hnew
  · exact Bool.eq_false_iff.1 hdead (World.isLive_iff.2 hbefore)
  · exact Nat.not_lt.2 hnew htaken

theorem logged_registered {c : Command} (h : c.changesOwners = false) (s : Session)
    (answer : Except Fault Answer) :
    ∀ entry ∈ s.logged c answer, ∃ signature, entry = .registered signature := by
  unfold logged
  split
  · cases h
  · cases h
  · cases h
  · exact List.forall_mem_singleton.2 ⟨_, rfl⟩
  · exact List.forall_mem_singleton.2 ⟨_, rfl⟩
  · split
    · exact List.forall_mem_singleton.2 ⟨_, rfl⟩
    · exact nofun
  · exact nofun

/-- A command that neither mints nor drops a context leaves every token as live as it was. -/
theorem isLive_step (s : Session) {c : Command} (h : c.changesOwners = false) (t : Token) :
    (s.step c).2.world.isLive t = s.world.isLive t := by
  obtain ⟨es, hhistory, hlive⟩ := (s.step_effect c).moves.tracked
  have hlogs : s.world.Logs (s.step c).2.world (es.map Event.entry) := by
    rw [World.Logs, hhistory, List.map_append]
  have hlog : es.map Event.entry = s.logged c (s.step c).1.answer :=
    (hlogs.unique (s.step_logs c)).trans (s.step_log c)
  have hregistered : ∀ e ∈ es, ∃ signature, e.entry = .registered signature := by
    intro e he
    exact logged_registered h s _ _ (hlog ▸ List.mem_map_of_mem he)
  rw [World.isLive, hlive, Event.foldl_track_of_registered hregistered, World.isLive]

/-- Whether a token belongs to an owned context is one question, however it is asked; a token is live
when it belongs to one, and once dead it stays so; and only commands about contexts change that. -/
theorem live_iff_owned (n : UInt64) (cs : List Command) :
    let s := (start n).after cs
    (∀ t name c, s.HoldsToken t → s.contexts.get? name = some c →
      (t.belongsTo c ↔ t == c.token) ∧
      (t.belongsTo c ↔ t.feed = c.token.feed) ∧
      (t.belongsTo c ↔
        ∃ i, Lineage (start n) i cs (.token t) ∧ s.world.history[i]? = some (.minted c)) ∧
      (∀ address i j, Allocates (start n) address cs → Lineage (start n) i cs (.token t) →
        s.world.history[j]? = some (.minted c) → (t.belongsTo c ↔ address i = address j)) ∧
      (∀ p, s.At p (.token t) → (t.belongsTo c ↔
        ∃ k, Descends (start n) cs p k ∧ Descends (start n) cs (.context name) k))) ∧
    (∀ t, s.HoldsToken t →
      (s.world.isLive t ↔ ∃ name c, s.contexts.get? name = some c ∧ t.belongsTo c) ∧
      (s.world.isLive t →
        ∃! p : String × Context, s.contexts.get? p.1 = some p.2 ∧ t.belongsTo p.2) ∧
      (s.world.isLive t = false →
        ∀ later, ((start n).after (cs ++ later)).world.isLive t = false)) ∧
    (∀ c t, c.changesOwners = false → (s.step c).2.world.isLive t = s.world.isLive t) := by
  intro s
  refine ⟨?_, ?_, fun c t hc => s.isLive_step hc t⟩
  · intro t name c ht hc
    refine ⟨Token.belongsTo_iff_beq, Token.belongsTo_iff_feed, belongsTo_iff_lineage ht hc, ?_, ?_⟩
    · exact fun address i j haddress hi hj => belongsTo_iff_address haddress hi hc hj
    · exact fun p hp => belongsTo_iff_descends hp hc
  · intro t ht
    refine ⟨isLive_iff_owned, fun hlive => ?_, dead_after ht⟩
    obtain ⟨name, c, hc, hbelongs⟩ := isLive_iff_owned.1 hlive
    exact ⟨(name, c), ⟨hc, hbelongs⟩, fun p hp => owner_unique hp.1 hp.2 hc hbelongs⟩

/-- A function of a context is a key and outlives the context; the next context takes the name. -/
def outlived : List Command :=
  [.act (.mint (some "a")), .act (.collect [.list [.compiler 7 "a"]] (some "keys")),
    .act (.takeToken "a" (some "old")), .act (.dropContext "a"), .act (.mint (some "a")),
    .act (.takeToken "a" (some "new"))]

/-- The token that stays behind is dead for good, and neither the events, nor where it comes from, nor
addresses that never come back make it one of the next context. -/
theorem outlived_stays_dead :
    (∀ later, ((start 1).after (outlived ++ later)).world.isLive ⟨⟨0⟩, 1⟩ = false) ∧
    (∃! p : String × Context, ((start 1).after outlived).contexts.get? p.1 = some p.2 ∧
      Token.belongsTo ⟨⟨1⟩, 2⟩ p.2) ∧
    ¬ Token.feed ⟨⟨0⟩, 1⟩ = Token.feed ⟨⟨1⟩, 2⟩ ∧
    (∃ i j, Lineage (start 1) i outlived (.token ⟨⟨0⟩, 1⟩) ∧
      Lineage (start 1) j outlived (.token ⟨⟨1⟩, 2⟩) ∧ ¬ id i = id j) ∧
    (¬ ∃ k, Descends (start 1) outlived (.token "old") k ∧
      Descends (start 1) outlived (.context "a") k) ∧
    (∃ k, Descends (start 1) outlived (.token "new") k ∧
      Descends (start 1) outlived (.context "a") k) ∧
    (((start 1).after outlived).step (.act (.dropToken "old"))).2.world.isLive ⟨⟨1⟩, 2⟩ := by
  obtain ⟨hbelongs, hlive, hstep⟩ := live_iff_owned 1 outlived
  have hold : ((start 1).after outlived).HoldsToken ⟨⟨0⟩, 1⟩ := @HoldsToken.stored _ "old" _ rfl
  have hnew : ((start 1).after outlived).HoldsToken ⟨⟨1⟩, 2⟩ := @HoldsToken.stored _ "new" _ rfl
  have ha : ((start 1).after outlived).contexts.get? "a" = some ⟨⟨1⟩, 2⟩ := rfl
  obtain ⟨-, hfeed, -, haddress, hdescends⟩ := hbelongs _ "a" _ hold ha
  obtain ⟨-, -, -, -, hdescends'⟩ := hbelongs _ "a" _ hnew ha
  refine ⟨(hlive _ hold).2.2 rfl, (hlive _ hnew).2.1 rfl, fun heq => ?_, ?_, fun hsame => ?_, ?_, ?_⟩
  · cases hfeed.2 heq
  · obtain ⟨i, hi⟩ := exists_lineage (x := .token ⟨⟨0⟩, 1⟩) hold
    obtain ⟨j, hj, hminted⟩ := lineage_of_owned ha
    have hallocates : Allocates (start 1) id outlived := allocates_of_injective (fun _ _ h => h) outlived
    refine ⟨i, j, hi, hj, fun heq => ?_⟩
    cases (haddress id i j hallocates hi hminted).2 heq
  · cases (hdescends (.token "old") ⟨_, rfl, rfl⟩).2 hsame
  · exact (hdescends' (.token "new") ⟨_, rfl, rfl⟩).1 rfl
  · exact hstep _ ⟨⟨1⟩, 2⟩ rfl

end Session
end ScriptValues
