import Mathlib.Data.List.Nodup
import ScriptValues.Proofs.Provenance

/-! The ledger of the contexts. On one side stand the contexts that the history has minted, on the other
those that have an owner and those that were dropped, and the two sides balance after every change. -/

namespace ScriptValues

namespace Event

def minted? : Event → Option Context
  | minted c => some c
  | _ => none

def dropped? : Event → Option Context
  | dropped c => some c
  | _ => none

/-- What is dropped was minted before, and was not dropped before. -/
def Ordered (es : List Event) : Prop :=
  ∀ before c later, es = before ++ dropped c :: later → minted c ∈ before ∧ dropped c ∉ before

variable {es : List Event} {e : Event}

theorem Ordered.concat (h : Ordered es) (he : ∀ c, e = dropped c → minted c ∈ es ∧ dropped c ∉ es) :
    Ordered (es ++ [e]) := by
  intro before c later heq
  rcases List.eq_nil_or_concat later with rfl | ⟨init, last, rfl⟩
  · obtain ⟨rfl, hc⟩ := List.append_inj' heq rfl
    exact he c (List.singleton_inj.1 hc)
  · rw [List.concat_eq_append, ← List.cons_append, ← List.append_assoc] at heq
    obtain ⟨heq, -⟩ := List.append_inj' heq rfl
    exact h before c init heq

end Event

/-- The context that is minted after so many others, counted on from the first serial. -/
def Context.nth (firstSerial : UInt64) (k : Nat) : Context :=
  ⟨⟨k⟩, firstSerial + k.toUInt64⟩

theorem Context.nth_injective (n : UInt64) : Function.Injective (Context.nth n) := by
  intro i j h
  exact congrArg (fun c => c.id.ordinal) h

namespace World

/-- The contexts minted, the first one first. -/
def minted (w : World) : List Context :=
  w.history.filterMap Event.minted?

def dropped (w : World) : List Context :=
  w.history.filterMap Event.dropped?

theorem mem_minted {w : World} {c : Context} : c ∈ w.minted ↔ .minted c ∈ w.history := by
  rw [minted, List.mem_filterMap]
  constructor
  · rintro ⟨e, he, hc⟩
    cases e with
    | minted d =>
      cases hc
      exact he
    | _ => cases hc
  · exact fun h => ⟨_, h, rfl⟩

theorem exists_minted_of_made {w : World} {t : Token} (h : w.Made (.token t)) :
    ∃ c ∈ w.minted, c.token = t := by
  obtain ⟨e, he, hmade⟩ := h
  cases e with
  | minted c => exact ⟨c, mem_minted.2 he, Entity.token.inj (Option.some.inj hmade)⟩
  | _ => cases hmade

theorem mem_dropped {w : World} {c : Context} : c ∈ w.dropped ↔ .dropped c ∈ w.history := by
  rw [dropped, List.mem_filterMap]
  constructor
  · rintro ⟨e, he, hc⟩
    cases e with
    | dropped d =>
      cases hc
      exact he
    | _ => cases hc
  · exact fun h => ⟨_, h, rfl⟩

section Changes

variable (w : World) (c : Context) (signature : String) (callback : Callback)

@[simp] theorem minted_mint : w.mint.2.minted = w.minted ++ [w.mint.1] :=
  List.filterMap_append

@[simp] theorem dropped_mint : w.mint.2.dropped = w.dropped :=
  List.filterMap_append.trans (List.append_nil _)

@[simp] theorem minted_drop : (w.drop c).minted = w.minted :=
  List.filterMap_append.trans (List.append_nil _)

@[simp] theorem dropped_drop : (w.drop c).dropped = w.dropped ++ [c] :=
  List.filterMap_append

@[simp] theorem minted_register : (w.register signature callback).2.minted = w.minted :=
  List.filterMap_append.trans (List.append_nil _)

@[simp] theorem dropped_register : (w.register signature callback).2.dropped = w.dropped :=
  List.filterMap_append.trans (List.append_nil _)

end Changes

/-- The world started with this serial, and these are the contexts that have an owner. -/
structure Ledger (firstSerial : UInt64) (owned : List Context) (w : World) : Prop where
  nextSerial : w.nextSerial = firstSerial + w.contextCount.toUInt64
  minted : w.minted = (List.range w.contextCount).map (Context.nth firstSerial)
  balance : w.minted.Perm (owned ++ w.dropped)
  live : w.live.Perm (owned.map (·.id))
  ordered : Event.Ordered w.history

namespace Ledger

variable {n : UInt64} {owned rest : List Context} {w w' : World} {c : Context}

theorem start (n : UInt64) : Ledger n [] { nextSerial := n } where
  nextSerial := (UInt64.add_zero n).symm
  minted := rfl
  balance := List.Perm.refl _
  live := List.Perm.refl _
  ordered := by
    intro before c later h
    cases before <;> cases h

theorem nodup_minted (h : Ledger n owned w) : w.minted.Nodup := by
  rw [h.minted]
  exact List.nodup_range.map (Context.nth_injective n)

theorem not_mem_dropped (h : Ledger n owned w) (hc : c ∈ owned) : c ∉ w.dropped := by
  have hnodup := h.balance.nodup_iff.1 h.nodup_minted
  exact fun hdropped => List.disjoint_of_nodup_append hnodup hc hdropped

theorem mem_minted (h : Ledger n owned w) (hc : c ∈ owned) : c ∈ w.minted :=
  h.balance.mem_iff.2 (List.mem_append_left _ hc)

theorem mem_owned_iff (h : Ledger n owned w) : c ∈ owned ↔ c ∈ w.minted ∧ c ∉ w.dropped := by
  constructor
  · exact fun hc => ⟨h.mem_minted hc, h.not_mem_dropped hc⟩
  · rintro ⟨hminted, hdropped⟩
    exact (List.mem_append.1 (h.balance.mem_iff.1 hminted)).resolve_right hdropped

theorem mint (h : Ledger n owned w) : Ledger n (w.mint.1 :: owned) w.mint.2 where
  nextSerial := by
    change w.nextSerial + 1 = n + (w.contextCount + 1).toUInt64
    rw [h.nextSerial, UInt64.add_assoc]
    exact congrArg (n + ·) (UInt64.ofNat_add w.contextCount 1).symm
  minted := by
    have hnew : w.mint.1 = Context.nth n w.contextCount := by
      rw [World.mint, Context.nth, h.nextSerial]
    change w.mint.2.minted = (List.range (w.contextCount + 1)).map (Context.nth n)
    rw [minted_mint, h.minted, hnew, List.range_succ, List.map_append, List.map_singleton]
  balance := by
    rw [minted_mint, dropped_mint]
    exact (List.perm_append_singleton _ _).trans (h.balance.cons _)
  live := h.live.cons _
  ordered := h.ordered.concat nofun

theorem drop (h : Ledger n owned w) (hc : owned.Perm (c :: rest)) : Ledger n rest (w.drop c) where
  nextSerial := h.nextSerial
  minted := (minted_drop w c).trans h.minted
  balance := by
    have hbalance : w.minted.Perm (c :: (rest ++ w.dropped)) := h.balance.trans (hc.append_right _)
    rw [minted_drop, dropped_drop, ← List.append_assoc]
    exact hbalance.trans (List.perm_append_singleton _ _).symm
  live := by
    have hlive : w.live.Perm (c.id :: rest.map (·.id)) := h.live.trans (hc.map _)
    have herase := hlive.erase c.id
    rwa [List.erase_cons_head] at herase
  ordered := by
    have hmem : c ∈ owned := hc.mem_iff.2 List.mem_cons_self
    refine h.ordered.concat fun d hd => ?_
    cases hd
    exact ⟨World.mem_minted.1 (h.mem_minted hmem), fun hd => h.not_mem_dropped hmem (mem_dropped.2 hd)⟩

theorem register (h : Ledger n owned w) (s : String) (callback : Callback) :
    Ledger n owned (w.register s callback).2 where
  nextSerial := h.nextSerial
  minted := (minted_register w s callback).trans h.minted
  balance := by
    rw [minted_register, dropped_register]
    exact h.balance
  live := h.live
  ordered := h.ordered.concat nofun

/-- Only the contexts and the history matter. -/
theorem congr (h : Ledger n owned w) (hserial : w'.nextSerial = w.nextSerial)
    (hcount : w'.contextCount = w.contextCount) (hlive : w'.live = w.live)
    (hhistory : w'.history = w.history) : Ledger n owned w' where
  nextSerial := by rw [hserial, hcount, h.nextSerial]
  minted := by rw [World.minted, hhistory, hcount, ← World.minted, h.minted]
  balance := by
    rw [World.minted, World.dropped, hhistory]
    exact h.balance
  live := hlive ▸ h.live
  ordered := hhistory ▸ h.ordered

end Ledger
end World

namespace Store

variable {α : Type} {s : Store α} {name : String} {a : α}

theorem others_ne {before later : List (String × α)}
    (h : s.entries = before ++ (name, a) :: later) : ∀ e ∈ before ++ later, e.1 ≠ name := by
  have hnodup := s.nodup
  rw [h, List.map_append, List.map_cons, List.nodup_middle, List.nodup_cons, ← List.map_append] at hnodup
  intro e he heq
  exact hnodup.1 (List.mem_map.2 ⟨e, he, heq⟩)

theorem get?_eq_some_iff : s.get? name = some a ↔
    ∃ before later, s.entries = before ++ (name, a) :: later := by
  rw [get?, List.lookup_eq_some_iff]
  refine exists₂_congr fun before later => and_iff_left_of_imp fun hentries e he => ?_
  exact bne_iff_ne.2 (others_ne hentries e (List.mem_append_left _ he)).symm

theorem mem_entries_iff : (name, a) ∈ s.entries ↔ s.get? name = some a := by
  rw [get?_eq_some_iff, List.mem_iff_append]

theorem mem_items_iff : a ∈ s.items ↔ ∃ name, s.get? name = some a := by
  rw [items, List.mem_map]
  constructor
  · rintro ⟨⟨name, b⟩, hmem, rfl⟩
    exact ⟨name, mem_entries_iff.1 hmem⟩
  · rintro ⟨name, h⟩
    exact ⟨(name, a), mem_entries_iff.2 h, rfl⟩

theorem items_perm (h : s.get? name = some a) : s.items.Perm (a :: (s.erase name).items) := by
  obtain ⟨before, later, hentries⟩ := get?_eq_some_iff.1 h
  have hothers := others_ne hentries
  have herase : (s.erase name).entries = before ++ later := by
    change s.entries.filter (·.1 != name) = _
    rw [hentries]
    have hkeep := List.filter_eq_self.2 fun e he => bne_iff_ne.2 (hothers e he)
    rw [List.filter_append, List.filter_cons_of_neg (by simp), ← List.filter_append, hkeep]
  rw [items, items, hentries, herase]
  exact List.perm_middle.map _

theorem items_erase (h : s.get? name = none) : (s.erase name).items = s.items := by
  have hothers := List.lookup_eq_none_iff.1 h
  have hkeep : s.entries.filter (·.1 != name) = s.entries := by
    refine List.filter_eq_self.2 fun e he => ?_
    rw [bne_comm]
    exact hothers e he
  exact congrArg (List.map (·.2)) hkeep

end Store

namespace Session

/-- The contexts that have an owner. -/
def owned (s : Session) : List Context :=
  s.contexts.items

/-- The ledger of the session's world with the contexts that the session owns. -/
def Ledger (firstSerial : UInt64) (s : Session) : Prop :=
  s.world.Ledger firstSerial s.owned

variable {n : UInt64} {s s' : Session}

theorem mem_owned_iff {c : Context} : c ∈ s.owned ↔ ∃ name, s.contexts.get? name = some c :=
  Store.mem_items_iff

/-- A context goes to the store and the one it replaces is dropped, or it is dropped itself. -/
theorem keepContext_ledger {c : Context} (h : s.world.Ledger n (c :: s.owned)) (name : Option String) :
    (s.keepContext name c).Ledger n := by
  cases name with
  | none => exact h.drop (List.Perm.refl _)
  | some name =>
    change ((s.contexts.get? name).elim s.world s.world.drop).Ledger n
      (c :: (s.contexts.erase name).items)
    cases hget : s.contexts.get? name with
    | none =>
      rw [Store.items_erase hget]
      exact h
    | some old =>
      have hperm : s.owned.Perm (old :: (s.contexts.erase name).items) := Store.items_perm hget
      exact h.drop ((hperm.cons c).trans (List.Perm.swap _ _ _))

theorem Ready.ledger {w : World} {owned : List Context} (hw : s.Ready w)
    (h : s.world.Ledger n owned) : w.Ledger n owned := by
  induction hw with
  | same => exact h
  | made _ => exact h.congr rfl rfl rfl rfl
  | wrapped r _ ih => exact ih.congr rfl rfl rfl rfl

theorem Change.ledger (hchange : s.Change s') (h : s.Ledger n) : s'.Ledger n := by
  cases hchange with
  | mint name => exact keepContext_ledger (s := { s with world := s.world.mint.2 }) h.mint name
  | dropContext name =>
    unfold Session.dropContext
    split
    · exact h
    · next c hget => exact h.drop (Store.items_perm hget)
  | newCallback name hw hc => exact hw.ledger h
  | @register signature c name w hw hc => exact (hw.ledger h).register signature c
  | keepParts name hw hp hc => exact hw.ledger h
  | _ => exact h

/-- No change of a session unbalances its ledger. -/
theorem Effect.ledger (heffect : s.Effect s') (h : s.Ledger n) : s'.Ledger n := by
  cases heffect with
  | change hchange => exact hchange.ledger h
  | @call name f args hf hargs =>
    have hquiet := World.quiet_call s.world f args
    have hafter := h.congr hquiet.nextSerial hquiet.contextCount hquiet.live hquiet.history
    unfold Session.call
    split
    · next hcall => rwa [hcall] at hafter
    · next hcall => rwa [hcall] at hafter

theorem ledger_after (n : UInt64) (cs : List Command) : ((start n).after cs).Ledger n := by
  induction cs using List.reverseRecOn with
  | nil => exact World.Ledger.start n
  | append_singleton cs c ih => exact ((start n).after_effect cs c).ledger ih

end Session
end ScriptValues
