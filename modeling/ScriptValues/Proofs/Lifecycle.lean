import Mathlib.Algebra.Group.Nat.Defs
import ScriptValues.Callback.Standard
import ScriptValues.Proofs.Logging

/-! The log of a run accounts for its contexts. The serials are counted through, and those that were
minted and not dropped are those of the contexts that have an owner. -/

namespace ScriptValues

def Command.isMint : Command → Bool
  | .act (.mint _) => true
  | _ => false

namespace LogEntry

def mintedSerial? : LogEntry → Option UInt64
  | minted serial => some serial
  | _ => none

/-- The serials of the contexts minted, in the order of the log. -/
def mintedSerials (log : List LogEntry) : List UInt64 :=
  log.filterMap mintedSerial?

end LogEntry

namespace Event

variable {es : List Event} {serial : UInt64}

theorem entry_eq_minted {e : Event} :
    e.entry = .minted serial ↔ ∃ c, e = minted c ∧ c.serial = serial := by
  cases e <;> simp [entry]

theorem entry_eq_dropped {e : Event} :
    e.entry = .dropped serial ↔ ∃ c, e = dropped c ∧ c.serial = serial := by
  cases e <;> simp [entry]

theorem minted_mem_entries :
    .minted serial ∈ es.map entry ↔ ∃ c, minted c ∈ es ∧ c.serial = serial := by
  grind [entry_eq_minted]

theorem dropped_mem_entries :
    .dropped serial ∈ es.map entry ↔ ∃ c, dropped c ∈ es ∧ c.serial = serial := by
  grind [entry_eq_dropped]

end Event

/-- The place of a serial in the count from the first one, which is the place one. -/
def serialNumber (firstSerial serial : UInt64) : Nat :=
  (serial - firstSerial).toNat + 1

theorem serialNumber_nth (n : UInt64) {k : Nat} (h : k < 2 ^ 64) :
    serialNumber n (Context.nth n k).serial = k + 1 := by
  have hsub : n + k.toUInt64 - n = k.toUInt64 := by
    rw [UInt64.add_comm, UInt64.add_sub_cancel]
  rw [serialNumber, Context.nth, hsub]
  exact congrArg (· + 1) (UInt64.toNat_ofNat_of_lt' h)

namespace World.Ledger

variable {n : UInt64} {owned : List Context} {w : World} {c d : Context}

theorem mem_minted_of_dropped (h : w.Ledger n owned) (hc : c ∈ w.dropped) : c ∈ w.minted :=
  h.balance.mem_iff.2 (List.mem_append_right _ hc)

theorem nodup_owned (h : w.Ledger n owned) : owned.Nodup :=
  (h.balance.nodup_iff.1 h.nodup_minted).of_append_left

section Unwrapped

variable (hcount : w.contextCount < 2 ^ 64)
include hcount

theorem serialNumbers (h : w.Ledger n owned) :
    (w.minted.map (·.serial)).map (serialNumber n) = List.range' 1 w.contextCount := by
  rw [h.minted, List.map_map, List.map_map, List.range'_eq_map_range]
  refine List.map_congr_left fun k hk => ?_
  rw [Nat.add_comm]
  exact serialNumber_nth n (Nat.lt_trans (List.mem_range.1 hk) hcount)

/-- As long as the count has not wrapped, a serial belongs to one context. -/
theorem eq_of_serial_eq (h : w.Ledger n owned) (hc : c ∈ w.minted) (hd : d ∈ w.minted)
    (hserial : c.serial = d.serial) : c = d := by
  rw [h.minted, List.mem_map] at hc hd
  obtain ⟨i, hi, rfl⟩ := hc
  obtain ⟨j, hj, rfl⟩ := hd
  have hnumber := congrArg (serialNumber n) hserial
  rw [serialNumber_nth n (Nat.lt_trans (List.mem_range.1 hi) hcount),
    serialNumber_nth n (Nat.lt_trans (List.mem_range.1 hj) hcount)] at hnumber
  rw [Nat.succ.inj hnumber]

theorem token_eq_of_serial_eq (h : w.Ledger n owned) {t u : Token} (ht : w.Made (.token t))
    (hu : w.Made (.token u)) (hserial : t.serial = u.serial) : t = u := by
  obtain ⟨c, hc, rfl⟩ := exists_minted_of_made ht
  obtain ⟨d, hd, rfl⟩ := exists_minted_of_made hu
  rw [h.eq_of_serial_eq hcount hc hd hserial]

theorem serials_ordered (h : w.Ledger n owned) {before later : List LogEntry} {serial : UInt64}
    (hlog : w.history.map Event.entry = before ++ .dropped serial :: later) :
    .minted serial ∈ before ∧ .dropped serial ∉ before := by
  obtain ⟨es, rest, hhistory, rfl, hrest⟩ := List.map_eq_append_iff.1 hlog
  obtain ⟨e, es', rfl, he, -⟩ := List.map_eq_cons_iff.1 hrest
  obtain ⟨c, rfl, rfl⟩ := Event.entry_eq_dropped.1 he
  obtain ⟨hminted, hdropped⟩ := h.ordered es c es' hhistory
  have hbefore : es ⊆ w.history := hhistory ▸ List.subset_append_left _ _
  refine ⟨Event.minted_mem_entries.2 ⟨c, hminted, rfl⟩, fun hmem => ?_⟩
  obtain ⟨d, hd, hserial⟩ := Event.dropped_mem_entries.1 hmem
  have hcd := h.eq_of_serial_eq hcount (h.mem_minted_of_dropped (mem_dropped.2 (hbefore hd)))
    (World.mem_minted.2 (hbefore hminted)) hserial
  exact hdropped (hcd ▸ hd)

theorem mem_serials_iff (h : w.Ledger n owned) (serial : UInt64) :
    serial ∈ owned.map (·.serial) ↔ .minted serial ∈ w.history.map Event.entry ∧
      .dropped serial ∉ w.history.map Event.entry := by
  constructor
  · intro hserial
    obtain ⟨c, hc, rfl⟩ := List.mem_map.1 hserial
    have hminted := h.mem_minted hc
    refine ⟨Event.minted_mem_entries.2 ⟨c, World.mem_minted.1 hminted, rfl⟩, fun hmem => ?_⟩
    obtain ⟨d, hd, hserial⟩ := Event.dropped_mem_entries.1 hmem
    have hd := mem_dropped.2 hd
    have hdc := h.eq_of_serial_eq hcount (h.mem_minted_of_dropped hd) hminted hserial
    exact h.not_mem_dropped hc (hdc ▸ hd)
  · rintro ⟨hmem, hdropped⟩
    obtain ⟨c, hc, rfl⟩ := Event.minted_mem_entries.1 hmem
    refine List.mem_map_of_mem (h.mem_owned_iff.2 ⟨World.mem_minted.2 hc, fun hc => hdropped ?_⟩)
    exact Event.dropped_mem_entries.2 ⟨c, mem_dropped.1 hc, rfl⟩

theorem nodup_serials (h : w.Ledger n owned) : (owned.map (·.serial)).Nodup := by
  refine List.Nodup.map_on (fun c hc d hd hserial => ?_) h.nodup_owned
  exact h.eq_of_serial_eq hcount (h.mem_minted hc) (h.mem_minted hd) hserial

end Unwrapped
end World.Ledger

namespace Session

theorem mintedSerials_departure (s : Session) (name : String) :
    LogEntry.mintedSerials (s.departure name) = [] := by
  unfold departure
  cases s.contexts.get? name <;> rfl

theorem mintedSerials_logged {c : Command} (h : c.isMint = false) (s : Session)
    (answer : Except Fault Answer) : LogEntry.mintedSerials (s.logged c answer) = [] := by
  unfold logged
  split
  · cases h
  · cases h
  · exact mintedSerials_departure _ _
  · rfl
  · rfl
  · split <;> rfl
  · rfl

theorem length_minted_step (s : Session) (c : Command) :
    (LogEntry.mintedSerials (s.step c).1.log).length = [c].countP Command.isMint := by
  rw [step_log, List.countP_singleton]
  cases hc : c.isMint with
  | false => rw [mintedSerials_logged hc]; rfl
  | true =>
    cases c with
    | ask q => cases hc
    | act a =>
      cases a with
      | mint name =>
        cases name with
        | none => rfl
        | some name =>
          exact congrArg (·.length + 1) (mintedSerials_departure s name)
      | _ => cases hc

/-- Every minting command is in the log, and nothing else mints. -/
theorem length_minted (s : Session) (cs : List Command) :
    (LogEntry.mintedSerials (s.log cs)).length = cs.countP Command.isMint := by
  induction cs using List.reverseRecOn with
  | nil => rfl
  | append_singleton cs c ih =>
    rw [log_concat, LogEntry.mintedSerials, List.filterMap_append, List.length_append,
      List.countP_append]
    exact congrArg₂ (· + ·) ih (length_minted_step _ c)

theorem mintedSerials_entries (w : World) :
    LogEntry.mintedSerials (w.history.map Event.entry) = w.minted.map (·.serial) := by
  rw [LogEntry.mintedSerials, World.minted, List.filterMap_map, List.map_filterMap]
  congr 1
  funext e
  cases e <;> rfl

theorem contextCount_after (n : UInt64) (cs : List Command) :
    ((start n).after cs).world.contextCount = cs.countP Command.isMint := by
  rw [← (start n).length_minted cs, log_start, mintedSerials_entries, (ledger_after n cs).minted,
    List.length_map, List.length_map, List.length_range]

/-- In a run with fewer mints than there are serials, a serial tells the context that a function is
of. -/
theorem token_eq_of_serial_eq {n : UInt64} {cs : List Command}
    (hmints : cs.countP Command.isMint < 2 ^ 64) {t u : Token}
    (ht : ((start n).after cs).world.Made (.token t))
    (hu : ((start n).after cs).world.Made (.token u)) (hserial : t.serial = u.serial) : t = u := by
  have hcount : ((start n).after cs).world.contextCount < 2 ^ 64 := by rwa [contextCount_after]
  exact (ledger_after n cs).token_eq_of_serial_eq hcount ht hu hserial

/-- The log accounts for what happened. The contexts minted are numbered one after the other, each is
dropped at most once and after it was minted, and at any time those not dropped are those owned; and
every response logs what its command and its answer say. -/
theorem log_accounts (n : UInt64) (cs : List Command) (hmints : cs.countP Command.isMint < 2 ^ 64) :
    (∀ before, before <+: cs →
      let log := (start n).log before
      let owned := ((start n).after before).owned.map (·.serial)
      (LogEntry.mintedSerials log).map (serialNumber n) =
        List.range' 1 (before.countP Command.isMint) ∧
      (∀ earlier serial later, log = earlier ++ .dropped serial :: later →
        .minted serial ∈ earlier ∧ .dropped serial ∉ earlier) ∧
      (∀ serial, serial ∈ owned ↔ .minted serial ∈ log ∧ .dropped serial ∉ log) ∧
      owned.Nodup) ∧
    ∀ before c later, cs = before ++ c :: later → ∃ r,
      ((start n).run cs).1[before.length]? = some r ∧
      r.log = ((start n).after before).logged c r.answer := by
  constructor
  · intro before hbefore log owned
    have hledger := ledger_after n before
    have hcount : ((start n).after before).world.contextCount < 2 ^ 64 := by
      rw [contextCount_after]
      exact Nat.lt_of_le_of_lt hbefore.sublist.countP_le hmints
    have hlog : log = ((start n).after before).world.history.map Event.entry := log_start n before
    refine ⟨?_, ?_, ?_, hledger.nodup_serials hcount⟩
    · rw [hlog, mintedSerials_entries, hledger.serialNumbers hcount, contextCount_after]
    · intro earlier serial later hsplit
      exact hledger.serials_ordered hcount (hlog ▸ hsplit)
    · rw [hlog]
      exact hledger.mem_serials_iff hcount
  · rintro before c later rfl
    exact ⟨_, (start n).response_eq before c later, step_log _ c⟩

/-- A context is overwritten, one has no name, and the serials pass zero on the way. -/
def turnover : List Command :=
  [.act (.mint (some "a")), .act (.host "f()" (.fresh (.plain .null)) (some "f")),
    .act (.copyFunction "f" (some "g")), .act (.mint (some "a")), .act (.mint none)]

theorem turnover_accounts :
    (start (-1)).log turnover = [.minted (-1), .registered "f()", .minted 0, .dropped (-1),
      .minted 1, .dropped 1] ∧
    (LogEntry.mintedSerials ((start (-1)).log turnover)).map (serialNumber (-1)) = [1, 2, 3] ∧
    .minted 0 ∈ (start (-1)).log turnover ∧ .dropped 0 ∉ (start (-1)).log turnover := by
  obtain ⟨haccounts, -⟩ := log_accounts (-1) turnover (by decide)
  obtain ⟨hserials, -, howned, -⟩ := haccounts turnover List.prefix_rfl
  exact ⟨rfl, hserials, (howned 0).1 List.mem_cons_self⟩

end Session
end ScriptValues
