import ScriptValues.Proofs.KeyContract
import ScriptValues.Proofs.Serving

/-! Containers beside a session. Commands run between the requests, and the keys are what the session
has at the time of the request, so contexts come and go while their functions are stored. -/

namespace ScriptValues

/-- A command to the session, or a request to a container beside it. -/
inductive Step (α : Type) where
  | command (c : Command)
  | request (r : Request Expr α)

open Container Request

namespace Session

variable {α : Type}

/-- The requests with the keys that the session had for them, and the session at the end. Without a
value for its key there is no request. -/
def follow (s : Session) : List (Step α) → List (Request Value α) × Session
  | [] => ([], s)
  | .command c :: steps => (s.step c).2.follow steps
  | .request r :: steps =>
    match s.eval r.key with
    | .error _ => s.follow steps
    | .ok v => (r.withKey v :: (s.follow steps).1, (s.follow steps).2)

theorem follow_error {s : Session} {r : Request Expr α} {fault : Fault}
    (h : s.eval r.key = .error fault) (steps : List (Step α)) :
    s.follow (.request r :: steps) = s.follow steps := by
  simp only [follow, h]

theorem follow_ok {s : Session} {r : Request Expr α} {v : Value} (h : s.eval r.key = .ok v)
    (steps : List (Step α)) :
    s.follow (.request r :: steps) = (r.withKey v :: (s.follow steps).1, (s.follow steps).2) := by
  simp only [follow, h]

theorem follow_moves (s : Session) (steps : List (Step α)) :
    s.world.Moves (s.follow steps).2.world := by
  induction steps generalizing s with
  | nil => exact .refl
  | cons step steps ih =>
    cases step with
    | command c => exact (s.step_effect c).moves.trans (ih _)
    | request r =>
      cases h : s.eval r.key with
      | error fault =>
        rw [follow_error h]
        exact ih s
      | ok v =>
        rw [follow_ok h]
        exact ih s

/-- What was known for a key is known for good. -/
theorem knows_follow (n : UInt64) (cs : List Command) (steps : List (Step α)) :
    ∀ r ∈ (((start n).after cs).follow steps).1,
      r.key.Forall (((start n).after cs).follow steps).2.world.Knows := by
  induction steps generalizing cs with
  | nil => exact nofun
  | cons step steps ih =>
    cases step with
    | command c =>
      have hrest := ih (cs ++ [c])
      rwa [after_concat] at hrest
    | request r =>
      cases h : ((start n).after cs).eval r.key with
      | error fault =>
        rw [follow_error h]
        exact ih cs
      | ok v =>
        rw [follow_ok h]
        refine List.forall_mem_cons.2 ⟨?_, ih cs⟩
        rw [Request.key_withKey]
        intro f hf
        exact (follow_moves _ steps).knows (knows_eval h f hf)

/-- Whatever the commands between the requests and whichever buckets the hash codes get, a table
replies as a scan does; both reply what the requests so far say, and hold it once. -/
theorem table_serves_as_scan {b : Nat} (assign : HashCode → Fin b) (n : UInt64)
    (steps : List (Step α)) :
    let rs := ((start n).follow steps).1
    let w := ((start n).follow steps).2.world
    (tables assign).replies rs = scans.replies rs ∧
    ((tables assign).replies rs).map (·.found) = expected [] rs ∧
    ∀ before, before <+: rs →
      let t : Table assign α := (tables assign).after before
      let s : Scan α := scans.after before
      t.entries.Perm s.entries ∧ Scan.Distinct t.entries ∧
      (∀ key, latest before key = none ↔ ∀ e ∈ t.entries, (e.1 == key) = false) ∧
      (∀ e ∈ t.entries, latest before e.1 = some e.2) ∧
      (∀ key, key.Forall w.Knows → t.find? key = latest before key) := by
  intro rs w
  have hfresh : w.Fresh := (World.Fresh.start n).moves (follow_moves (start n) steps)
  have hhash := hfresh.value_contract.hash
  have hknown : ∀ r ∈ rs, r.key.Forall w.Knows := knows_follow n [] steps
  have hsame : (tables assign).replies rs = scans.replies rs :=
    (Table.MirrorsOver.empty.run hhash hknown).1
  refine ⟨hsame, ?_, ?_⟩
  · rw [hsame]
    exact (Scan.Reflects.empty.run rs).1
  · intro before hbefore t s
    have hmirrors : t.MirrorsOver (Value.Forall w.Knows) s :=
      (Table.MirrorsOver.empty.run hhash fun r hr => hknown r (hbefore.subset hr)).2
    have hreflects : s.Reflects before := (Scan.Reflects.empty.run before).2
    have hperm := hmirrors.perm
    refine ⟨hperm, hmirrors.distinct.perm hperm.symm, ?_, ?_, ?_⟩
    · intro key
      rw [hreflects.absent_iff]
      exact ⟨fun h e he => h e (hperm.mem_iff.1 he), fun h e he => h e (hperm.mem_iff.2 he)⟩
    · intro e he
      exact hreflects.latest_of_mem (hperm.mem_iff.1 he)
    · intro key hkey
      rw [hmirrors.find?_eq hhash hkey, hreflects.find?_eq]

/-- One id in a context and, after that has gone, in the next one. -/
def reused : List (Step String) :=
  [.command (.act (.mint (some "a"))), .request (.insert (.compiler 7 "a") "old"),
    .command (.act (.dropContext "a")), .command (.act (.mint (some "a"))),
    .request (.find (.compiler 7 "a")), .request (.insert (.compiler 7 "a") "new"),
    .request (.erase (.compiler 7 "a"))]

theorem reused_in_one_bucket :
    let rs := ((start 1).follow reused).1
    let t : Table (fun _ => (0 : Fin 1)) String := (tables _).after rs
    (tables fun _ => (0 : Fin 1)).replies rs =
      [⟨none, 1⟩, ⟨none, 1⟩, ⟨none, 2⟩, ⟨some "new", 1⟩] ∧
    t.find? (.function (.compiler 7 ⟨⟨0⟩, 1⟩)) = some "old" := by
  intro rs t
  obtain ⟨hsame, -, hprefix⟩ := table_serves_as_scan (fun _ => (0 : Fin 1)) 1 reused
  obtain ⟨-, -, -, -, hfind⟩ := hprefix rs List.prefix_rfl
  have hknows : ((start 1).follow reused).2.world.Knows (.compiler 7 ⟨⟨0⟩, 1⟩) := by
    refine ⟨.minted ⟨⟨0⟩, 1⟩, ?_, rfl⟩
    exact List.mem_cons_self
  constructor
  · rw [hsame]
    rfl
  · rw [hfind _ (Value.forall_function.2 hknows)]
    rfl

end Session
end ScriptValues
