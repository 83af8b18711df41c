import ScriptValues.Proofs.Bucketing

/-! Containers as their users see them: requests go in and replies come out. A table and a scan that
get the same requests give the same replies, and both reply what the requests so far say, if equal
keys have equal hash codes. -/

namespace ScriptValues

inductive Request (κ α : Type) where
  | insert (key : κ) (payload : α)
  | find (key : κ)
  | erase (key : κ)

/-- What was under an equal key when the request came, and how many entries there are after it. An
insertion is new when nothing was. -/
structure Reply (α : Type) where
  found : Option α
  size : Nat
deriving DecidableEq

namespace Request

variable {κ μ α : Type}

def key : Request κ α → κ
  | insert key _ | find key | erase key => key

def withKey (key : μ) : Request κ α → Request μ α
  | insert _ a => insert key a
  | find _ => find key
  | erase _ => erase key

theorem key_withKey (r : Request κ α) (key : μ) : (r.withKey key).key = key := by
  cases r <;> rfl

/-- What is under a key after the request, from what was under it before. -/
def update (r : Request Value α) (key : Value) (found : Option α) : Option α :=
  match r with
  | insert k a => if k == key then some a else found
  | find _ => found
  | erase k => if k == key then none else found

/-- The payload of the latest insertion under an equal key that is not erased since. -/
def latest (rs : List (Request Value α)) (key : Value) : Option α :=
  rs.foldl (fun found r => r.update key found) none

/-- What each of the requests should find after the ones before it. -/
def expected (before : List (Request Value α)) : List (Request Value α) → List (Option α)
  | [] => []
  | r :: rs => latest before r.key :: expected (before ++ [r]) rs

theorem latest_concat (rs : List (Request Value α)) (r : Request Value α) (key : Value) :
    latest (rs ++ [r]) key = r.update key (latest rs key) := by
  rw [latest, List.foldl_append]
  rfl

end Request

structure Container (α : Type) where
  State : Type
  empty : State
  find? : State → Value → Option α
  insert : State → Value → α → State
  erase : State → Value → State
  size : State → Nat

namespace Container

variable {α : Type}

def apply (c : Container α) (t : c.State) : Request Value α → c.State
  | .insert key a => c.insert t key a
  | .find _ => t
  | .erase key => c.erase t key

def serve (c : Container α) (t : c.State) (r : Request Value α) : Reply α × c.State :=
  (⟨c.find? t r.key, c.size (c.apply t r)⟩, c.apply t r)

def run (c : Container α) (t : c.State) : List (Request Value α) → List (Reply α) × c.State
  | [] => ([], t)
  | r :: rs =>
    let (reply, t') := c.serve t r
    let (replies, t'') := c.run t' rs
    (reply :: replies, t'')

/-- The replies of a container that starts empty. -/
def replies (c : Container α) (rs : List (Request Value α)) : List (Reply α) :=
  (c.run c.empty rs).1

/-- A container that started empty, after the requests. -/
def after (c : Container α) (rs : List (Request Value α)) : c.State :=
  (c.run c.empty rs).2

/-- Compares a key with the keys in the bucket of its hash code. -/
def tables {n : Nat} (assign : HashCode → Fin n) : Container α where
  State := Table assign α
  empty := .empty
  find? := Table.find?
  insert := Table.insert
  erase := Table.erase
  size := Table.size

/-- Compares a key with all keys. -/
def scans : Container α where
  State := Scan α
  empty := .empty
  find? := Scan.find?
  insert := Scan.insert
  erase := Scan.erase
  size := Scan.size

end Container

open Container Request

namespace Scan

variable {α : Type} {s : Scan α} {before rs : List (Request Value α)}

theorem Distinct.apply (h : Distinct s.entries) (r : Request Value α) :
    Distinct (scans.apply s r).entries := by
  cases r with
  | insert key a => exact h.put key a
  | find key => exact h
  | erase key => exact h.eraseP key

theorem find?_apply (h : Distinct s.entries) (r : Request Value α) (key : Value) :
    (scans.apply s r).find? key = r.update key (s.find? key) := by
  cases r with
  | insert k a => exact find?_insert s k a key
  | find k => rfl
  | erase k => exact find?_erase h k key

/-- The entries are what the requests have left. -/
structure Reflects (s : Scan α) (rs : List (Request Value α)) : Prop where
  distinct : Distinct s.entries
  find?_eq : ∀ key, s.find? key = latest rs key

theorem Reflects.empty : (Scan.empty : Scan α).Reflects [] where
  distinct := List.Pairwise.nil
  find?_eq _ := rfl

theorem Reflects.apply (h : s.Reflects rs) (r : Request Value α) :
    (scans.apply s r).Reflects (rs ++ [r]) where
  distinct := h.distinct.apply r
  find?_eq key := by rw [find?_apply h.distinct, h.find?_eq, latest_concat]

theorem Reflects.run (h : s.Reflects before) (rs : List (Request Value α)) :
    (scans.run s rs).1.map (·.found) = expected before rs ∧
      (scans.run s rs).2.Reflects (before ++ rs) := by
  induction rs generalizing s before with
  | nil =>
    rw [List.append_nil]
    exact ⟨rfl, h⟩
  | cons r rs ih =>
    obtain ⟨hfound, hlast⟩ := ih (h.apply r)
    rw [List.append_assoc] at hlast
    refine ⟨?_, hlast⟩
    exact congrArg₂ List.cons (h.find?_eq r.key) hfound

theorem Reflects.absent_iff (h : s.Reflects rs) (key : Value) :
    latest rs key = none ↔ ∀ e ∈ s.entries, (e.1 == key) = false := by
  rw [← h.find?_eq, Scan.find?_eq, Option.map_eq_none_iff, List.find?_eq_none]
  simp only [Bool.not_eq_true]

theorem Reflects.latest_of_mem (h : s.Reflects rs) {e : Value × α} (he : e ∈ s.entries) :
    latest rs e.1 = some e.2 := by
  have hfind := h.distinct.find?_eq_some_iff.2 ⟨he, BEq.refl e.1⟩
  rw [← h.find?_eq, Scan.find?_eq, hfind, Option.map_some]

end Scan

namespace Table

variable {n : Nat} {assign : HashCode → Fin n} {α : Type} {K : Value → Prop}

/-- A table mirrors a scan whose keys are of one sort. -/
structure MirrorsOver (K : Value → Prop) (t : Table assign α) (s : Scan α) : Prop extends
    t.Mirrors s where
  keys : ∀ e ∈ s.entries, K e.1

theorem MirrorsOver.empty : (Table.empty : Table assign α).MirrorsOver K Scan.empty where
  toMirrors := Mirrors.empty
  keys := nofun

variable {t : Table assign α} {s : Scan α}
variable (hK : ∀ v u, K v → K u → v == u → v.hashCode = u.hashCode)
include hK

theorem MirrorsOver.find?_eq (h : t.MirrorsOver K s) {key : Value} (hkey : K key) :
    t.find? key = s.find? key :=
  h.toMirrors.find?_eq fun e he => hK e.1 key (h.keys e he) hkey

theorem MirrorsOver.apply (h : t.MirrorsOver K s) {r : Request Value α} (hr : K r.key) :
    ((tables assign).apply t r).MirrorsOver K (scans.apply s r) := by
  have hhash : ∀ e ∈ s.entries, e.1 == r.key → e.1.hashCode = r.key.hashCode :=
    fun e he => hK e.1 r.key (h.keys e he) hr
  cases r with
  | insert key a =>
    refine ⟨h.toMirrors.insert hhash a, fun e he => ?_⟩
    rcases Scan.mem_keys_put he with hkey | ⟨d, hd, hkey⟩
    · rw [hkey]
      exact hr
    · rw [← hkey]
      exact h.keys d hd
  | find key => exact h
  | erase key => exact ⟨h.toMirrors.erase hhash, fun e he => h.keys e (List.mem_of_mem_eraseP he)⟩

theorem MirrorsOver.serve (h : t.MirrorsOver K s) {r : Request Value α} (hr : K r.key) :
    ((tables assign).serve t r).1 = (scans.serve s r).1 := by
  have hfound := h.find?_eq hK hr
  have hsize := (h.apply hK hr).size_eq
  exact congrArg₂ Reply.mk hfound hsize

theorem MirrorsOver.run (h : t.MirrorsOver K s) {rs : List (Request Value α)}
    (hrs : ∀ r ∈ rs, K r.key) :
    ((tables assign).run t rs).1 = (scans.run s rs).1 ∧
      ((tables assign).run t rs).2.MirrorsOver K (scans.run s rs).2 := by
  induction rs generalizing t s with
  | nil => exact ⟨rfl, h⟩
  | cons r rs ih =>
    obtain ⟨hr, hrs⟩ := List.forall_mem_cons.1 hrs
    obtain ⟨hreplies, hlast⟩ := ih (h.apply hK hr) hrs
    exact ⟨congrArg₂ List.cons (h.serve hK hr) hreplies, hlast⟩

end Table
end ScriptValues
