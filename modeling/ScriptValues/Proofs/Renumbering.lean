import ScriptValues.Function.Descriptor
import ScriptValues.Proofs.Equality
import ScriptValues.Session.Store
import ScriptValues.Value.Listing

/-! Values with other serials. Counting the contexts from another first serial changes what the tokens
show and nothing else: equality, hash codes, displays and types come out as before, and so does
whatever a table finds. -/

namespace ScriptValues

/-- The serial of a context when the first context has the given one. -/
def ContextId.serialFrom (first : UInt64) (id : ContextId) : UInt64 :=
  first + id.ordinal.toUInt64

theorem ContextId.serialFrom_succ (first : UInt64) (k : Nat) :
    serialFrom first ⟨k + 1⟩ = serialFrom first ⟨k⟩ + 1 := by
  rw [serialFrom, serialFrom, UInt64.add_assoc]
  exact congrArg (first + ·) (UInt64.ofNat_add k 1)

theorem ContextId.serialFrom_zero (first : UInt64) : serialFrom first ⟨0⟩ = first :=
  UInt64.add_zero first

def Token.renumber (first : UInt64) (t : Token) : Token :=
  ⟨t.context, t.context.serialFrom first⟩

def Context.renumber (first : UInt64) (c : Context) : Context :=
  ⟨c.id, c.id.serialFrom first⟩

def Function.renumber (first : UInt64) : Function → Function
  | compiler id t => compiler id (t.renumber first)
  | host r => host r

namespace Value

mutual
def renumber (first : UInt64) : Value → Value
  | null => null
  | boolean b => boolean b
  | string s => string s
  | list vs => list (renumberItems first vs)
  | function f => function (f.renumber first)

def renumberItems (first : UInt64) : List Value → List Value
  | [] => []
  | v :: vs => renumber first v :: renumberItems first vs
end

theorem renumberItems_eq_map (first : UInt64) (vs : List Value) :
    renumberItems first vs = vs.map (renumber first) := by
  induction vs with
  | nil => rfl
  | cons v vs ih => rw [renumberItems, List.map_cons, ih]

theorem renumber_list (first : UInt64) (vs : List Value) :
    (list vs).renumber first = list (vs.map (renumber first)) := by
  rw [renumber, renumberItems_eq_map]

end Value

def Scan.renumber {α : Type} (first : UInt64) (s : Scan α) : Scan α :=
  ⟨s.entries.map fun e => (e.1.renumber first, e.2)⟩

def Table.renumber {n : Nat} {assign : HashCode → Fin n} {α : Type} (first : UInt64)
    (t : Table assign α) : Table assign α :=
  ⟨t.buckets.map (Scan.renumber first)⟩

variable (first : UInt64)

namespace Token

@[simp] theorem renumber_beq_renumber (t u : Token) :
    (t.renumber first == u.renumber first) = (t == u) := rfl

@[simp] theorem feed_renumber (t : Token) : (t.renumber first).feed = t.feed := rfl

@[simp] theorem belongsTo_renumber (t : Token) (c : Context) :
    (t.renumber first).belongsTo (c.renumber first) = t.belongsTo c := rfl

theorem contains_renumber (seen : List Token) (t : Token) :
    (seen.map (renumber first)).contains (t.renumber first) = seen.contains t := by
  induction seen with
  | nil => rfl
  | cons u seen ih => simp only [List.map_cons, List.contains_cons, renumber_beq_renumber, ih]

theorem firsts_renumber (seen ts : List Token) :
    firsts (seen.map (renumber first)) (ts.map (renumber first)) = firsts seen ts := by
  induction ts generalizing seen with
  | nil => rfl
  | cons t ts ih =>
    rw [List.map_cons, firsts, firsts, contains_renumber, ih, ← ih (t :: seen), List.map_cons]

end Token

namespace Function

variable (f g : Function)

@[simp] theorem renumber_beq_renumber : (f.renumber first == g.renumber first) = (f == g) := by
  cases f <;> cases g <;> rfl

@[simp] theorem hashCode_renumber : (f.renumber first).hashCode = f.hashCode := by
  cases f <;> rfl

@[simp] theorem feed_renumber : (f.renumber first).feed = f.feed := by
  rw [feed, feed, hashCode_renumber]

@[simp] theorem display_renumber : (f.renumber first).display = f.display := by
  cases f <;> rfl

@[simp] theorem sameCallback?_renumber :
    (f.renumber first).sameCallback? (g.renumber first) = f.sameCallback? g := by
  cases f <;> cases g <;> rfl

@[simp] theorem context?_renumber :
    (f.renumber first).context? = f.context?.map (Token.renumber first) := by
  cases f <;> rfl

end Function

namespace Value

@[simp] theorem typeName_renumber (v : Value) : (v.renumber first).typeName = v.typeName := by
  cases v <;> rfl

@[simp] theorem function?_renumber (v : Value) :
    (v.renumber first).function? = v.function?.map (Function.renumber first) := by
  cases v <;> rfl

theorem beqItems_renumber {vs : List Value} (h : ∀ v ∈ vs, ∀ w : Value,
    (v.renumber first == w.renumber first) = (v == w)) (ws : List Value) :
    beqItems (vs.map (renumber first)) (ws.map (renumber first)) = beqItems vs ws := by
  induction vs generalizing ws with
  | nil => cases ws <;> rfl
  | cons v vs ih =>
    obtain ⟨hv, hvs⟩ := List.forall_mem_cons.1 h
    cases ws with
    | nil => rfl
    | cons w ws =>
      rw [List.map_cons, List.map_cons, beqItems, beqItems, ih hvs ws]
      exact congrArg (· && _) (hv w)

@[simp] theorem renumber_beq_renumber (v w : Value) :
    (v.renumber first == w.renumber first) = (v == w) := by
  induction v generalizing w with
  | list vs ih =>
    cases w with
    | list ws =>
      rw [renumber_list, renumber_list, list_beq_list, list_beq_list]
      exact beqItems_renumber first ih ws
    | _ => rfl
  | function f =>
    cases w with
    | function g => exact f.renumber_beq_renumber first g
    | _ => rfl
  | _ => cases w <;> rfl

theorem hashItems_renumber {vs : List Value} (h : ∀ v ∈ vs, (v.renumber first).hashCode = v.hashCode)
    (seed : HashCode) : hashItems seed (vs.map (renumber first)) = hashItems seed vs := by
  induction vs generalizing seed with
  | nil => rfl
  | cons v vs ih =>
    obtain ⟨hv, hvs⟩ := List.forall_mem_cons.1 h
    rw [List.map_cons, hashItems, hashItems, hv, ih hvs]

@[simp] theorem hashCode_renumber (v : Value) : (v.renumber first).hashCode = v.hashCode := by
  induction v with
  | list vs ih =>
    rw [renumber_list, hashCode, hashCode, List.length_map, hashItems_renumber first ih]
  | function f => exact f.hashCode_renumber first
  | _ => rfl

@[simp] theorem feed_renumber (v : Value) : (v.renumber first).feed = v.feed := by
  rw [feed, feed, hashCode_renumber]

theorem shown_renumber (v : Value) : (v.renumber first).shown = v.shown := by
  induction v with
  | list vs ih =>
    rw [renumber_list, shown, shown, shownItems_eq_map, shownItems_eq_map, List.map_map]
    exact congrArg _ (List.map_congr_left ih)
  | function f => exact congrArg Text.Outline.word (f.display_renumber first)
  | _ => rfl

@[simp] theorem display_renumber (v : Value) : (v.renumber first).display = v.display := by
  rw [display, display, shown_renumber]

theorem nest_renumber (n : Nat) (v : Value) :
    (v.nest n).renumber first = (v.renumber first).nest n := by
  induction n generalizing v with
  | zero => rfl
  | succ n ih =>
    rw [nest, nest, ih, renumber_list, List.map_singleton]

end Value

section Tables

variable {α : Type} {n : Nat} {assign : HashCode → Fin n} (key : Value)

namespace Scan

@[simp] theorem find?_renumber (s : Scan α) :
    (s.renumber first).find? (key.renumber first) = s.find? key := by
  rw [find?, find?, renumber, List.findSome?_map]
  refine congrArg (List.findSome? · s.entries) (funext fun e => ?_)
  simp only [Function.comp_apply, Value.renumber_beq_renumber]

theorem put_renumber (a : α) (es : List (Value × α)) :
    put (key.renumber first) a (es.map fun e => (e.1.renumber first, e.2)) =
      (put key a es).map fun e => (e.1.renumber first, e.2) := by
  induction es with
  | nil => rfl
  | cons e es ih =>
    simp only [List.map_cons, put, Value.renumber_beq_renumber, ih]
    split <;> rfl

theorem insert_renumber (s : Scan α) (a : α) :
    (s.renumber first).insert (key.renumber first) a = (s.insert key a).renumber first :=
  congrArg Scan.mk (put_renumber first key a s.entries)

theorem erase_renumber (s : Scan α) :
    (s.renumber first).erase (key.renumber first) = (s.erase key).renumber first := by
  refine congrArg Scan.mk ?_
  rw [renumber, List.eraseP_map]
  simp only [Function.comp_def, Value.renumber_beq_renumber]
  rfl

end Scan

namespace Table

variable (t : Table assign α)

theorem empty_renumber : (Table.empty : Table assign α).renumber first = .empty :=
  congrArg Table.mk Vector.map_replicate

theorem bucket_renumber :
    (t.renumber first).bucket (key.renumber first) = (t.bucket key).renumber first := by
  rw [bucket, bucket, Value.hashCode_renumber]
  exact Vector.getElem_map _ _

@[simp] theorem find?_renumber : (t.renumber first).find? (key.renumber first) = t.find? key := by
  rw [find?, find?, bucket_renumber, Scan.find?_renumber]

@[simp] theorem contains_renumber :
    (t.renumber first).contains (key.renumber first) = t.contains key := by
  rw [contains, contains, find?_renumber]

theorem modify_renumber {f g : Scan α → Scan α} (h : ∀ s, f (s.renumber first) = (g s).renumber first) :
    (t.renumber first).modify (key.renumber first) f = (t.modify key g).renumber first := by
  refine congrArg Table.mk ?_
  simp only [bucket_renumber, Value.hashCode_renumber, h]
  exact Vector.map_set.symm

theorem insert_renumber (a : α) :
    (t.renumber first).insert (key.renumber first) a = (t.insert key a).renumber first :=
  t.modify_renumber first key fun s => s.insert_renumber first key a

theorem erase_renumber :
    (t.renumber first).erase (key.renumber first) = (t.erase key).renumber first :=
  t.modify_renumber first key fun s => s.erase_renumber first key

theorem entries_renumber :
    (t.renumber first).entries = t.entries.map fun e => (e.1.renumber first, e.2) := by
  simp only [entries, renumber, Vector.toList_map, List.flatMap_map, List.map_flatMap, Scan.renumber]

theorem keys_renumber : (t.renumber first).keys = t.keys.map (Value.renumber first) := by
  rw [keys, keys, entries_renumber, List.map_map, List.map_map]
  rfl

@[simp] theorem size_renumber : (t.renumber first).size = t.size := by
  rw [size, size, entries_renumber, List.length_map]

theorem filter_renumber {p q : Value × α → Bool} (h : ∀ e, p (e.1.renumber first, e.2) = q e) :
    (t.renumber first).filter p = (t.filter q).renumber first := by
  refine congrArg Table.mk ?_
  rw [renumber, Vector.map_map, filter, Vector.map_map]
  refine congrArg (Vector.map · t.buckets) (funext fun s => congrArg Scan.mk ?_)
  simp only [Scan.renumber, List.filter_map, Function.comp_def, h]
  rfl

end Table

theorem Line.ofValue_renumber (v : Value) : Line.ofValue (v.renumber first) = .ofValue v := by
  rw [ofValue, ofValue, Value.display_renumber, Value.hashCode_renumber]

namespace Table

variable (a b : Table assign Unit)

theorem foldl_insert_renumber (vs : List Value) :
    (vs.map (Value.renumber first)).foldl (fun t v => t.insert v ()) (a.renumber first) =
      (vs.foldl (fun t v => t.insert v ()) a).renumber first := by
  induction vs generalizing a with
  | nil => rfl
  | cons v vs ih => rw [List.map_cons, List.foldl_cons, List.foldl_cons, insert_renumber, ih]

theorem ofList_renumber (vs : List Value) :
    (ofList (vs.map (Value.renumber first)) : Table assign Unit) = (ofList vs).renumber first := by
  rw [ofList, ofList, ← foldl_insert_renumber, empty_renumber]

theorem union_renumber : (a.renumber first).union (b.renumber first) = (a.union b).renumber first := by
  rw [union, union, keys_renumber, foldl_insert_renumber]

theorem inter_renumber : (a.renumber first).inter (b.renumber first) = (a.inter b).renumber first :=
  a.filter_renumber first fun e => b.contains_renumber first e.1

theorem diff_renumber : (a.renumber first).diff (b.renumber first) = (a.diff b).renumber first :=
  a.filter_renumber first fun e => congrArg not (b.contains_renumber first e.1)

@[simp] theorem subset_renumber : (a.renumber first).subset (b.renumber first) = a.subset b := by
  rw [subset, subset, keys_renumber, List.all_map]
  exact congrArg a.keys.all (funext fun v => b.contains_renumber first v)

@[simp] theorem sameKeys_renumber : (a.renumber first).sameKeys (b.renumber first) = a.sameKeys b := by
  rw [sameKeys, sameKeys, size_renumber, size_renumber, subset_renumber]

@[simp] theorem listing_renumber : (a.renumber first).listing = a.listing := by
  rw [listing, listing, keys_renumber, List.map_map]
  refine congrArg (List.mergeSort · Line.le) (List.map_congr_left fun v _ => ?_)
  exact Line.ofValue_renumber first v

@[simp] theorem listingWith_renumber (t : Table assign String) :
    (t.renumber first).listingWith = t.listingWith := by
  rw [listingWith, listingWith, entries_renumber, List.map_map]
  refine congrArg (List.mergeSort · Line.leWith) (List.map_congr_left fun e _ => ?_)
  exact congrArg (·, e.2) (Line.ofValue_renumber first e.1)

end Table
end Tables
end ScriptValues
