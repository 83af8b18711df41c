import Mathlib.Data.List.Induction
import ScriptValues.Proofs.Skeletons

/-! Hash codes collide where the skeletons do, or else the hash of byte strings does: from two values
with one hash code and two skeletons, two byte strings can be read off that were hashed on the way,
differ, and have one hash. A byte string of sixteen bytes is hashed for the last element of a list
and for nothing else, as long as no text has that size. -/

namespace ScriptValues

/-- A hash code, and the byte strings that were hashed on the way to it. -/
structure Hashing where
  code : HashCode
  queries : List ByteArray

namespace Hashing

def ofBytes (bytes : ByteArray) : Hashing :=
  ⟨.ofBytes bytes, [bytes]⟩

def combine (seed value : Hashing) : Hashing :=
  ⟨.combine seed.code value.code,
    seed.queries ++ value.queries ++ [HashCode.combineBytes seed.code value.code]⟩

variable (seed value : Hashing)

theorem seed_subset_combine : seed.queries ⊆ (seed.combine value).queries :=
  fun _ h => List.mem_append_left _ (List.mem_append_left _ h)

theorem value_subset_combine : value.queries ⊆ (seed.combine value).queries :=
  fun _ h => List.mem_append_left _ (List.mem_append_right _ h)

theorem last_mem_combine :
    HashCode.combineBytes seed.code value.code ∈ (seed.combine value).queries :=
  List.mem_append_right _ (List.mem_singleton_self _)

end Hashing

def Function.hashing : Function → Hashing
  | compiler id _ => .ofBytes (Bytes.ofWord id.toUInt64)
  | host r => .ofBytes r.signature.toByteArray

namespace Value

mutual
def hashing : Value → Hashing
  | null => .ofBytes nullBytes
  | boolean b => .ofBytes (booleanBytes b)
  | string s => .ofBytes s.toByteArray
  | list vs => hashingItems (.ofBytes (Bytes.ofWord vs.length.toUInt64)) vs
  | function f => f.hashing

def hashingItems : Hashing → List Value → Hashing
  | seed, [] => seed
  | seed, v :: vs => hashingItems (.combine seed (hashing v)) vs
end

theorem code_hashingItems {vs : List Value} (h : ∀ v ∈ vs, v.hashing.code = v.hashCode)
    (seed : Hashing) : (hashingItems seed vs).code = hashItems seed.code vs := by
  induction vs generalizing seed with
  | nil => rfl
  | cons v vs ih =>
    obtain ⟨hv, hvs⟩ := List.forall_mem_cons.1 h
    rw [hashingItems, ih hvs, Hashing.combine, hv, hashItems]

/-- The byte strings are those of the hash code itself. -/
theorem code_hashing (v : Value) : v.hashing.code = v.hashCode := by
  induction v with
  | null => rfl
  | boolean b => rfl
  | string s => rfl
  | function f => cases f <;> rfl
  | list vs ih =>
    rw [hashing, code_hashingItems ih, hashCode]
    rfl

/-- The hashing of elements from a word. For a list the word is its length. -/
def hashingFrom (word : UInt64) (vs : List Value) : Hashing :=
  hashingItems (.ofBytes (Bytes.ofWord word)) vs

theorem hashingItems_concat (seed : Hashing) (vs : List Value) (v : Value) :
    hashingItems seed (vs ++ [v]) = .combine (hashingItems seed vs) v.hashing := by
  induction vs generalizing seed with
  | nil => rfl
  | cons u vs ih => exact ih (.combine seed u.hashing)

theorem hashingFrom_concat (word : UInt64) (vs : List Value) (v : Value) :
    hashingFrom word (vs ++ [v]) = .combine (hashingFrom word vs) v.hashing :=
  hashingItems_concat _ vs v

end Value

/-- Two of the byte strings differ and have one hash. -/
def Collides (qs : List ByteArray) : Prop :=
  ∃ x ∈ qs, ∃ y ∈ qs, x ≠ y ∧ HashCode.ofBytes x = HashCode.ofBytes y

theorem Collides.append_mono {qs qs' rs rs' : List ByteArray} (h : Collides (qs ++ rs))
    (hqs : qs ⊆ qs') (hrs : rs ⊆ rs') : Collides (qs' ++ rs') := by
  have hsub : qs ++ rs ⊆ qs' ++ rs' := List.append_subset.2
    ⟨List.subset_append_of_subset_left rs' hqs, List.subset_append_of_subset_right qs' hrs⟩
  obtain ⟨x, hx, y, hy, hne, heq⟩ := h
  exact ⟨x, hsub hx, y, hsub hy, hne, heq⟩

theorem eq_or_collides {x y : ByteArray} {qs : List ByteArray} (hx : x ∈ qs) (hy : y ∈ qs)
    (h : HashCode.ofBytes x = HashCode.ofBytes y) : x = y ∨ Collides qs :=
  or_iff_not_imp_left.2 fun hne => ⟨x, hx, y, hy, hne, h⟩

@[simp] theorem HashCode.size_combineBytes (seed value : HashCode) :
    (combineBytes seed value).size = 16 := by
  simp [combineBytes]

theorem HashCode.combineBytes_inj {s t v w : HashCode} (h : combineBytes s v = combineBytes t w) :
    s = t ∧ v = w := by
  have hleft : Bytes.ofWord s = Bytes.ofWord t := ByteArray.append_inj_left h rfl
  rw [combineBytes, combineBytes, hleft, ByteArray.append_right_inj] at h
  exact ⟨Bytes.ofWord_injective hleft, Bytes.ofWord_injective h⟩

namespace Value

/-- No text is as long as what is hashed for an element of a list. -/
def Clear (v : Value) : Prop :=
  ∀ t ∈ v.texts, t.utf8ByteSize ≠ 16

theorem clear_list {vs : List Value} : (list vs).Clear ↔ ∀ v ∈ vs, v.Clear := by
  simp only [Clear, texts, textsOfItems_eq_flatMap, List.mem_flatMap]
  constructor
  · intro h v hv t ht
    exact h t ⟨v, hv, ht⟩
  · rintro h t ⟨v, hv, ht⟩
    exact h v hv t ht

/-- The hash code is the hash of the word, or of the bytes for the last element. -/
theorem exists_query_from (word : UInt64) (vs : List Value) :
    ∃ q ∈ (hashingFrom word vs).queries, HashCode.ofBytes q = (hashingFrom word vs).code ∧
      (vs = [] ∧ q = Bytes.ofWord word ∨ vs ≠ [] ∧ q.size = 16) := by
  rcases List.eq_nil_or_concat' vs with rfl | ⟨vs, v, rfl⟩
  · exact ⟨_, List.mem_singleton_self _, rfl, Or.inl ⟨rfl, rfl⟩⟩
  · rw [hashingFrom_concat]
    refine ⟨_, Hashing.last_mem_combine _ _, rfl, Or.inr ⟨?_, ?_⟩⟩
    · exact List.append_ne_nil_of_right_ne_nil _ (List.cons_ne_nil _ _)
    · exact HashCode.size_combineBytes _ _

/-- The hash code is the hash of a leaf's own bytes, or of the bytes for the last element. -/
theorem exists_query (v : Value) (hv : v.Clear) :
    ∃ q ∈ v.hashing.queries, HashCode.ofBytes q = v.hashing.code ∧
      (v.skeleton = .leaf q ∧ q.size ≠ 16 ∨ (∃ vs, v = list vs) ∧ q.size = 16) := by
  cases v with
  | null => exact ⟨_, List.mem_singleton_self _, rfl, Or.inl ⟨rfl, nofun⟩⟩
  | boolean b => exact ⟨_, List.mem_singleton_self _, rfl, Or.inl ⟨rfl, nofun⟩⟩
  | string s =>
    have hsize := hv s (List.mem_singleton_self s)
    rw [← String.size_toByteArray] at hsize
    exact ⟨_, List.mem_singleton_self _, rfl, Or.inl ⟨rfl, hsize⟩⟩
  | function f =>
    cases f with
    | compiler id t => exact ⟨_, List.mem_singleton_self _, rfl, Or.inl ⟨rfl, nofun⟩⟩
    | host r =>
      have hsize := hv r.signature (List.mem_singleton_self r.signature)
      rw [← String.size_toByteArray] at hsize
      exact ⟨_, List.mem_singleton_self _, rfl, Or.inl ⟨rfl, hsize⟩⟩
  | list vs =>
    obtain ⟨q, hq, hcode, ⟨rfl, rfl⟩ | ⟨-, hsize⟩⟩ := exists_query_from vs.length.toUInt64 vs
    · exact ⟨_, hq, hcode, Or.inl ⟨rfl, nofun⟩⟩
    · exact ⟨q, hq, hcode, Or.inr ⟨⟨vs, rfl⟩, hsize⟩⟩

section Colliding

variable {v w : Value} {vs ws : List Value} {m n : UInt64}

theorem nil_iff_or_collides (h : (hashingFrom m vs).code = (hashingFrom n ws).code) :
    (vs = [] ↔ ws = []) ∨ Collides ((hashingFrom m vs).queries ++ (hashingFrom n ws).queries) := by
  obtain ⟨q, hq, hqcode, hqs⟩ := exists_query_from m vs
  obtain ⟨r, hr, hrcode, hrs⟩ := exists_query_from n ws
  have hcode := hqcode.trans (h.trans hrcode.symm)
  rcases eq_or_collides (List.mem_append_left _ hq) (List.mem_append_right _ hr) hcode with rfl | hc
  · refine Or.inl ?_
    rcases hqs with ⟨hvs, rfl⟩ | ⟨hvs, hqsize⟩
    · rcases hrs with ⟨hws, -⟩ | ⟨-, hsize⟩
      · exact iff_of_true hvs hws
      · cases hsize
    · rcases hrs with ⟨-, rfl⟩ | ⟨hws, -⟩
      · cases hqsize
      · exact iff_of_false hvs hws
  · exact Or.inr hc

/-- What is to be shown of two values, and is by induction on the first. -/
def Apart (v w : Value) : Prop :=
  v.hashing.code = w.hashing.code →
    v.skeleton = w.skeleton ∨ Collides (v.hashing.queries ++ w.hashing.queries)

/-- From the last elements to the first: as long as the bytes hashed for them agree, so do the
elements' hash codes and the seeds before them. -/
theorem skeletons_eq_or_collides (hapart : ∀ v ∈ vs, ∀ w ∈ ws, Apart v w)
    (h : (hashingFrom m vs).code = (hashingFrom n ws).code) :
    vs.map skeleton = ws.map skeleton ∨
      Collides ((hashingFrom m vs).queries ++ (hashingFrom n ws).queries) := by
  induction vs using List.reverseRecOn generalizing ws with
  | nil =>
    rcases nil_iff_or_collides h with hnil | hc
    · rw [hnil.1 rfl]
      exact Or.inl rfl
    · exact Or.inr hc
  | append_singleton vs v ih =>
    rcases List.eq_nil_or_concat' ws with rfl | ⟨ws, w, rfl⟩
    · rcases nil_iff_or_collides h with hnil | hc
      · rw [hnil.2 rfl]
        exact Or.inl rfl
      · exact Or.inr hc
    · rw [hashingFrom_concat, hashingFrom_concat] at h ⊢
      have hx := Hashing.last_mem_combine (hashingFrom m vs) v.hashing
      have hy := Hashing.last_mem_combine (hashingFrom n ws) w.hashing
      rcases eq_or_collides (List.mem_append_left _ hx) (List.mem_append_right _ hy) h with heq | hc
      · obtain ⟨hseed, hcode⟩ := HashCode.combineBytes_inj heq
        have hbefore : ∀ v ∈ vs, ∀ w ∈ ws, Apart v w := fun v hv w hw =>
          hapart v (List.mem_append_left _ hv) w (List.mem_append_left _ hw)
        have hlast : Apart v w := hapart v (List.mem_append_right _ (List.mem_singleton_self v)) w
          (List.mem_append_right _ (List.mem_singleton_self w))
        rcases ih hbefore hseed with hmap | hc
        · rcases hlast hcode with hskeleton | hc
          · left
            simp only [List.map_append, List.map_cons, List.map_nil, hmap, hskeleton]
          · exact Or.inr (hc.append_mono (Hashing.value_subset_combine _ _)
              (Hashing.value_subset_combine _ _))
        · exact Or.inr (hc.append_mono (Hashing.seed_subset_combine _ _)
            (Hashing.seed_subset_combine _ _))
      · exact Or.inr hc

theorem apart_or_lists (hv : v.Clear) (hw : w.Clear) :
    Apart v w ∨ ∃ vs ws, v = list vs ∧ w = list ws := by
  obtain ⟨q, hq, hqcode, hqs⟩ := exists_query v hv
  obtain ⟨r, hr, hrcode, hrs⟩ := exists_query w hw
  by_cases hqr : q = r
  · subst hqr
    rcases hqs with ⟨hleaf, hsize⟩ | ⟨⟨vs, rfl⟩, hsize⟩
    · rcases hrs with ⟨hleaf', -⟩ | ⟨-, hsize'⟩
      · exact Or.inl fun _ => Or.inl (hleaf.trans hleaf'.symm)
      · exact absurd hsize' hsize
    · rcases hrs with ⟨-, hsize'⟩ | ⟨⟨ws, rfl⟩, -⟩
      · exact absurd hsize hsize'
      · exact Or.inr ⟨vs, ws, rfl, rfl⟩
  · refine Or.inl fun h => Or.inr ?_
    exact ⟨q, List.mem_append_left _ hq, r, List.mem_append_right _ hr, hqr,
      hqcode.trans (h.trans hrcode.symm)⟩

theorem apart (hv : v.Clear) (hw : w.Clear) : Apart v w := by
  induction v generalizing w with
  | list vs ih =>
    rcases apart_or_lists hv hw with h | ⟨_, ws, _, rfl⟩
    · exact h
    · have hitems : ∀ v ∈ vs, ∀ w ∈ ws, Apart v w := fun v hv' w hw' =>
        ih v hv' (clear_list.1 hv v hv') (clear_list.1 hw w hw')
      intro h
      rw [skeleton_list_eq_iff]
      exact skeletons_eq_or_collides hitems h
  | _ =>
    rcases apart_or_lists hv hw with h | ⟨_, _, heq, _⟩
    · exact h
    · cases heq

end Colliding

/-- Equal skeletons have equal hash codes; and equal hash codes are of equal skeletons, unless two
byte strings on the way collide. -/
theorem hashCode_eq_of_skeleton_or_collision (a b : Value) :
    (a.skeleton = b.skeleton → a.hashCode = b.hashCode) ∧
    ((∀ t ∈ a.texts ++ b.texts, t.utf8ByteSize ≠ 16) → a.hashCode = b.hashCode →
      a.skeleton = b.skeleton ∨ Collides (a.hashing.queries ++ b.hashing.queries)) ∧
    (a.hashing.code = a.hashCode ∧ b.hashing.code = b.hashCode) ∧
    (∀ vs ws, a = list vs → b = list ws →
      (a.skeleton = b.skeleton ↔ vs.map skeleton = ws.map skeleton)) := by
  refine ⟨?_, ?_, ⟨code_hashing a, code_hashing b⟩, ?_⟩
  · intro h
    rw [← hashCode_skeleton, h, hashCode_skeleton]
  · intro htexts h
    obtain ⟨ha, hb⟩ := List.forall_mem_append.1 htexts
    rw [← code_hashing a, ← code_hashing b] at h
    exact apart ha hb h
  · rintro vs ws rfl rfl
    exact skeleton_list_eq_iff

def mixed : Value :=
  list [string "size($n)", function (.host ⟨⟨0⟩, "map-get($m, $k)", ⟨⟨0⟩, ⟨0⟩⟩⟩), list [],
    function (.compiler 0 ⟨⟨0⟩, 1⟩)]

/-- The same texts the other way round, and a function zero for the empty list. -/
def mixedUp : Value :=
  list [function (.host ⟨⟨1⟩, "size($n)", ⟨⟨1⟩, ⟨1⟩⟩⟩), string "map-get($m, $k)",
    function (.compiler 0 ⟨⟨1⟩, 2⟩), list []]

theorem mixed_meets_mixedUp :
    (∀ t ∈ mixed.texts ++ mixedUp.texts, t.utf8ByteSize ≠ 16) ∧ (mixed == mixedUp) = false ∧
    mixed.hashCode = mixedUp.hashCode ∧
    (mixed.skeleton = mixedUp.skeleton ∨
      Collides (mixed.hashing.queries ++ mixedUp.hashing.queries)) := by
  have htexts : ∀ t ∈ mixed.texts ++ mixedUp.texts, t.utf8ByteSize ≠ 16 := by decide
  obtain ⟨hsame, hback, -, hitems⟩ := hashCode_eq_of_skeleton_or_collision mixed mixedUp
  have hskeleton : mixed.skeleton = mixedUp.skeleton := (hitems _ _ rfl rfl).2 rfl
  have hcode := hsame hskeleton
  exact ⟨htexts, rfl, hcode, hback htexts hcode⟩

end Value
end ScriptValues
