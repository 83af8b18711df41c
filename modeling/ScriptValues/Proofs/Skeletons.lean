import ScriptValues.Proofs.Equality

/-! The skeleton of a value is what its hash code sees: bytes at the leaves, and the lists above them.
Values of one skeleton are meant to collide. -/

namespace ScriptValues

inductive Skeleton where
  | leaf (bytes : ByteArray)
  | node (children : List Skeleton)

namespace Skeleton

mutual
def hashCode : Skeleton → HashCode
  | leaf bytes => .ofBytes bytes
  | node ks => hashChildren (.ofWord ks.length.toUInt64) ks

def hashChildren : HashCode → List Skeleton → HashCode
  | seed, [] => seed
  | seed, k :: ks => hashChildren (.combine seed (hashCode k)) ks
end

end Skeleton

namespace Value

mutual
/-- The empty list is a leaf, because what is hashed for it is the word zero and nothing more. -/
def skeleton : Value → Skeleton
  | null => .leaf ⟨#[0]⟩
  | boolean b => .leaf ⟨#[1, if b then 1 else 0]⟩
  | string s => .leaf s.toByteArray
  | list [] => .leaf (Bytes.zeros 8)
  | list (v :: vs) => .node (skeleton v :: skeletons vs)
  | function (.compiler id _) => .leaf (Bytes.ofWord id.toUInt64)
  | function (.host r) => .leaf r.signature.toByteArray

def skeletons : List Value → List Skeleton
  | [] => []
  | v :: vs => skeleton v :: skeletons vs
end

mutual
/-- The texts that are hashed as they are: strings, and the signatures of host functions. -/
def texts : Value → List String
  | null | boolean _ | function (.compiler ..) => []
  | string s => [s]
  | list vs => textsOfItems vs
  | function (.host r) => [r.signature]

def textsOfItems : List Value → List String
  | [] => []
  | v :: vs => texts v ++ textsOfItems vs
end

theorem skeletons_eq_map (vs : List Value) : skeletons vs = vs.map skeleton := by
  induction vs with
  | nil => rfl
  | cons v vs ih => simp [skeletons, ih]

theorem textsOfItems_eq_flatMap (vs : List Value) : textsOfItems vs = vs.flatMap texts := by
  induction vs with
  | nil => rfl
  | cons v vs ih => simp [textsOfItems, ih]

theorem skeleton_cons (v : Value) (vs : List Value) :
    (list (v :: vs)).skeleton = .node ((v :: vs).map skeleton) := by
  simp [skeleton, skeletons_eq_map]

/-- Lists have one skeleton when their elements have, in order. -/
theorem skeleton_list_eq_iff {vs ws : List Value} :
    (list vs).skeleton = (list ws).skeleton ↔ vs.map skeleton = ws.map skeleton := by
  cases vs with
  | nil =>
    cases ws with
    | nil => exact iff_of_true rfl rfl
    | cons w ws => exact iff_of_false nofun nofun
  | cons v vs =>
    cases ws with
    | nil => exact iff_of_false nofun nofun
    | cons w ws => rw [skeleton_cons, skeleton_cons, Skeleton.node.injEq]

theorem hashChildren_map {vs : List Value} (h : ∀ v ∈ vs, v.skeleton.hashCode = v.hashCode)
    (seed : HashCode) : Skeleton.hashChildren seed (vs.map skeleton) = hashItems seed vs := by
  induction vs generalizing seed with
  | nil => rfl
  | cons v vs ih =>
    obtain ⟨hv, hvs⟩ := List.forall_mem_cons.1 h
    rw [List.map_cons, Skeleton.hashChildren, hv, ih hvs, hashItems]

/-- The hash code is that of the skeleton. -/
theorem hashCode_skeleton (v : Value) : v.skeleton.hashCode = v.hashCode := by
  induction v with
  | null => rfl
  | boolean b => rfl
  | string s => rfl
  | function f => cases f <;> rfl
  | list vs ih =>
    cases vs with
    | nil =>
      have hzero : Bytes.zeros 8 = Bytes.ofWord 0 := rfl
      rw [skeleton, hzero]
      rfl
    | cons v vs =>
      rw [skeleton_cons, Skeleton.hashCode, hashChildren_map ih, List.length_map, hashCode]

end Value
end ScriptValues
