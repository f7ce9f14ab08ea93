import GoblinZomboid.Shared.Writers
import Mathlib.Data.List.Nodup
import Mathlib.Data.List.Perm.Subperm
/-!
# Tables that are written

Under keys that are different, the first loop over a table finds an array
exactly for the keys from `1` to their number, and an object exactly for
strings.
-/

namespace GoblinZomboid

namespace JSON

/-! ## Keys -/

/-- The key of an index. -/
def indexKey (index : ℕ) : LuaKey := .num (.finite index)

/-- The keys of a dense array: `1` to their number. -/
def Dense (keys : List LuaKey) : Prop := keys.Perm ((List.range' 1 keys.length).map indexKey)

/-- The keys of an object, which has at least one. -/
def StringKeyed (keys : List LuaKey) : Prop := keys ≠ [] ∧ ∀ key ∈ keys, ∃ s, key = .str s

def strOf : LuaKey → Option Bytes
  | .str s => some s
  | _ => none

def isNumber : LuaKey → Bool
  | .num _ => true
  | _ => false

/-- The key is a string or an index. -/
def Visited (key : LuaKey) : Prop :=
  (∃ s, key = .str s) ∨ ∃ n index, key = .num n ∧ indexOf n = some index

/-- How a key moves the largest index; no index is `math.huge`. -/
def maxStep (maxIndex : Option ℕ) : LuaKey → Option ℕ
  | .num n =>
    match indexOf n with
    | some index => maxIndex.bind fun m => index.map (max m)
    | none => maxIndex
  | _ => maxIndex

theorem visitKey_eq_some {shape shape' : Shape} {key : LuaKey} :
    visitKey shape key = some shape' ↔ Visited key ∧ shape.nodes + 1 ≤ maxNodes ∧
      shape' = ⟨shape.count + 1, maxStep shape.maxIndex key, shape.isArray && (strOf key).isNone,
        shape.keys ++ (strOf key).toList, shape.nodes + 1⟩ := by
  unfold visitKey
  by_cases hnodes : maxNodes < shape.nodes + 1
  · rw [if_pos hnodes]
    exact ⟨nofun, fun h => absurd h.2.1 (by omega)⟩
  rw [if_neg hnodes]
  have hle : shape.nodes + 1 ≤ maxNodes := not_lt.1 hnodes
  cases key with
  | str s =>
    rw [Option.some_inj]
    have hshape : (shape.isArray && (strOf (.str s)).isNone) = false := Bool.and_false _
    rw [hshape]
    exact ⟨fun h => ⟨.inl ⟨s, rfl⟩, hle, h.symm⟩, fun h => h.2.2.symm⟩
  | bool b =>
    refine ⟨nofun, ?_⟩
    rintro ⟨⟨s, h⟩ | ⟨n, index, h, -⟩, -⟩ <;> cases h
  | num n =>
    dsimp only
    rcases hindex : indexOf n with _ | index
    · refine ⟨nofun, ?_⟩
      rintro ⟨⟨s, h⟩ | ⟨m, index, h, hm⟩, -⟩
      · cases h
      · obtain rfl := LuaKey.num.inj h
        rw [hindex] at hm
        cases hm
    · have hstep : maxStep shape.maxIndex (.num n) =
          shape.maxIndex.bind fun m => index.map (max m) := by
        rw [maxStep, hindex]
      have hshape : (shape.isArray && (strOf (.num n)).isNone) = shape.isArray := Bool.and_true _
      have hkeys : shape.keys ++ (strOf (.num n)).toList = shape.keys := List.append_nil _
      rw [Option.some_inj, hstep, hshape, hkeys]
      exact ⟨fun h => ⟨.inr ⟨n, index, rfl, hindex⟩, hle, h.symm⟩, fun h => h.2.2.symm⟩

/-- **What the first loop finds.** -/
theorem foldlM_visitKey {keys : List LuaKey} {shape shape' : Shape}
    (hnodes : shape.nodes ≤ maxNodes) :
    keys.foldlM visitKey shape = some shape' ↔ (∀ key ∈ keys, Visited key) ∧
      shape.nodes + keys.length ≤ maxNodes ∧
      shape' = ⟨shape.count + keys.length, keys.foldl maxStep shape.maxIndex,
        shape.isArray && !keys.any fun key => (strOf key).isSome,
        shape.keys ++ keys.filterMap strOf, shape.nodes + keys.length⟩ := by
  induction keys generalizing shape with
  | nil =>
    have hsame : (⟨shape.count + 0, shape.maxIndex, shape.isArray && !false, shape.keys ++ [],
        shape.nodes + 0⟩ : Shape) = shape := by
      rw [List.append_nil, Bool.not_false, Bool.and_true]
      rfl
    show some shape = some shape' ↔ _ ∧ _ ∧ shape' = ⟨shape.count + 0, shape.maxIndex,
      shape.isArray && !false, shape.keys ++ [], shape.nodes + 0⟩
    rw [hsame, Option.some_inj]
    exact ⟨fun h => ⟨nofun, hnodes, h.symm⟩, fun h => h.2.2.symm⟩
  | cons key keys ih =>
    rw [List.foldlM_cons]
    show (visitKey shape key).bind _ = _ ↔ _
    rw [Option.bind_eq_some_iff]
    have hkeys (base : List Bytes) : base ++ (strOf key).toList ++ keys.filterMap strOf =
        base ++ (key :: keys).filterMap strOf := by
      rw [List.append_assoc, List.filterMap_cons]
      cases strOf key <;> rfl
    have harray (b : Bool) : ((b && (strOf key).isNone) && !keys.any fun key => (strOf key).isSome) =
        (b && !(key :: keys).any fun key => (strOf key).isSome) := by
      rw [List.any_cons]
      cases strOf key <;> cases b <;> rfl
    have hend (middle : Shape) (hmiddle : middle = ⟨shape.count + 1, maxStep shape.maxIndex key,
        shape.isArray && (strOf key).isNone, shape.keys ++ (strOf key).toList, shape.nodes + 1⟩) :
        (⟨middle.count + keys.length, keys.foldl maxStep middle.maxIndex,
          middle.isArray && !keys.any fun key => (strOf key).isSome,
          middle.keys ++ keys.filterMap strOf, middle.nodes + keys.length⟩ : Shape) =
        ⟨shape.count + (key :: keys).length, (key :: keys).foldl maxStep shape.maxIndex,
          shape.isArray && !(key :: keys).any fun key => (strOf key).isSome,
          shape.keys ++ (key :: keys).filterMap strOf, shape.nodes + (key :: keys).length⟩ := by
      subst hmiddle
      dsimp only
      rw [hkeys, harray, List.length_cons, List.foldl_cons, Nat.add_assoc, Nat.add_assoc,
        Nat.add_comm 1]
    rw [List.forall_mem_cons, List.length_cons]
    constructor
    · rintro ⟨middle, hmiddle, hrest⟩
      obtain ⟨hvisited, hle, hshape⟩ := visitKey_eq_some.1 hmiddle
      have hmiddleNodes : middle.nodes = shape.nodes + 1 := by rw [hshape]
      obtain ⟨hall, hmax, hlast⟩ := (ih (by omega)).1 hrest
      refine ⟨⟨hvisited, hall⟩, by omega, ?_⟩
      rw [hlast, hend middle hshape, List.length_cons]
    · rintro ⟨⟨hvisited, hall⟩, hmax, hlast⟩
      refine ⟨_, visitKey_eq_some.2 ⟨hvisited, by omega, rfl⟩, (ih ?_).2 ⟨hall, ?_, ?_⟩⟩
      · show shape.nodes + 1 ≤ maxNodes
        omega
      · show shape.nodes + 1 + keys.length ≤ maxNodes
        omega
      · rw [hlast, hend _ rfl, List.length_cons]

theorem indexOf_eq_some_some {n : LuaNum} {index : ℕ} :
    indexOf n = some (some index) ↔ n = .finite index ∧ 1 ≤ index := by
  constructor
  · intro h
    cases n with
    | finite q =>
      unfold indexOf at h
      dsimp only at h
      split at h
      · rename_i hq
        rw [Bool.and_eq_true, decide_eq_true_eq, beq_iff_eq] at hq
        obtain ⟨hone, hden⟩ := hq
        have hnum : (q.num : ℚ) = q := (Rat.den_eq_one_iff q).1 hden
        have hpos : 1 ≤ q.num := by
          rw [← hnum] at hone
          exact_mod_cast hone
        obtain rfl := Option.some_inj.1 (Option.some_inj.1 h)
        have hcast : ((q.num.toNat : ℕ) : ℚ) = q := by
          rw [← hnum]
          have hnat : ((q.num.toNat : ℕ) : ℤ) = q.num := Int.toNat_of_nonneg (by omega)
          exact_mod_cast congrArg (Int.cast (R := ℚ)) hnat
        exact ⟨by rw [hcast], by omega⟩
      · cases h
    | huge negative => cases negative <;> cases h
    | nan => cases h
  · rintro ⟨rfl, hindex⟩
    have hone : (1 : ℚ) ≤ index := by exact_mod_cast hindex
    have hden : ((index : ℚ).den == 1) = true := by
      rw [Rat.den_natCast]
      rfl
    unfold indexOf
    dsimp only
    rw [decide_eq_true hone, hden, Bool.true_and, if_pos rfl, Rat.num_natCast, Int.toNat_natCast]

theorem visited_indexKey {index : ℕ} (h : 1 ≤ index) : Visited (indexKey index) :=
  .inr ⟨_, _, rfl, indexOf_eq_some_some.2 ⟨rfl, h⟩⟩

theorem maxStep_indexKey {index : ℕ} (h : 1 ≤ index) (m : ℕ) :
    maxStep (some m) (indexKey index) = some (max m index) := by
  rw [indexKey, maxStep, indexOf_eq_some_some.2 ⟨rfl, h⟩]
  rfl

/-- Indices that the loop goes through are at most the largest. -/
theorem exists_indices {keys : List LuaKey} {m top : ℕ} (hvisited : ∀ key ∈ keys, Visited key)
    (hnone : ∀ key ∈ keys, strOf key = none)
    (htop : keys.foldl maxStep (some m) = some top) :
    m ≤ top ∧ ∃ indices : List ℕ, keys = indices.map indexKey ∧
      ∀ index ∈ indices, 1 ≤ index ∧ index ≤ top := by
  induction keys generalizing m with
  | nil =>
    obtain rfl := Option.some_inj.1 htop
    exact ⟨le_rfl, [], rfl, nofun⟩
  | cons key keys ih =>
    obtain ⟨hkey, hkeys⟩ := List.forall_mem_cons.1 hvisited
    obtain ⟨hkeyNone, hkeysNone⟩ := List.forall_mem_cons.1 hnone
    rw [List.foldl_cons] at htop
    rcases hkey with ⟨s, rfl⟩ | ⟨n, index, rfl, hindex⟩
    · cases hkeyNone
    have hlost (keys : List LuaKey) : keys.foldl maxStep none = none := by
      induction keys with
      | nil => rfl
      | cons key keys ih =>
        have hstep : maxStep none key = none := by
          cases key with
          | num n =>
            rw [maxStep]
            split <;> rfl
          | _ => rfl
        rw [List.foldl_cons, hstep, ih]
    rcases index with _ | index
    · have hstep : maxStep (some m) (.num n) = none := by
        rw [maxStep, hindex]
        rfl
      rw [hstep, hlost] at htop
      cases htop
    · obtain ⟨rfl, hone⟩ := indexOf_eq_some_some.1 hindex
      have hstep := maxStep_indexKey hone m
      rw [indexKey] at hstep
      rw [hstep] at htop
      obtain ⟨hle, indices, rfl, hall⟩ := ih hkeys hkeysNone htop
      exact ⟨by omega, index :: indices, rfl, List.forall_mem_cons.2 ⟨⟨hone, by omega⟩, hall⟩⟩

theorem foldl_maxStep {indices : List ℕ} (h : ∀ index ∈ indices, 1 ≤ index) (m : ℕ) :
    (indices.map indexKey).foldl maxStep (some m) = some (indices.foldl max m) := by
  induction indices generalizing m with
  | nil => rfl
  | cons index indices ih =>
    obtain ⟨hindex, hrest⟩ := List.forall_mem_cons.1 h
    rw [List.map_cons, List.foldl_cons, maxStep_indexKey hindex, ih hrest, List.foldl_cons]

theorem foldl_max_range' (first count m : ℕ) (h : m < first) :
    (List.range' first count).foldl max m = if count = 0 then m else first + count - 1 := by
  induction count generalizing first m with
  | zero => rfl
  | succ count ih =>
    rw [List.range'_succ, List.foldl_cons, ih (first + 1) (max m first) (by omega)]
    split <;> split <;> omega

theorem indexKey_injective : Function.Injective indexKey := by
  intro a b h
  have hcast : (a : ℚ) = b := LuaNum.finite.inj (LuaKey.num.inj h)
  exact_mod_cast hcast

/-- The indices of a dense array. -/
theorem Dense.exists_indices {keys : List LuaKey} (h : Dense keys) :
    ∃ indices : List ℕ, keys = indices.map indexKey ∧ indices.Perm (List.range' 1 keys.length) := by
  have hmem : ∀ key ∈ keys, ∃ index, indexKey index = key := fun key hkey => by
    obtain ⟨index, -, rfl⟩ := List.mem_map.1 (h.mem_iff.1 hkey)
    exact ⟨index, rfl⟩
  let back : LuaKey → ℕ := Function.invFun indexKey
  have hback (index : ℕ) : back (indexKey index) = index :=
    Function.leftInverse_invFun indexKey_injective index
  refine ⟨keys.map back, ?_, ?_⟩
  · rw [List.map_map]
    refine (List.map_id keys).symm.trans (List.map_congr_left fun key hkey => ?_)
    obtain ⟨index, rfl⟩ := hmem key hkey
    exact (congrArg indexKey (hback index)).symm
  · have hperm := h.map back
    rw [List.map_map] at hperm
    have hid : (List.range' 1 keys.length).map (back ∘ indexKey) = List.range' 1 keys.length :=
      (List.map_congr_left fun index _ => hback index).trans (List.map_id _)
    rwa [hid] at hperm

/-- **An array is found** exactly under the keys from `1` to their number. -/
theorem dense_iff {keys : List LuaKey} (hnodup : keys.Nodup) :
    ((∀ key ∈ keys, Visited key) ∧ (keys.any fun key => (strOf key).isSome) = false ∧
      keys.foldl maxStep (some 0) = some keys.length) ↔ Dense keys := by
  constructor
  · rintro ⟨hvisited, hnone, htop⟩
    have hnone : ∀ key ∈ keys, strOf key = none := by simpa using hnone
    obtain ⟨-, indices, hkeys, hall⟩ := exists_indices hvisited hnone htop
    have hlen : indices.length = keys.length := by rw [hkeys, List.length_map]
    have hnodupIndices : indices.Nodup := by
      rw [hkeys] at hnodup
      exact hnodup.of_map indexKey
    have hsubset : indices ⊆ List.range' 1 keys.length := fun index hindex => by
      obtain ⟨hlow, hhigh⟩ := hall index hindex
      exact List.mem_range'_1.2 ⟨hlow, by omega⟩
    have hperm : indices.Perm (List.range' 1 keys.length) :=
      (hnodupIndices.subperm hsubset).perm_of_length_le (by rw [List.length_range', hlen])
    unfold Dense
    conv_lhs => rw [hkeys]
    exact hperm.map indexKey
  · intro h
    obtain ⟨indices, hkeys, hperm⟩ := Dense.exists_indices h
    have hone : ∀ index ∈ indices, 1 ≤ index := fun index hindex =>
      (List.mem_range'_1.1 (hperm.mem_iff.1 hindex)).1
    have hindex : ∀ key ∈ keys, ∃ index ∈ indices, indexKey index = key := fun key hkey => by
      rw [hkeys] at hkey
      exact List.mem_map.1 hkey
    refine ⟨fun key hkey => ?_, ?_, ?_⟩
    · obtain ⟨index, hmem, rfl⟩ := hindex key hkey
      exact visited_indexKey (hone index hmem)
    · rw [List.any_eq_false]
      intro key hkey
      obtain ⟨index, -, rfl⟩ := hindex key hkey
      exact Bool.false_ne_true
    · rw [hkeys, foldl_maxStep hone, List.length_map]
      have hfold : indices.foldl max 0 = (List.range' 1 keys.length).foldl max 0 :=
        hperm.foldl_eq 0
      have hlen : indices.length = keys.length := by rw [hkeys, List.length_map]
      rw [hfold, foldl_max_range' 1 keys.length 0 (by decide), hlen]
      split <;> congr 1 <;> omega

end JSON

end GoblinZomboid
