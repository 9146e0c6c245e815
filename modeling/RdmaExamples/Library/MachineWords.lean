import Mathlib

/-!
# Machine words

C's unsigned counters as natural numbers with the wrap written out, and 64-bit bitmaps as
`BitVec 64`.  `incr` and `decr` wrap; where an invariant bounds the counter they are `+ 1` and
`- 1` (`incr_of_lt`, `decr_of_pos`).  A bitmap is read through `getLsbD`: `setBit` and `clearBit`
change one bit, and `ffsl` finds the lowest one that is set.

Natural numbers are used for the counters, rather than a type of words, since the invariants are
about sums and bounds of them: with the two lemmas above, `omega` works on what the code computes.
-/

namespace MachineWords

/-! ## Counters -/

/-- `++x` on an unsigned integer of `w` bits. -/
def incr (w x : ℕ) : ℕ := (x + 1) % 2 ^ w

/-- `--x` on an unsigned integer of `w` bits. -/
def decr (w x : ℕ) : ℕ := if x = 0 then 2 ^ w - 1 else x - 1

lemma incr_of_lt {w x : ℕ} (h : x + 1 < 2 ^ w) : incr w x = x + 1 := Nat.mod_eq_of_lt h

lemma decr_of_pos {w x : ℕ} (hpos : 0 < x) : decr w x = x - 1 := if_neg hpos.ne'

/-- `x - y` on unsigned integers of `w` bits. -/
def subWrap (w x y : ℕ) : ℕ := (x + (2 ^ w - y % 2 ^ w)) % 2 ^ w

lemma subWrap_of_le {w x y : ℕ} (hle : y ≤ x) (h : x < 2 ^ w) : subWrap w x y = x - y := by
  rw [subWrap, Nat.mod_eq_of_lt (by omega : y < 2 ^ w),
    show x + (2 ^ w - y) = x - y + 2 ^ w by omega, Nat.add_mod_right]
  exact Nat.mod_eq_of_lt (by omega)

/-- The conversion of a C integer to an unsigned type of `w` bits. -/
def toUnsigned (w : ℕ) (x : Int) : ℕ := (x % 2 ^ w).toNat

lemma toUnsigned_lt (w : ℕ) (x : Int) : toUnsigned w x < 2 ^ w := by
  have hpos : (0 : Int) < 2 ^ w := by positivity
  have hlt := Int.emod_lt_of_pos x hpos
  have hnn := Int.emod_nonneg x hpos.ne'
  rw [toUnsigned]
  zify
  rw [Int.toNat_of_nonneg hnn]
  exact hlt

/-- The conversion of a C integer to a signed type of 32 bits. -/
def toInt32 (x : Int) : Int := x.bmod (2 ^ 32)

/-! ## Bitmaps -/

/-- `BIT(i)`: `1ul << i`. -/
def bit (i : ℕ) : BitVec 64 := 1#64 <<< i

/-- `map |= BIT(i)`. -/
def setBit (map : BitVec 64) (i : ℕ) : BitVec 64 := map ||| bit i

/-- `map &= ~BIT(i)`. -/
def clearBit (map : BitVec 64) (i : ℕ) : BitVec 64 := map &&& ~~~ bit i

lemma getLsbD_bit (i j : ℕ) : (bit i).getLsbD j = (decide (j < 64) && decide (i = j)) := by
  rw [bit, ← BitVec.twoPow_eq, BitVec.getLsbD_twoPow]
  by_cases h : i = j
  · subst h
    rfl
  · simp [h]

@[simp] lemma getLsbD_setBit (map : BitVec 64) (i j : ℕ) :
    (setBit map i).getLsbD j = (map.getLsbD j || (decide (j < 64) && decide (i = j))) := by
  rw [setBit, BitVec.getLsbD_or, getLsbD_bit]

@[simp] lemma getLsbD_clearBit (map : BitVec 64) (i j : ℕ) :
    (clearBit map i).getLsbD j = (map.getLsbD j && !decide (i = j)) := by
  rw [clearBit, BitVec.getLsbD_and, BitVec.getLsbD_not, getLsbD_bit]
  by_cases hj : j < 64
  · simp [hj]
  · simp [BitVec.getLsbD_of_ge map j (by omega)]

/-- `__builtin_ffsl`: one more than the index of the lowest set bit, `0` if there is none. -/
def ffsl (map : BitVec 64) : ℕ :=
  match (List.range 64).find? (fun i => map.getLsbD i) with
  | some i => i + 1
  | none => 0

/-- What `ffsl` finds is set, and nothing below it is. -/
theorem ffsl_eq_succ_iff {map : BitVec 64} {i : ℕ} :
    ffsl map = i + 1 ↔ map.getLsbD i = true ∧ ∀ j < i, map.getLsbD j = false := by
  rw [ffsl]
  constructor
  · intro h
    split at h
    · rename_i k hk
      obtain rfl : k = i := by omega
      obtain ⟨hset, _, hlow⟩ := List.find?_range_eq_some.mp hk
      exact ⟨hset, fun j hj => by simpa using hlow j hj⟩
    · omega
  · rintro ⟨hset, hlow⟩
    have hi : i < 64 := BitVec.lt_of_getLsbD hset
    have hfind : (List.range 64).find? (fun i => map.getLsbD i) = some i :=
      List.find?_range_eq_some.mpr
        ⟨hset, List.mem_range.mpr hi, fun j hj => by simpa using hlow j hj⟩
    rw [hfind]

/-- A bitmap that is not zero has a lowest set bit. -/
theorem exists_ffsl {map : BitVec 64} (h : map ≠ 0) : ∃ i, ffsl map = i + 1 := by
  rw [ffsl]
  split
  · rename_i k _
    exact ⟨k, rfl⟩
  · rename_i hnone
    refine absurd (BitVec.eq_of_getLsbD_eq fun i hi => ?_) h
    have := List.find?_eq_none.mp hnone i (List.mem_range.mpr hi)
    simpa using this

/-- The lowest set bit is at most any set bit. -/
theorem ffsl_le {map : BitVec 64} {i d : ℕ} (h : ffsl map = i + 1) (hd : map.getLsbD d = true) :
    i ≤ d := by
  by_contra hlt
  have := (ffsl_eq_succ_iff.mp h).2 d (by omega)
  rw [hd] at this
  exact absurd this (by simp)

end MachineWords
