import Mathlib

/-!
# Numbers and buffers as bytes

A number of `w` bytes is stored with its lowest byte first (`toBytes`, `ofBytes`); the two are
inverse to each other on the numbers that fit.  A buffer is a list of bytes, and `store` replaces a
piece of it: what was stored is read back, and what lies before and after it is as it was.
-/

namespace ByteStrings

/-! ## Numbers -/

/-- The `w` lowest bytes of a number. -/
def toBytes : ℕ → ℕ → List UInt8
  | 0, _ => []
  | w + 1, n => UInt8.ofNat n :: toBytes w (n / 256)

/-- The number that the bytes hold. -/
def ofBytes : List UInt8 → ℕ
  | [] => 0
  | b :: bs => b.toNat + 256 * ofBytes bs

@[simp] lemma length_toBytes (w n : ℕ) : (toBytes w n).length = w := by
  induction w generalizing n with
  | zero => rfl
  | succ w ih => simp [toBytes, ih]

/-- **The round trip of a number that fits.** -/
theorem ofBytes_toBytes {w n : ℕ} (h : n < 256 ^ w) : ofBytes (toBytes w n) = n := by
  induction w generalizing n with
  | zero =>
      obtain rfl : n = 0 := by simpa using h
      rfl
  | succ w ih =>
      have hdiv : n / 256 < 256 ^ w := by
        rw [Nat.div_lt_iff_lt_mul (by norm_num), ← pow_succ]
        exact h
      have hlow : (UInt8.ofNat n).toNat = n % 256 := by simp
      rw [toBytes, ofBytes, ih hdiv, hlow, Nat.mod_add_div]

lemma ofBytes_lt (bs : List UInt8) : ofBytes bs < 256 ^ bs.length := by
  induction bs with
  | nil => simp [ofBytes]
  | cons b bs ih =>
      have hb : b.toNat < 256 := b.toNat_lt
      rw [ofBytes, List.length_cons, pow_succ]
      omega

/-- The other way round: bytes are those of the number they hold. -/
theorem toBytes_ofBytes (bs : List UInt8) : toBytes bs.length (ofBytes bs) = bs := by
  induction bs with
  | nil => rfl
  | cons b bs ih =>
      have hb : b.toNat < 256 := b.toNat_lt
      have hlow : UInt8.ofNat (b.toNat + 256 * ofBytes bs) = b := by
        apply UInt8.toNat_inj.mp
        simp only [UInt8.toNat_ofNat']
        omega
      have hhigh : (b.toNat + 256 * ofBytes bs) / 256 = ofBytes bs := by omega
      rw [List.length_cons, ofBytes, toBytes, hlow, hhigh, ih]

/-- Bytes hold a number that fits exactly when they are its bytes. -/
lemma ofBytes_eq_iff {bs : List UInt8} {w n : ℕ} (hlen : bs.length = w) (hn : n < 256 ^ w) :
    ofBytes bs = n ↔ bs = toBytes w n := by
  constructor
  · rintro rfl
    rw [← hlen, toBytes_ofBytes]
  · rintro rfl
    exact ofBytes_toBytes hn

/-- A number that fits and whose bytes are all zero is zero. -/
lemma toBytes_eq_zeros_iff {w n : ℕ} (hn : n < 256 ^ w) :
    toBytes w n = List.replicate w 0 ↔ n = 0 := by
  have hzero : ∀ w, toBytes w 0 = List.replicate w 0 := by
    intro w
    induction w with
    | zero => rfl
    | succ w ih => rw [toBytes, Nat.zero_div, ih, List.replicate_succ]; rfl
  constructor
  · intro h
    rw [← ofBytes_toBytes hn, h, ← hzero, ofBytes_toBytes (by positivity)]
  · rintro rfl
    exact hzero w

lemma ofBytes_append (bs bs' : List UInt8) :
    ofBytes (bs ++ bs') = ofBytes bs + 256 ^ bs.length * ofBytes bs' := by
  induction bs with
  | nil => simp [ofBytes]
  | cons b bs ih =>
      rw [List.cons_append, ofBytes, ih, ofBytes, List.length_cons, pow_succ]
      ring

lemma ofBytes_zeros (w : ℕ) : ofBytes (List.replicate w 0) = 0 := by
  induction w with
  | zero => rfl
  | succ w ih => rw [List.replicate_succ, ofBytes, ih]; rfl

/-- The lowest bytes hold no more than all of them. -/
lemma ofBytes_take_le (bs : List UInt8) (k : ℕ) : ofBytes (bs.take k) ≤ ofBytes bs := by
  conv_rhs => rw [← List.take_append_drop k bs, ofBytes_append]
  exact Nat.le_add_right _ _

/-- Nor do the highest ones. -/
lemma ofBytes_drop_le (bs : List UInt8) (k : ℕ) : ofBytes (bs.drop k) ≤ ofBytes bs := by
  conv_rhs => rw [← List.take_append_drop k bs, ofBytes_append]
  exact (Nat.le_mul_of_pos_left _ (by positivity)).trans (Nat.le_add_left _ _)

/-! ## Buffers -/

/-- `bs` is stored at an offset. -/
def store (buf : List UInt8) (off : ℕ) (bs : List UInt8) : List UInt8 :=
  buf.take off ++ bs ++ buf.drop (off + bs.length)

variable {buf bs : List UInt8} {off : ℕ}

lemma length_store (h : off + bs.length ≤ buf.length) :
    (store buf off bs).length = buf.length := by
  simp only [store, List.length_append, List.length_take, List.length_drop]
  omega

@[simp] lemma store_nil : store buf off [] = buf := by simp [store]

/-- What was stored, and what lies before it. -/
lemma take_store (h : off ≤ buf.length) :
    (store buf off bs).take (off + bs.length) = buf.take off ++ bs := by
  have hlen : (buf.take off ++ bs).length = off + bs.length := by
    rw [List.length_append, List.length_take, min_eq_left h]
  rw [store, ← hlen, List.take_left]

/-- What lies behind it. -/
lemma drop_store (h : off ≤ buf.length) :
    (store buf off bs).drop (off + bs.length) = buf.drop (off + bs.length) := by
  have hlen : (buf.take off ++ bs).length = off + bs.length := by
    rw [List.length_append, List.length_take, min_eq_left h]
  rw [store]
  conv_lhs => rw [← hlen]
  rw [List.drop_left, hlen]

lemma drop_store_of_le {k : ℕ} (h : off ≤ buf.length) (hk : off + bs.length ≤ k) :
    (store buf off bs).drop k = buf.drop k := by
  rw [← Nat.add_sub_cancel' hk, ← List.drop_drop, drop_store h, List.drop_drop]

/-- Two pieces stored one behind the other are one piece. -/
lemma store_store {bs' : List UInt8} (h : off ≤ buf.length) :
    store (store buf off bs) (off + bs.length) bs' = store buf off (bs ++ bs') := by
  have hdrop : (store buf off bs).drop (off + bs.length + bs'.length)
      = buf.drop (off + (bs ++ bs').length) := by
    rw [← List.drop_drop, drop_store h, List.drop_drop, List.length_append, Nat.add_assoc]
  rw [store, take_store h, hdrop, store, List.append_assoc (buf.take off) bs bs']

/-- A buffer that is stored over in full. -/
lemma store_whole (h : buf.length = bs.length) : store buf 0 bs = bs := by
  simp [store, ← h]

end ByteStrings
