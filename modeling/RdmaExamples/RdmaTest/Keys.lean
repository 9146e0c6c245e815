import RdmaExamples.Library.ByteStrings

/-!
# The key and the address of a region

The message with which the client of `rdma_test.c` tells the server about its memory, and what the
server reads out of it.

The client copies the key with `memccpy`, which stops behind the first zero byte, and lets the
address follow where that copy ended; where the key has no zero byte `memccpy` returns `NULL`, and
the address is copied there.  The server reads the key from the first four bytes and the address
from the eight that follow.  `rkey_roundTrips_iff` says for which keys and addresses the two agree.

* `clientMessage` — the message, or `none` where the address is copied to `NULL`.
* `serverDecode` — the key and the address that the server reads.
* `RoundTrips` — they are those of the client.
-/

namespace RdmaTest

open ByteStrings

/-! ## The code -/

/-- `memccpy`, from the offset `off` of the destination on, over the bytes still to copy: the
destination, and the offset behind the byte `c`, or `none` for `NULL`. -/
def memccpy (dst : List UInt8) (c : UInt8) : ℕ → List UInt8 → List UInt8 × Option ℕ
  | _, [] => (dst, none)
  | off, b :: src =>
      let dst := store dst off [b]
      if b = c then (dst, some (off + 1)) else memccpy dst c (off + 1) src

/-- `memcpy` to an offset of the destination; `none` where the pointer is `NULL`. -/
def memcpy (dst : List UInt8) : Option ℕ → List UInt8 → Option (List UInt8)
  | none, _ => none
  | some off, src => some (store dst off src)

/-- `send_msg` before `client_run` fills it: it is static, and nothing was written to it. -/
def sendMsg : List UInt8 := List.replicate 16 0

/-- The message that `client_run` builds in `send_msg`, or `none` where it writes through a null
pointer. -/
def clientMessage (rkey : UInt32) (addr : UInt64) : Option (List UInt8) :=
  let (sendMsg, temp) := memccpy sendMsg 0 0 (toBytes 4 rkey.toNat)
  memcpy sendMsg temp (toBytes 8 addr.toNat)

/-- What `server_run` takes for the key and the address. -/
def serverDecode (recvMsg : List UInt8) : ℕ × ℕ :=
  (ofBytes (recvMsg.take 4), ofBytes ((recvMsg.drop 4).take 8))

/-- The server obtains the client's key and address. -/
def RoundTrips (rkey : UInt32) (addr : UInt64) : Prop :=
  ∃ msg, clientMessage rkey addr = some msg ∧ serverDecode msg = (rkey.toNat, addr.toNat)

/-! ## `memccpy` -/

/-- Without the byte `memccpy` looks for, all is copied. -/
lemma memccpy_none {c : UInt8} {src : List UInt8} (hc : c ∉ src) (dst : List UInt8) (off : ℕ) :
    (memccpy dst c off src).2 = none := by
  induction src generalizing dst off with
  | nil => rfl
  | cons b src ih =>
      rw [List.mem_cons, not_or] at hc
      rw [memccpy, if_neg (Ne.symm hc.1)]
      exact ih hc.2 _ _

/-- With it, the copy ends behind it. -/
lemma memccpy_some {c : UInt8} {pre post : List UInt8} (hc : c ∉ pre) {dst : List UInt8} {off : ℕ}
    (hoff : off ≤ dst.length) :
    memccpy dst c off (pre ++ c :: post)
      = (store dst off (pre ++ [c]), some (off + (pre.length + 1))) := by
  induction pre generalizing dst off with
  | nil => simp [memccpy]
  | cons b pre ih =>
      rw [List.mem_cons, not_or] at hc
      have hlen : off + 1 ≤ (store dst off [b]).length := by
        simp only [store, List.length_append, List.length_take, List.length_singleton]
        omega
      rw [List.cons_append, memccpy, if_neg (Ne.symm hc.1), ih hc.2 hlen]
      have hjoin : store (store dst off [b]) (off + [b].length) (pre ++ [c])
          = store dst off ([b] ++ (pre ++ [c])) := store_store hoff
      rw [List.length_singleton, List.singleton_append] at hjoin
      rw [hjoin, List.length_cons, List.cons_append]
      congr 2
      omega

/-! ## The message -/

/-- A list that is unchanged when it moves down by some places, and zeros move in, is all
zeros. -/
lemma eq_zeros_of_shift {l : List UInt8} {d : ℕ} (hd : 0 < d)
    (h : l.drop d ++ List.replicate d 0 = l) : l = List.replicate l.length 0 := by
  have hall : ∀ m k (hk : k < l.length), l.length - k ≤ m → l[k] = 0 := by
    intro m
    induction m with
    | zero => intro k hk hm; omega
    | succ m ih =>
        intro k hk hm
        have hget : (l.drop d ++ List.replicate d 0)[k]? = l[k]? := by rw [h]
        rw [List.getElem?_eq_getElem hk] at hget
        by_cases hin : k + d < l.length
        · rw [List.getElem?_append_left (by rw [List.length_drop]; omega), List.getElem?_drop,
            List.getElem?_eq_getElem (by omega), Option.some.injEq] at hget
          rw [← hget]
          exact ih (d + k) (by omega) (by omega)
        · rw [List.getElem?_append_right (by rw [List.length_drop]; omega),
            List.getElem?_replicate] at hget
          split at hget
          · exact (Option.some.inj hget).symm
          · exact absurd hget (by simp)
  refine List.eq_replicate_iff.mpr ⟨rfl, fun b hb => ?_⟩
  obtain ⟨k, hk, rfl⟩ := List.getElem_of_mem hb
  exact hall _ k hk le_rfl

variable {rkey : UInt32} {addr : UInt64} {pre post : List UInt8}

/-- The message for a key with a zero byte: the address follows the first one. -/
lemma clientMessage_eq (hkey : toBytes 4 rkey.toNat = pre ++ 0 :: post) (hpre : 0 ∉ pre) :
    clientMessage rkey addr = some (pre ++ [0] ++ (toBytes 8 addr.toNat
      ++ List.replicate (7 - pre.length) 0)) := by
  have hjoin : store (store sendMsg 0 (pre ++ [0])) (0 + (pre.length + 1)) (toBytes 8 addr.toNat)
      = store sendMsg 0 (pre ++ [0] ++ toBytes 8 addr.toNat) := by
    have h : store (store sendMsg 0 (pre ++ [0])) (0 + (pre ++ [0]).length) (toBytes 8 addr.toNat)
        = store sendMsg 0 (pre ++ [0] ++ toBytes 8 addr.toNat) := store_store (Nat.zero_le _)
    rwa [List.length_append, List.length_singleton] at h
  have hrest : sendMsg.drop (0 + (pre ++ [0] ++ toBytes 8 addr.toNat).length)
      = List.replicate (7 - pre.length) 0 := by
    rw [sendMsg, List.drop_replicate, List.length_append, List.length_append, length_toBytes,
      List.length_singleton]
    congr 1
    omega
  rw [clientMessage, hkey, memccpy_some hpre (Nat.zero_le _)]
  show some (store _ _ _) = _
  rw [hjoin, store, hrest, List.take_zero, List.nil_append, List.append_assoc]

/-- What the server reads out of it. -/
lemma serverDecode_eq_iff (hkey : toBytes 4 rkey.toNat = pre ++ 0 :: post) :
    serverDecode (pre ++ [0] ++ (toBytes 8 addr.toNat ++ List.replicate (7 - pre.length) 0))
        = (rkey.toNat, addr.toNat) ↔
      (toBytes 8 addr.toNat).take post.length = post ∧
        (toBytes 8 addr.toNat).drop post.length ++ List.replicate post.length 0
          = toBytes 8 addr.toNat := by
  have hlen : pre.length + 1 + post.length = 4 := by
    have h := congrArg List.length hkey
    rw [length_toBytes, List.length_append, List.length_cons] at h
    omega
  have haddr : (toBytes 8 addr.toNat).length = 8 := length_toBytes 8 _
  have hhead : (pre ++ [0]).length = pre.length + 1 := by simp
  have hlow : (pre ++ [0] ++ (toBytes 8 addr.toNat ++ List.replicate (7 - pre.length) 0)).take 4
      = pre ++ [0] ++ (toBytes 8 addr.toNat).take post.length := by
    rw [List.take_append, hhead, List.take_of_length_le (by omega),
      show 4 - (pre.length + 1) = post.length by omega, List.take_append_of_le_length (by omega)]
  have hhigh : ((pre ++ [0] ++ (toBytes 8 addr.toNat
      ++ List.replicate (7 - pre.length) 0)).drop 4).take 8
      = (toBytes 8 addr.toNat).drop post.length ++ List.replicate post.length 0 := by
    rw [List.drop_append, hhead, List.drop_of_length_le (by omega), List.nil_append,
      show 4 - (pre.length + 1) = post.length by omega, List.drop_append_of_le_length (by omega),
      List.take_append, List.take_of_length_le (by rw [List.length_drop]; omega), List.length_drop,
      List.take_replicate, haddr]
    congr 2
    omega
  have hfour : (pre ++ [0] ++ (toBytes 8 addr.toNat).take post.length).length = 4 := by
    rw [List.length_append, hhead, List.length_take]
    omega
  have hbytes : ((toBytes 8 addr.toNat).drop post.length
      ++ List.replicate post.length 0).length = 8 := by
    rw [List.length_append, List.length_drop, List.length_replicate]
    omega
  rw [serverDecode, hlow, hhigh, Prod.mk.injEq, ofBytes_eq_iff hfour rkey.toNat_lt,
    ofBytes_eq_iff hbytes addr.toNat_lt, hkey, List.append_assoc, List.append_cancel_left_eq,
    List.singleton_append, List.cons.injEq]
  simp

/-- **When a key and an address reach the server**: exactly when the bytes of the key, lowest
first, are non-zero ones and then `n` zero ones, at least one, and either it is one or the address
is `0`.

The copy stops behind the first zero byte of the key, and the address lies there, so that the
server reads the address where it is only if that byte is the last one.  If it comes earlier, the
rest of the key is not copied and has to be zero; and the address lies too low, so that its first
bytes are read as part of the key and the others as an address from which those are missing, which
is right for no address but `0`.  For a key without a zero byte the address is copied to `NULL`,
and there is no message at all. -/
theorem rkey_roundTrips_iff (rkey : UInt32) (addr : UInt64) :
    RoundTrips rkey addr ↔ ∃ pre n, toBytes 4 rkey.toNat = pre ++ List.replicate n 0 ∧ 0 ∉ pre ∧
      0 < n ∧ (n = 1 ∨ addr = 0) := by
  have hzero : toBytes 8 addr.toNat = List.replicate 8 0 ↔ addr = 0 := by
    rw [toBytes_eq_zeros_iff addr.toNat_lt, ← UInt64.toNat_inj]
    rfl
  constructor
  · rintro ⟨msg, hmsg, hdecode⟩
    by_cases hmem : 0 ∈ toBytes 4 rkey.toNat
    · obtain ⟨pre, post, hkey, hpre⟩ := List.eq_append_cons_of_mem hmem
      rw [clientMessage_eq hkey hpre, Option.some.injEq] at hmsg
      rw [← hmsg, serverDecode_eq_iff hkey] at hdecode
      obtain ⟨hlow, hhigh⟩ := hdecode
      by_cases hlast : post = []
      · refine ⟨pre, 1, by rw [hkey, hlast]; rfl, hpre, by decide, Or.inl rfl⟩
      · have hzeros := eq_zeros_of_shift (List.length_pos_iff.mpr hlast) hhigh
        rw [length_toBytes] at hzeros
        have hpost : post = List.replicate post.length 0 := by
          have hle : post.length ≤ 8 := by
            have h := congrArg List.length hlow
            rw [List.length_take, length_toBytes] at h
            omega
          rw [hzeros, List.take_replicate, min_eq_left hle] at hlow
          exact hlow.symm
        refine ⟨pre, post.length + 1, ?_, hpre, Nat.succ_pos _, Or.inr (hzero.mp hzeros)⟩
        rw [hkey, List.replicate_succ, ← hpost]
    · have hnull : clientMessage rkey addr = none := by
        rw [clientMessage]
        show memcpy _ (memccpy sendMsg 0 0 (toBytes 4 rkey.toNat)).2 _ = none
        rw [memccpy_none hmem]
        rfl
      rw [hnull] at hmsg
      exact absurd hmsg (by simp)
  · rintro ⟨pre, n, hkey, hpre, hn, hone⟩
    obtain ⟨m, rfl⟩ : ∃ m, n = m + 1 := ⟨n - 1, by omega⟩
    rw [List.replicate_succ] at hkey
    refine ⟨_, clientMessage_eq hkey hpre, (serverDecode_eq_iff hkey).mpr ?_⟩
    have hle : m ≤ 8 := by
      have h := congrArg List.length hkey
      rw [length_toBytes, List.length_append, List.length_cons, List.length_replicate] at h
      omega
    rw [List.length_replicate]
    rcases hone with hone | hnull
    · obtain rfl : m = 0 := by omega
      simp
    · rw [hzero.mpr hnull, List.take_replicate, List.drop_replicate, ← List.replicate_add]
      rw [min_eq_left hle, Nat.sub_add_cancel hle]
      exact ⟨rfl, rfl⟩

/-- A key without a zero byte makes the client write through a null pointer. -/
theorem noZeroByte_notRoundTrips :
    clientMessage 0x01010101 0x7f0000001000 = none ∧ ¬ RoundTrips 0x01010101 0x7f0000001000 := by
  have hnull : clientMessage 0x01010101 0x7f0000001000 = none := by decide
  refine ⟨hnull, ?_⟩
  rintro ⟨msg, hmsg, -⟩
  rw [hnull] at hmsg
  exact absurd hmsg (by simp)

end RdmaTest
