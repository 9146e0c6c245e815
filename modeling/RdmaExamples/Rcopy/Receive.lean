import RdmaExamples.Rcopy.Traces

/-!
# What `_recv` does

`_recv` asks for the rest of the message until it has it.  Its counter is a `size_t`, so that the
`-1` of a failed `rrecv` passes the test `ret <= 0` and takes one byte off the offset: `_recv`
returns the full length whatever failed, and `0` at the end of the stream (`recv_ret`).  The bytes
it stored make up the message where every `rrecv` brought some, and nowhere else (`recv_tiles_iff`).
-/

namespace Rcopy

open ByteStrings MachineWords Programs Tiling

/-! ## The loop -/

section Loop

variable {dest : Dest} {len fuel offset n : ℕ} {msg buf : List UInt8} {g g' : Globals} {t : Trace}

/-- The loop calls nothing but `rrecv` into its buffer, and leaves the globals alone. -/
lemma keeps_recvFrom : ∀ fuel offset msg, Keeps (fun g : Globals => g)
    (fun c => ∃ offset n, c = .rrecv dest offset n) (recvFrom dest len fuel offset msg)
  | 0, _, _ => Keeps.halt
  | fuel + 1, offset, msg => by
      rw [recvFrom]
      refine Keeps.ite (Keeps.bind (Keeps.perform ⟨_, _, rfl⟩) fun reply => ?_) (Keeps.pure _)
      exact Keeps.ite (Keeps.pure _) (keeps_recvFrom fuel _ _)

lemma recvFrom_globals (h : Returns ((recvFrom dest len fuel offset msg).run g) t ((n, buf), g')) :
    g' = g := (keeps_recvFrom fuel offset msg).state _ _ _ _ h

lemma recvFrom_onlyInto (h : CanDo ((recvFrom dest len fuel offset msg).run g) t) :
    OnlyInto dest t := fun e he => (keeps_recvFrom fuel offset msg).calls _ _ h e he

/-- **One round of the loop**: it is over, the stream ends, `rrecv` fails, or it brings some
bytes. -/
lemma recvFrom_cases (hlen : len < 2 ^ 64)
    (h : Returns ((recvFrom dest len (fuel + 1) offset msg).run g) t ((n, buf), g')) :
    (len ≤ offset ∧ t = [] ∧ n = len ∧ buf = msg) ∨
    (offset < len ∧ ∃ c, c.bs = [] ∧ t = [⟨.rrecv dest offset (len - offset), some c⟩] ∧ n = 0 ∧
      buf = msg) ∨
    (offset < len ∧ ∃ t', t = ⟨.rrecv dest offset (len - offset), none⟩ :: t' ∧
      Returns ((recvFrom dest len fuel ((offset + (2 ^ 64 - 1)) % 2 ^ 64) msg).run g) t'
        ((n, buf), g')) ∨
    (offset < len ∧ ∃ t' c, c.bs ≠ [] ∧
      t = ⟨.rrecv dest offset (len - offset), some c⟩ :: t' ∧
      offset + c.bs.length ≤ len ∧
      Returns ((recvFrom dest len fuel (offset + c.bs.length) (store msg offset c.bs)).run g) t'
        ((n, buf), g')) := by
  rw [recvFrom] at h
  by_cases hoff : offset < len
  · right
    rw [if_pos hoff] at h
    obtain ⟨reply, t', rfl, h'⟩ := returns_run_perform_bind.mp h
    dsimp only at h'
    cases reply with
    | none =>
        right
        left
        have hsize : rrecvSize (none : Option (Chunk (len - offset))) = 2 ^ 64 - 1 :=
          (by decide : toUnsigned 64 (-1) = 2 ^ 64 - 1)
        rw [hsize, if_neg (by norm_num)] at h'
        exact ⟨hoff, t', rfl, h'⟩
    | some c =>
        have hsize : rrecvSize (some c) = c.bs.length := rfl
        rw [hsize] at h'
        by_cases hc : c.bs = []
        · left
          rw [if_pos (by simp [hc]), returns_run_pure] at h'
          obtain ⟨rfl, hret, -⟩ := h'
          rw [Prod.mk.injEq] at hret
          refine ⟨hoff, c, hc, rfl, by rw [← hret.1, hc]; rfl, ?_⟩
          rw [← hret.2, rrecvStore, hc, store_nil]
        · right
          right
          have hpos : 0 < c.bs.length := List.length_pos_iff.mpr hc
          have hle := c.length_le
          rw [if_neg (by omega), Nat.mod_eq_of_lt (by omega)] at h'
          exact ⟨hoff, t', c, hc, rfl, by omega, h'⟩
  · left
    rw [if_neg hoff, returns_run_pure, Prod.mk.injEq] at h
    exact ⟨not_lt.mp hoff, h.1, h.2.1.1.symm, h.2.1.2.symm⟩

/-- `_recv` returns `0` at the end of the stream, and the full length otherwise. -/
theorem recvFrom_ret (hlen : len < 2 ^ 64) : ∀ {fuel offset : ℕ} {msg : List UInt8} {t : Trace},
    Returns ((recvFrom dest len fuel offset msg).run g) t ((n, buf), g') →
    (HasEof t ∧ n = 0 ∧ 0 < len) ∨ (¬ HasEof t ∧ n = len)
  | 0, _, _, _, h => absurd h returns_run_halt
  | fuel + 1, offset, msg, t, h => by
      rcases recvFrom_cases hlen h with ⟨-, rfl, rfl, -⟩ | ⟨hoff, c, hc, rfl, rfl, -⟩ |
        ⟨-, t', rfl, h'⟩ | ⟨-, t', c, hc, rfl, -, h'⟩
      · exact Or.inr ⟨hasEof_nil, rfl⟩
      · exact Or.inl ⟨by simp [got, hc], rfl, by omega⟩
      · simpa [got] using recvFrom_ret hlen h'
      · simpa [got, hc] using recvFrom_ret hlen h'

/-- Where the loop still receives something, it stands within the message, and nothing is received
behind the place where it stands. -/
lemma recvFrom_first (hlen : len < 2 ^ 64) : ∀ {fuel offset : ℕ} {msg : List UInt8} {t : Trace},
    Returns ((recvFrom dest len fuel offset msg).run g) t ((n, buf), g') →
    ∀ s ∈ (pieces dest t).head?, offset < len ∧ s.1 ≤ offset
  | 0, _, _, _, h => absurd h returns_run_halt
  | fuel + 1, offset, msg, t, h => by
      rcases recvFrom_cases hlen h with ⟨-, rfl, rfl, -⟩ | ⟨-, c, hc, rfl, rfl, -⟩ |
        ⟨hoff, t', rfl, h'⟩ | ⟨hoff, t', c, hc, rfl, -, h'⟩
      · simp
      · simp [pieceOf, hc]
      · intro s hs
        obtain ⟨hoff', hs'⟩ := recvFrom_first hlen h' s hs
        omega
      · simp [pieceOf, hc, hoff]

/-- **When `_recv` has the message**: the pieces received make it up just where every `rrecv`
brought some bytes.  Each piece begins where the one before it ended as long as the offset only
goes forward; after a failure the next piece begins one byte too low, or the loop is over with
bytes missing. -/
theorem recvFrom_tiles_iff (hlen : len < 2 ^ 64) :
    ∀ {fuel offset : ℕ} {msg : List UInt8} {t : Trace}, offset ≤ len →
    Returns ((recvFrom dest len fuel offset msg).run g) t ((n, buf), g') →
    (Tiles offset (pieces dest t) len ↔ ¬ HasEof t ∧ ¬ HasError t)
  | 0, _, _, _, _, h => absurd h returns_run_halt
  | fuel + 1, offset, msg, t, hle, h => by
      rcases recvFrom_cases hlen h with ⟨hoff, rfl, rfl, -⟩ | ⟨hoff, c, hc, rfl, rfl, -⟩ |
        ⟨hoff, t', rfl, h'⟩ | ⟨hoff, t', c, hc, rfl, hle', h'⟩
      · simp only [pieces_nil, tiles_nil, hasEof_nil, hasError_nil, not_false_eq_true, and_self,
          iff_true]
        omega
      · simp only [pieces_cons, pieceOf, hc, ne_eq, not_true_eq_false, and_false, if_false,
          pieces_nil, List.append_nil, tiles_nil, hasEof_cons, got, true_or, false_and, iff_false]
        omega
      · -- after a failure the next piece starts before the offset
        have herror : HasError (⟨.rrecv dest offset (len - offset), none⟩ :: t') := by simp [got]
        refine iff_of_false (fun htiles => ?_) fun hnone => hnone.2 herror
        obtain ⟨l, rest, hrest, -⟩ := htiles.exists_first hoff
        have hpieces : pieces dest t' = (offset, l) :: rest := hrest
        have hfirst := recvFrom_first hlen h' (offset, l) (by rw [hpieces]; rfl)
        omega
      · have hpos : 0 < c.bs.length := List.length_pos_iff.mpr hc
        simp only [pieces_cons, pieceOf, ne_eq, hc, not_false_eq_true, and_self, if_true,
          List.singleton_append, tiles_cons, true_and, hpos, hasEof_cons, got, Got.data.injEq,
          hasError_cons, reduceCtorEq, false_or]
        exact recvFrom_tiles_iff hlen hle' h'

/-- The buffer keeps its length. -/
lemma recvFrom_length (hlen : len < 2 ^ 64) :
    ∀ {fuel offset : ℕ} {msg : List UInt8} {t : Trace}, len ≤ msg.length →
    Returns ((recvFrom dest len fuel offset msg).run g) t ((n, buf), g') →
    buf.length = msg.length
  | 0, _, _, _, _, h => absurd h returns_run_halt
  | fuel + 1, offset, msg, t, hle, h => by
      rcases recvFrom_cases hlen h with ⟨-, rfl, rfl, rfl⟩ | ⟨-, c, hc, rfl, rfl, rfl⟩ |
        ⟨-, t', rfl, h'⟩ | ⟨-, t', c, hc, rfl, hle', h'⟩
      · rfl
      · rfl
      · exact recvFrom_length hlen hle h'
      · have hlen' : (store msg offset c.bs).length = msg.length := length_store (by omega)
        exact (recvFrom_length hlen (hlen'.symm ▸ hle) h').trans hlen'

/-- A message that was received is in the buffer. -/
lemma recvFrom_buf (hlen : len < 2 ^ 64) :
    ∀ {fuel offset : ℕ} {msg : List UInt8} {t : Trace}, offset ≤ len → len ≤ msg.length →
    Returns ((recvFrom dest len fuel offset msg).run g) t ((n, buf), g') →
    ¬ HasEof t → ¬ HasError t → buf.take len = msg.take offset ++ received dest t
  | 0, _, _, _, _, _, h => absurd h returns_run_halt
  | fuel + 1, offset, msg, t, hoff, hle, h => by
      intro heof herror
      rcases recvFrom_cases hlen h with ⟨hge, rfl, rfl, rfl⟩ | ⟨-, c, hc, rfl, rfl, -⟩ |
        ⟨-, t', rfl, h'⟩ | ⟨-, t', c, hc, rfl, hle', h'⟩
      · rw [received_nil, List.append_nil, le_antisymm hoff hge]
      · simp [got, hc] at heof
      · simp [got] at herror
      · simp only [hasEof_cons, hasError_cons, not_or] at heof herror
        have hlen' : (store msg offset c.bs).length = msg.length := length_store (by omega)
        rw [recvFrom_buf hlen hle' (by omega) h' heof.2 herror.2, take_store (by omega),
          received_cons, receivedOf, if_pos rfl, List.append_assoc]

/-- What lies behind the message is as it was. -/
lemma recvFrom_drop (hlen : len < 2 ^ 64) :
    ∀ {fuel offset : ℕ} {msg : List UInt8} {t : Trace}, len ≤ msg.length →
    Returns ((recvFrom dest len fuel offset msg).run g) t ((n, buf), g') →
    buf.drop len = msg.drop len
  | 0, _, _, _, _, h => absurd h returns_run_halt
  | fuel + 1, offset, msg, t, hle, h => by
      rcases recvFrom_cases hlen h with ⟨-, rfl, rfl, rfl⟩ | ⟨-, c, hc, rfl, rfl, rfl⟩ |
        ⟨-, t', rfl, h'⟩ | ⟨-, t', c, hc, rfl, hle', h'⟩
      · rfl
      · rfl
      · exact recvFrom_drop hlen hle h'
      · have hlen' : (store msg offset c.bs).length = msg.length := length_store (by omega)
        rw [recvFrom_drop hlen (hlen'.symm ▸ hle) h', drop_store_of_le (by omega) hle']

end Loop

/-! ## The function -/

section Recv

variable {dest : Dest} {len fuel n : ℕ} {msg buf : List UInt8} {g g' : Globals} {t : Trace}

lemma recv_globals (h : Returns ((recv fuel dest msg len).run g) t ((n, buf), g')) : g' = g :=
  recvFrom_globals h

lemma recv_onlyInto (h : CanDo ((recv fuel dest msg len).run g) t) : OnlyInto dest t :=
  recvFrom_onlyInto h

theorem recv_ret (hlen : len < 2 ^ 64)
    (h : Returns ((recv fuel dest msg len).run g) t ((n, buf), g')) :
    (HasEof t ∧ n = 0 ∧ 0 < len) ∨ (¬ HasEof t ∧ n = len) := recvFrom_ret hlen h

theorem recv_tiles_iff (hlen : len < 2 ^ 64)
    (h : Returns ((recv fuel dest msg len).run g) t ((n, buf), g')) :
    Tiles 0 (pieces dest t) len ↔ ¬ HasEof t ∧ ¬ HasError t :=
  recvFrom_tiles_iff hlen (Nat.zero_le _) h

lemma recv_length (hlen : len < 2 ^ 64) (hle : len ≤ msg.length)
    (h : Returns ((recv fuel dest msg len).run g) t ((n, buf), g')) :
    buf.length = msg.length := recvFrom_length hlen hle h

lemma recv_buf (hlen : len < 2 ^ 64) (hle : len ≤ msg.length)
    (h : Returns ((recv fuel dest msg len).run g) t ((n, buf), g')) (heof : ¬ HasEof t)
    (herror : ¬ HasError t) : buf.take len = received dest t :=
  recvFrom_buf hlen (Nat.zero_le _) hle h heof herror

/-- A message that was received, and behind it what was there before. -/
lemma recv_mem (hlen : len < 2 ^ 64) (hle : len ≤ msg.length)
    (h : Returns ((recv fuel dest msg len).run g) t ((n, buf), g')) (heof : ¬ HasEof t)
    (herror : ¬ HasError t) : buf = received dest t ++ msg.drop len := by
  rw [← recv_buf hlen hle h heof herror, ← recvFrom_drop hlen hle h, List.take_append_drop]

/-- A buffer that the message fills. -/
lemma recv_buf_eq (hlen : len < 2 ^ 64) (hmsg : msg.length = len)
    (h : Returns ((recv fuel dest msg len).run g) t ((n, buf), g')) (heof : ¬ HasEof t)
    (herror : ¬ HasError t) : buf = received dest t := by
  have hbuf := recv_length hlen hmsg.ge h
  rw [← recv_buf hlen hmsg.ge h heof herror, ← hmsg, ← hbuf, List.take_length]

/-- A size that was received fits into 64 bits. -/
lemma recv_size_lt {x : ℕ}
    (h : Returns ((recv fuel dest (toBytes sizeofBytes x) sizeofBytes).run g) t ((n, buf), g')) :
    ofBytes buf < 2 ^ 64 := by
  have hbuf : buf.length = sizeofBytes := by
    rw [recv_length (by decide) (by simp) h, length_toBytes]
  exact (ofBytes_lt buf).trans_eq (by rw [hbuf]; rfl)

/-- A message that arrives in one piece. -/
lemma recv_whole {bs : List UInt8} (hbs : bs.length = len) (hpos : 0 < len)
    (hlen : len < 2 ^ 64) :
    Returns ((recv (fuel + 2) dest msg len).run g)
      [⟨.rrecv dest 0 len, some ⟨bs, hbs.le⟩⟩] ((len, store msg 0 bs), g) := by
  rw [recv, recvFrom, if_pos hpos, returns_run_perform_bind]
  refine ⟨some ⟨bs, hbs.le⟩, [], rfl, ?_⟩
  have hsize : rrecvSize (some (⟨bs, hbs.le⟩ : Chunk len)) = len := hbs
  dsimp only [Nat.sub_zero]
  rw [hsize, if_neg (by omega), Nat.zero_add, Nat.mod_eq_of_lt hlen, recvFrom,
    if_neg (lt_irrefl _), returns_run_pure]
  exact ⟨rfl, rfl, rfl⟩

end Recv

/-! ## Headers -/

section Header

variable {fuel : ℕ} {msg hdr : MsgHdr} {g g' : Globals} {t : Trace} {ret : Int}

/-- **All that `msg_recv_hdr` can do**: it returns the header's size for a header that it accepts.
-/
theorem msgRecvHdr_cases (h : Returns ((msgRecvHdr fuel msg).run g) t ((ret, hdr), g')) :
    g' = g ∧ ∃ n buf, Returns ((recv fuel .header msg.encode sizeofHdr).run g) t ((n, buf), g) ∧
      hdr = MsgHdr.decode buf ∧
      ((ret = -1 ∧ (n ≠ sizeofHdr ∨ hdr.version ≠ 0 ∨ hdr.len.toNat < sizeofHdr)) ∨
      (ret = sizeofHdr ∧ n = sizeofHdr ∧ hdr.version = 0 ∧ sizeofHdr ≤ hdr.len.toNat)) := by
  rw [msgRecvHdr] at h
  obtain ⟨t₁, t₂, ⟨n, buf⟩, g₁, rfl, hrecv, h₂⟩ := returns_run_bind.mp h
  obtain rfl := recv_globals hrecv
  dsimp only at h₂
  split at h₂
  · rename_i hn
    obtain ⟨rfl, hres, rfl⟩ := returns_run_pure.mp h₂
    obtain ⟨rfl, rfl⟩ := Prod.mk.inj hres
    rw [List.append_nil]
    exact ⟨rfl, n, buf, hrecv, rfl, Or.inl ⟨rfl, Or.inl hn⟩⟩
  · rename_i hn
    split at h₂
    · rename_i hbad
      obtain ⟨rfl, hres, rfl⟩ := returns_run_pure.mp h₂
      obtain ⟨rfl, rfl⟩ := Prod.mk.inj hres
      rw [List.append_nil]
      exact ⟨rfl, n, buf, hrecv, rfl, Or.inl ⟨rfl, Or.inr hbad⟩⟩
    · rename_i hgood
      obtain ⟨rfl, hres, rfl⟩ := returns_run_pure.mp h₂
      obtain ⟨rfl, rfl⟩ := Prod.mk.inj hres
      rw [List.append_nil]
      simp only [not_or, not_not, not_lt] at hgood hn
      exact ⟨rfl, n, buf, hrecv, rfl, Or.inr ⟨rfl, hn, hgood.1, hgood.2⟩⟩

lemma msgRecvHdr_onlyInto (h : CanDo ((msgRecvHdr fuel msg).run g) t) : OnlyInto .header t := by
  rw [msgRecvHdr] at h
  rcases canDo_run_bind.mp h with h | ⟨t₁, t₂, r, g₁, rfl, h₁, h₂⟩
  · exact recv_onlyInto h
  · have hnone : t₂ = [] := by
      dsimp only at h₂
      split at h₂
      · exact canDo_run_pure.mp h₂
      · split at h₂
        · exact canDo_run_pure.mp h₂
        · exact canDo_run_pure.mp h₂
    rw [hnone, List.append_nil]
    exact recv_onlyInto h₁.canDo

/-- Where nothing fails, an accepted header is what was received. -/
lemma msgRecvHdr_received (h : Returns ((msgRecvHdr fuel msg).run g) t ((sizeofHdr, hdr), g'))
    (herror : ¬ HasError t) :
    (received .header t).length = sizeofHdr ∧ hdr = MsgHdr.decode (received .header t) ∧
      ¬ HasEof t := by
  obtain ⟨-, n, buf, hrecv, hhdr, ⟨hret, -⟩ | ⟨-, rfl, -⟩⟩ := msgRecvHdr_cases h
  · exact absurd hret (by decide)
  · have heof : ¬ HasEof t := by
      rcases recv_ret (by decide) hrecv with ⟨-, hn, -⟩ | ⟨heof, -⟩
      · exact absurd hn (by decide)
      · exact heof
    have hlen := recv_length (by decide) (by simp) hrecv
    rw [MsgHdr.length_encode] at hlen
    rw [← recv_buf_eq (by decide) (by simp) hrecv heof herror]
    exact ⟨hlen, hhdr, heof⟩

/-- A header that arrives in one piece and is accepted. -/
lemma msgRecvHdr_whole {bs : List UInt8} (hbs : bs.length = sizeofHdr)
    (hversion : (MsgHdr.decode bs).version = 0) (hlen : sizeofHdr ≤ (MsgHdr.decode bs).len.toNat) :
    Returns ((msgRecvHdr (fuel + 2) msg).run g)
      [⟨.rrecv .header 0 sizeofHdr, some ⟨bs, hbs.le⟩⟩] ((sizeofHdr, MsgHdr.decode bs), g) := by
  have hrecv : Returns ((recv (fuel + 2) .header msg.encode sizeofHdr).run g)
      [⟨.rrecv .header 0 sizeofHdr, some ⟨bs, hbs.le⟩⟩] ((sizeofHdr, store msg.encode 0 bs), g) :=
    recv_whole hbs (by decide) (by decide)
  rw [store_whole (by rw [MsgHdr.length_encode, hbs])] at hrecv
  rw [msgRecvHdr, returns_run_bind]
  refine ⟨_, [], _, g, (List.append_nil _).symm, hrecv, ?_⟩
  dsimp only
  rw [if_neg (not_not.mpr rfl), if_neg (by simp [hversion]; omega), returns_run_pure]
  exact ⟨rfl, rfl, rfl⟩

end Header

end Rcopy
