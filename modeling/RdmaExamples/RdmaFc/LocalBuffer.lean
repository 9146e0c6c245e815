import RdmaExamples.RdmaFc.ReadTiling

/-!
# Where the bytes land

`init_transport` allocates one buffer for `num_connections * rdma_read_size` bytes, "split between
connections", and `get_conn_param` hands each peer the address of its own slice.  `post_rdma_read`
has no such split: its local address is `rdma_buf.ptr + offset`, the same for every connection.

So the slices hold what they should exactly when there is at most one connection
(`slices_hold_iff`).  From two connections on, the reads of all of them land in slice `0`.

`memoryAfter` follows the local memory through a run, with the peers' memory as a parameter: a read
copies from its peer when it completes.  The other clause, `SeparateDestinations`, is about the
addresses alone, so that the second half of the result does not depend on what the peers hold:
where two peers hold the same bytes, the slices may look right although the reads overwrite each
other.
-/

namespace RdmaFc

open MachineWords Tiling

/-! ## Memory -/

/-- The local addresses a read writes. -/
def destination (r : PostedRead) : Set ℕ :=
  {a | ∃ j < r.wr.length, a = (r.wr.addr + j) % 2 ^ 64}

/-- How far into the read's destination an address lies. -/
def depth (r : PostedRead) (a : ℕ) : ℕ := subWrap 64 a r.wr.addr

/-- The memory after a read completed: `remote c` is the memory of connection `c`'s peer. -/
def fetch (remote : ℕ → ℕ → UInt8) (mem : ℕ → UInt8) (r : PostedRead) : ℕ → UInt8 := fun a =>
  if depth r a < r.wr.length then remote r.conn ((r.wr.remoteAddr + depth r a) % 2 ^ 64) else mem a

/-- The local memory after a trace, from `mem` on. -/
def memoryAfter (remote : ℕ → ℕ → UInt8) (mem : ℕ → UInt8) : List ReadEvent → ℕ → UInt8
  | [] => mem
  | .posted _ :: tr => memoryAfter remote mem tr
  | .completed r :: tr => memoryAfter remote (fetch remote mem r) tr

/-- The slice of connection `c`, at the offset `get_conn_param` computes, holds the bytes at the
address advertised for `c`. -/
def SliceHolds (o : Options) (ctx : TestContext) (remote : ℕ → ℕ → UInt8) (mem : ℕ → UInt8)
    (c : ℕ) : Prop :=
  ∀ j < o.rdmaReadSize,
    mem ((ctx.rdmaBuf.ptr + c * o.rdmaReadSize + j) % 2 ^ 64)
      = remote c (((ctx.conns c).remoteAddr + j) % 2 ^ 64)

/-- Reads of different connections never have a local address in common. -/
def SeparateDestinations (tr : List ReadEvent) : Prop :=
  ∀ r ∈ postedReads tr, ∀ r' ∈ postedReads tr, r.conn ≠ r'.conn →
    Disjoint (destination r) (destination r')

/-! ## Lemmas -/

lemma memoryAfter_append (remote : ℕ → ℕ → UInt8) : ∀ (mem : ℕ → UInt8) (tr tr' : List ReadEvent),
    memoryAfter remote mem (tr ++ tr') = memoryAfter remote (memoryAfter remote mem tr) tr'
  | _, [], _ => rfl
  | mem, .posted _ :: tr, tr' => memoryAfter_append remote mem tr tr'
  | mem, .completed r :: tr, tr' => memoryAfter_append remote (fetch remote mem r) tr tr'

/-- A read posted for the bytes from `offset` on reaches byte `j` of the buffer exactly when `j`
lies in its segment. -/
lemma depth_eq {ptr offset j : ℕ} {r : PostedRead} (hoff : offset < 2 ^ 32) (hj : j < 2 ^ 32)
    (haddr : r.wr.addr = (ptr + offset) % 2 ^ 64) :
    depth r ((ptr + j) % 2 ^ 64) = if offset ≤ j then j - offset else 2 ^ 64 + j - offset := by
  rw [depth, subWrap, haddr, Nat.mod_mod]
  split <;> omega

/-- Once byte `j` is right, it stays right: every read that covers it fetches the same byte. -/
lemma fetch_keeps {ptr base j : ℕ} {remote : ℕ → ℕ → UInt8} {mem : ℕ → UInt8} {r : PostedRead}
    (hoff : r.offset < 2 ^ 32) (hj : j < 2 ^ 32) (hlen : r.wr.length < 2 ^ 32)
    (haddr : r.wr.addr = (ptr + r.offset) % 2 ^ 64)
    (hremote : r.wr.remoteAddr = (base + r.offset) % 2 ^ 64) :
    fetch remote mem r ((ptr + j) % 2 ^ 64)
      = if r.offset ≤ j ∧ j < r.offset + r.wr.length then remote r.conn ((base + j) % 2 ^ 64)
        else mem ((ptr + j) % 2 ^ 64) := by
  rw [fetch, depth_eq hoff hj haddr]
  by_cases hle : r.offset ≤ j
  · rw [if_pos hle]
    by_cases hlt : j < r.offset + r.wr.length
    · rw [if_pos (by omega), if_pos ⟨hle, hlt⟩, hremote]
      congr 1
      omega
    · rw [if_neg (by omega), if_neg (by omega)]
  · rw [if_neg hle, if_neg (by omega), if_neg (by omega)]

/-- A byte covered by a completed read is right at the end, when all reads are of one connection. -/
lemma memoryAfter_covered {ptr base j c : ℕ} {remote : ℕ → ℕ → UInt8} {mem : ℕ → UInt8}
    (hj : j < 2 ^ 32) (tr : List ReadEvent)
    (hgood : ∀ r, .completed r ∈ tr → r.conn = c ∧ r.offset + r.wr.length < 2 ^ 32 ∧
      r.wr.addr = (ptr + r.offset) % 2 ^ 64 ∧ r.wr.remoteAddr = (base + r.offset) % 2 ^ 64)
    (hcover : ∃ r, .completed r ∈ tr ∧ r.offset ≤ j ∧ j < r.offset + r.wr.length) :
    memoryAfter remote mem tr ((ptr + j) % 2 ^ 64) = remote c ((base + j) % 2 ^ 64) := by
  induction tr using List.reverseRecOn with
  | nil =>
      obtain ⟨r, hr, _⟩ := hcover
      exact absurd hr (by simp)
  | append_singleton tr e ih =>
      have hgood' : ∀ r, .completed r ∈ tr → _ :=
        fun r hr => hgood r (List.mem_append_left _ hr)
      rw [memoryAfter_append]
      cases e with
      | posted r₀ =>
          refine ih hgood' ?_
          obtain ⟨r, hr, hcov⟩ := hcover
          exact ⟨r, by simpa using hr, hcov⟩
      | completed r₀ =>
          obtain ⟨hconn, hend, haddr, hremote⟩ := hgood r₀ (by simp)
          simp only [memoryAfter]
          rw [fetch_keeps (by omega) hj (by omega) haddr hremote, hconn]
          split
          · rfl
          · rename_i hnot
            refine ih hgood' ?_
            obtain ⟨r, hr, hcov⟩ := hcover
            rcases List.mem_append.mp hr with hr | hr
            · exact ⟨r, hr, hcov⟩
            · obtain rfl : r = r₀ := by simpa using hr
              exact absurd hcov hnot

variable {o : Options} {ctx : TestContext} {tr : List ReadEvent} {s : ReadSys}

/-- With one connection, the slice holds the peer's bytes after an iteration. -/
lemma Between.sliceHolds (h : Between o ctx tr s) (hiter : 0 < s.code.iter)
    (hone : ctx.numConns = 1) (remote : ℕ → ℕ → UInt8) (mem : ℕ → UInt8) :
    SliceHolds o ctx remote (memoryAfter remote mem tr) 0 := by
  intro j hj
  have hsz := o.rdmaReadSize_eq
  have hconn : ∀ r ∈ postedReads tr, r.conn = 0 := by
    intro r hr
    have := (h.reads r hr).conn_lt
    omega
  rw [Nat.zero_mul, Nat.add_zero]
  refine memoryAfter_covered (by omega) tr ?_ ?_
  · intro r hr
    have hp := (h.done r).mpr hr
    have hread := h.reads r hp
    have := h.inside hp
    refine ⟨hconn r hp, by omega, hread.addr, ?_⟩
    rw [hread.remoteAddr, hconn r hp]
  · obtain ⟨seg, hseg, hlo, hhi⟩ := (h.tiled 0 hiter 0 (by omega)).covers j (Nat.zero_le j) hj
    simp only [segments, List.mem_map, List.mem_filter] at hseg
    obtain ⟨r, ⟨hr, _⟩, rfl⟩ := hseg
    exact ⟨r, (h.done r).mp hr, hlo, hhi⟩

/-- Every connection has a read that starts at the start of the local buffer. -/
lemma Between.exists_first (h : Between o ctx tr s) (hiter : 0 < s.code.iter) {c : ℕ}
    (hc : c < ctx.numConns) :
    ∃ r ∈ postedReads tr, r.conn = c ∧ ctx.rdmaBuf.ptr % 2 ^ 64 ∈ destination r := by
  obtain ⟨len, rest, hsegs, hlen⟩ := (h.tiled 0 hiter c hc).exists_first o.rdmaReadSize_pos
  have hmem : (0, len) ∈ segments tr 0 c := by simp [hsegs]
  simp only [segments, List.mem_map, List.mem_filter, decide_eq_true_eq, Prod.mk.injEq] at hmem
  obtain ⟨r, ⟨hr, _, hconn⟩, hoff, hrlen⟩ := hmem
  refine ⟨r, hr, hconn, 0, by omega, ?_⟩
  rw [(h.reads r hr).addr, hoff]
  simp

/-! ## The result -/

/-- **The slices hold what they should exactly when there is at most one connection.**  For every
phase that returns `0` after at least one iteration, whatever the buffers held before.

With one connection its slice begins at `rdma_buf.ptr`, which is where the reads go, and in the
last iteration they tile it; what an earlier iteration wrote is overwritten with the same bytes.
With two connections, each has a read that covers the offset `0`, and both go to the same local
address, so that their destinations are not disjoint. -/
theorem slices_hold_iff (o : Options) (ctx : TestContext) (tr : List ReadEvent) (s : ReadSys)
    (remote : ℕ → ℕ → UInt8) (mem : ℕ → UInt8) (hrun : ReadRun o ctx tr s)
    (hret : s.code.pc = .stopped (.ret 0)) (hiter : 0 < o.numIterations) :
    ((∀ c < ctx.numConns, SliceHolds o ctx remote (memoryAfter remote mem tr) c) ∧
      SeparateDestinations tr) ↔ ctx.numConns ≤ 1 := by
  obtain ⟨h, hend⟩ := between_of_return hrun hret
  have hpos : 0 < s.code.iter := by omega
  constructor
  · rintro ⟨_, hsep⟩
    by_contra htwo
    obtain ⟨r, hr, hconn, hin⟩ := h.exists_first hpos (c := 0) (by omega)
    obtain ⟨r', hr', hconn', hin'⟩ := h.exists_first hpos (c := 1) (by omega)
    exact (Set.disjoint_left.mp (hsep r hr r' hr' (by omega))) hin hin'
  · intro hone
    refine ⟨fun c hc => ?_, fun r hr r' hr' hne => ?_⟩
    · obtain rfl : c = 0 := by omega
      exact h.sliceHolds hpos (by omega) remote mem
    · have := (h.reads r hr).conn_lt
      have := (h.reads r' hr').conn_lt
      omega

/-- The read of one connection is where it should be. -/
theorem slices_hold_iff_oneRead : ∃ tr, SeparateDestinations tr ∧
    SliceHolds oneReadOptions oneConnContext (fun _ _ => 7)
      (memoryAfter (fun _ _ => 7) (fun _ => 0) tr) 0 := by
  obtain ⟨tr, s, hrun, hret⟩ := oneRead_returns
  have h := (slices_hold_iff oneReadOptions oneConnContext tr s (fun _ _ => 7) (fun _ => 0) hrun
    (of_decide_eq_true hret) (by decide)).mpr (by decide)
  exact ⟨tr, h.2, h.1 0 (by decide)⟩

/-- Two peers whose memory is full of `1` and of `2`. -/
def twoPeers : ℕ → ℕ → UInt8 := fun c _ => if c = 0 then 1 else 2

/-- With two connections both reads land in slice `0`: it ends up with the second peer's bytes. -/
theorem twoReads_overwrite : ∃ tr s, ReadRun oneReadOptions twoConnsContext tr s ∧
    s.code.pc = .stopped (.ret 0) ∧
    ¬ SliceHolds oneReadOptions twoConnsContext twoPeers
      (memoryAfter twoPeers (fun _ => 0) tr) 0 ∧
    ¬ SeparateDestinations tr := by
  obtain ⟨tr, s, hrun, htest⟩ := Runs.Run.exists_of_play (nextRead oneReadOptions)
    (ReadSys.start twoConnsContext)
    [.tick, .tick, .post 0, .pollEmpty, .tick, .post 0, .pollRead 0, .tick, .post 0,
      .pollRead 0, .tick, .tick]
    (fun r => decide (r.1.code.pc = .stopped (.ret 0)) &&
      decide (memoryAfter twoPeers (fun _ => 0) r.2 4096 = 2)) (by decide +kernel)
  obtain ⟨hret, hmem⟩ : s.code.pc = .stopped (.ret 0) ∧
      memoryAfter twoPeers (fun _ => 0) tr 4096 = 2 := by simpa using htest
  refine ⟨tr, s, hrun, hret, fun hslice => ?_, fun hsep => ?_⟩
  · have := hslice 0 (by decide)
    rw [show (twoConnsContext.rdmaBuf.ptr + 0 * oneReadOptions.rdmaReadSize + 0) % 2 ^ 64 = 4096
      from rfl, hmem] at this
    exact absurd this (by decide)
  · obtain ⟨h, hend⟩ := between_of_return hrun hret
    have hpos : 0 < s.code.iter := by rw [hend]; decide
    obtain ⟨r, hr, hconn, hin⟩ := h.exists_first hpos (c := 0) (by decide)
    obtain ⟨r', hr', hconn', hin'⟩ := h.exists_first hpos (c := 1) (by decide)
    exact Set.disjoint_left.mp (hsep r hr r' hr' (by omega)) hin hin'

end RdmaFc
