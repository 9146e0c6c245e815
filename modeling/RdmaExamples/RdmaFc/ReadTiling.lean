import RdmaExamples.RdmaFc.ReadLoop

/-!
# Every connection is read exactly once per iteration

Whatever order the completions come in and whichever posts are refused, a read phase that returns
`0` has read every connection's buffer once in each iteration: the segments posted for it tile
`[0, rdma_read_size)`, and no iteration starts before the one before it is complete.

The invariant has two shapes.  `Between` holds at the test of the outer loop: nothing is scheduled
and nothing outstanding.  `Within` holds inside the inner loop, and ties three things together: a
connection is on the schedule list exactly when its `read_offset` is short of the end, the segments
posted for it in this iteration tile `[0, read_offset)`, and `num_outstanding_reads` counts the
reads the device has not reported.

What a step of the loop does to `Within` is shown field by field where a read is posted
(`Within.post_nodup` to `Within.post_reads`), since there most of the state changes; the other
steps change one thing each.  A phase that stops with an error, in an assertion or in undefined
behaviour promises nothing, and the invariant asks nothing of it.

The invariant does not look at which queue pair a read is posted on, so that the result holds over
RC and over DC alike, and in runs in which the device refuses any number of posts.
-/

namespace RdmaFc

open MachineWords Tiling

/-! ## What a trace says

The property is about what the device was handed, so it is stated on the events alone: the reads of
one connection in one iteration, in the order of their posts. -/

/-- The reads posted, in order. -/
def postedReads : List ReadEvent → List PostedRead :=
  List.filterMap fun
    | .posted r => some r
    | .completed _ => none

/-- The segments posted for connection `c` in iteration `k`, in order. -/
def segments (tr : List ReadEvent) (k c : ℕ) : List Segment :=
  ((postedReads tr).filter fun r => r.iter = k ∧ r.conn = c).map fun r => (r.offset, r.wr.length)

/-- A read of iteration `k + 1` is posted after every read of iteration `k` has completed. -/
def Barrier (tr : List ReadEvent) : Prop :=
  ∀ pre r post, tr = pre ++ .posted r :: post →
    ∀ r' ∈ postedReads tr, r'.iter + 1 = r.iter → .completed r' ∈ pre

/-- In iteration `k` every connection is read exactly once. -/
def TiledIn (o : Options) (n : ℕ) (tr : List ReadEvent) (k : ℕ) : Prop :=
  ∀ c < n, Tiles 0 (segments tr k c) o.rdmaReadSize

/-- The read is one of a connection there is, of a size that was asked for, and its work request
names the connection's remote buffer and the registered local one at the read's offset. -/
structure ReadOf (o : Options) (ctx : TestContext) (r : PostedRead) : Prop where
  conn_lt : r.conn < ctx.numConns
  length_pos : 0 < r.wr.length
  length_le : r.wr.length ≤ o.maxReadSize
  remoteAddr : r.wr.remoteAddr = ((ctx.conns r.conn).remoteAddr + r.offset) % 2 ^ 64
  addr : r.wr.addr = (ctx.rdmaBuf.ptr + r.offset) % 2 ^ 64

section Traces

variable (tr tr' : List ReadEvent) (r : PostedRead) (k c : ℕ)

@[simp] lemma postedReads_nil : postedReads [] = [] := rfl
@[simp] lemma postedReads_append :
    postedReads (tr ++ tr') = postedReads tr ++ postedReads tr' := List.filterMap_append ..
@[simp] lemma postedReads_posted : postedReads [.posted r] = [r] := rfl
@[simp] lemma postedReads_completed : postedReads [.completed r] = [] := rfl

@[simp] lemma segments_nil : segments [] k c = [] := rfl
@[simp] lemma segments_completed : segments (tr ++ [.completed r]) k c = segments tr k c := by
  simp [segments]

lemma segments_posted : segments (tr ++ [.posted r]) k c
    = segments tr k c ++ if r.iter = k ∧ r.conn = c then [(r.offset, r.wr.length)] else [] := by
  simp only [segments, postedReads_append, postedReads_posted, List.filter_append, List.map_append]
  by_cases h : r.iter = k ∧ r.conn = c <;> simp [h]

lemma segments_eq_nil (h : ∀ r ∈ postedReads tr, r.iter ≠ k) : segments tr k c = [] := by
  have : (postedReads tr).filter (fun r => decide (r.iter = k ∧ r.conn = c)) = [] := by
    rw [List.filter_eq_nil_iff]
    intro r hr
    simp [h r hr]
  rw [segments, this, List.map_nil]

end Traces

/-- A trace that ends in a completion keeps the barrier. -/
lemma Barrier.completed {tr : List ReadEvent} (h : Barrier tr) (r₀ : PostedRead) :
    Barrier (tr ++ [.completed r₀]) := by
  intro pre r post heq r' hr' hiter
  rcases List.eq_nil_or_concat post with rfl | ⟨post', e, rfl⟩
  · have := congrArg List.getLast? heq
    simp at this
  · have hsplit : tr = pre ++ .posted r :: post' := by
      have heq' : tr ++ [.completed r₀] = (pre ++ .posted r :: post') ++ [e] := by
        simpa using heq
      exact List.append_inj_left' heq' rfl
    exact h pre r post' hsplit r' (by simpa using hr') hiter

/-- A trace that ends in a post keeps the barrier, when all earlier iterations are complete. -/
lemma Barrier.posted {tr : List ReadEvent} (h : Barrier tr) (r₀ : PostedRead)
    (hle : ∀ r ∈ postedReads tr, r.iter ≤ r₀.iter)
    (hdone : ∀ r ∈ postedReads tr, r.iter < r₀.iter → .completed r ∈ tr) :
    Barrier (tr ++ [.posted r₀]) := by
  intro pre r post heq r' hr' hiter
  have hr'' : r' ∈ postedReads tr ∨ r' = r₀ := by simpa using hr'
  rcases List.eq_nil_or_concat post with rfl | ⟨post', e, rfl⟩
  · have heq' : tr = pre ∧ r₀ = r := by simpa using heq
    obtain ⟨rfl, rfl⟩ := heq'
    rcases hr'' with hr'' | rfl
    · exact hdone r' hr'' (by omega)
    · omega
  · have hsplit : tr = pre ++ .posted r :: post' := by
      have heq' : tr ++ [.posted r₀] = (pre ++ .posted r :: post') ++ [e] := by
        simpa using heq
      exact List.append_inj_left' heq' rfl
    have hr : r ∈ postedReads tr := by rw [hsplit]; simp [postedReads]
    rcases hr'' with hr'' | rfl
    · exact h pre r post' hsplit r' hr'' hiter
    · have := hle r hr
      omega

/-! ## The invariant

Inside an iteration the reads of each connection tile its buffer up to `read_offset`; the
connections that are on the schedule list are those with something left to read.  Between two
iterations all of that is complete. -/

/-- What the read phase never changes. -/
structure SameSetup (ctx ctx' : TestContext) : Prop where
  numConns : ctx'.numConns = ctx.numConns
  rdmaBuf : ctx'.rdmaBuf = ctx.rdmaBuf
  remoteAddr : ∀ c, (ctx'.conns c).remoteAddr = (ctx.conns c).remoteAddr

/-- The invariant between two iterations.  Here the schedule is empty and nothing is outstanding,
so every read that was posted has completed; the finished iterations are tiled, and none of the
reads belongs to a later one. -/
structure Between (o : Options) (ctx : TestContext) (tr : List ReadEvent) (s : ReadSys) :
    Prop where
  setup : SameSetup ctx s.code.ctx
  sched : s.code.sched = []
  pending : s.pending = []
  outstanding : s.code.ctx.numOutstandingReads = 0
  iter_le : s.code.iter ≤ o.numIterations
  tiled : ∀ k < s.code.iter, TiledIn o ctx.numConns tr k
  earlier : ∀ r ∈ postedReads tr, r.iter < s.code.iter
  done : ∀ r, r ∈ postedReads tr ↔ .completed r ∈ tr
  barrier : Barrier tr
  reads : ∀ r ∈ postedReads tr, ReadOf o ctx r

/-- The invariant within an iteration.  The reads of the current iteration tile each buffer up to
its `read_offset`, a connection is in the schedule as long as its offset is below the read size,
and every read is either outstanding or completed.  When the schedule and the queue are empty, this
is `Between` for one iteration more. -/
structure Within (o : Options) (ctx : TestContext) (tr : List ReadEvent) (s : ReadSys) :
    Prop where
  setup : SameSetup ctx s.code.ctx
  nodup : s.code.sched.Nodup
  sched : ∀ c, c ∈ s.code.sched ↔
    c < ctx.numConns ∧ (s.code.ctx.conns c).readOffset < o.rdmaReadSize
  offset_le : ∀ c < ctx.numConns, (s.code.ctx.conns c).readOffset ≤ o.rdmaReadSize
  outstanding : s.code.ctx.numOutstandingReads = s.pending.length
  pending_le : s.pending.length ≤ o.maxOutstandingReads
  pending_iter : ∀ r ∈ s.pending, r.iter = s.code.iter
  iter_lt : s.code.iter < o.numIterations
  tiled : ∀ k < s.code.iter, TiledIn o ctx.numConns tr k
  current : ∀ c < ctx.numConns,
    Tiles 0 (segments tr s.code.iter c) (s.code.ctx.conns c).readOffset
  sofar : ∀ r ∈ postedReads tr, r.iter ≤ s.code.iter
  done : ∀ r, r ∈ postedReads tr ↔ r ∈ s.pending ∨ .completed r ∈ tr
  barrier : Barrier tr
  reads : ∀ r ∈ postedReads tr, ReadOf o ctx r

/-- The invariant, by where the code stands.  A phase that stopped short promises nothing. -/
def TilingInv (o : Options) (ctx : TestContext) (tr : List ReadEvent) (s : ReadSys) : Prop :=
  match s.code.pc with
  | .forTest => Between o ctx tr s
  | .whileTest | .post | .poll => Within o ctx tr s
  | .stopped (.ret r) => r = 0 → Between o ctx tr s ∧ s.code.iter = o.numIterations
  | .stopped _ => True

lemma tilingInv_start (o : Options) (ctx : TestContext) :
    TilingInv o ctx [] (ReadSys.start ctx) where
  setup := ⟨rfl, rfl, fun _ => rfl⟩
  sched := rfl
  pending := rfl
  outstanding := rfl
  iter_le := Nat.zero_le _
  tiled := fun k hk => absurd hk (Nat.not_lt_zero k)
  earlier := by simp
  done := by simp
  barrier := fun pre r post h => absurd h (by simp)
  reads := by simp

variable {o : Options} {ctx : TestContext} {tr : List ReadEvent} {s : ReadSys}

/-- An iteration starts. -/
lemma Between.enter (h : Between o ctx tr s) (hiter : s.code.iter < o.numIterations) :
    Within o ctx tr { s with code := { s.code with
      ctx := s.code.ctx.resetOffsets
      sched := s.code.sched ++ List.range s.code.ctx.numConns
      pc := .whileTest } } := by
  have hoff : ∀ c < ctx.numConns, (s.code.ctx.resetOffsets.conns c).readOffset = 0 := by
    intro c hc
    simp [TestContext.resetOffsets, h.setup.numConns, hc]
  exact {
    setup := ⟨h.setup.numConns, h.setup.rdmaBuf, fun c => by simp [h.setup.remoteAddr]⟩
    nodup := by simp [h.sched, List.nodup_range]
    sched := by
      intro c
      simp only [h.sched, List.nil_append, List.mem_range, h.setup.numConns]
      constructor
      · intro hc
        exact ⟨hc, by rw [hoff c hc]; exact o.rdmaReadSize_pos⟩
      · exact fun hc => hc.1
    offset_le := fun c hc => by rw [hoff c hc]; exact Nat.zero_le _
    outstanding := by simp [h.outstanding, h.pending]
    pending_le := by simp [h.pending]
    pending_iter := by simp [h.pending]
    iter_lt := hiter
    tiled := h.tiled
    current := by
      intro c hc
      have hnil : segments tr s.code.iter c = [] :=
        segments_eq_nil tr _ c fun r hr => (h.earlier r hr).ne
      rw [hnil, hoff c hc]
      rfl
    sofar := fun r hr => (h.earlier r hr).le
    done := fun r => by simp [h.done r, h.pending]
    barrier := h.barrier
    reads := h.reads }

/-- An iteration ends. -/
lemma Within.leave (h : Within o ctx tr s) (hnone : s.code.ctx.numOutstandingReads = 0)
    (hempty : s.code.sched = []) :
    Between o ctx tr { s with code := { s.code with
      iter := incr 32 s.code.iter
      pc := .forTest } } := by
  have hpend : s.pending = [] := by
    rw [← List.length_eq_zero_iff, ← h.outstanding]
    exact hnone
  have hsucc : incr 32 s.code.iter = s.code.iter + 1 :=
    incr_of_lt (by have := h.iter_lt; have := o.numIterations_lt; omega)
  have hend : ∀ c < ctx.numConns, (s.code.ctx.conns c).readOffset = o.rdmaReadSize := by
    intro c hc
    have hnot : c ∉ s.code.sched := by simp [hempty]
    rw [h.sched c] at hnot
    have := h.offset_le c hc
    have := not_and.mp hnot hc
    omega
  exact {
    setup := h.setup
    sched := hempty
    pending := hpend
    outstanding := hnone
    iter_le := by simp only [hsucc]; exact h.iter_lt
    tiled := by
      intro k hk c hc
      simp only [hsucc] at hk
      rcases Nat.lt_succ_iff_lt_or_eq.mp hk with hk | rfl
      · exact h.tiled k hk c hc
      · have := h.current c hc
        rwa [hend c hc] at this
    earlier := by
      intro r hr
      have := h.sofar r hr
      simp only [hsucc]
      omega
    done := fun r => by simp [h.done r, hpend]
    barrier := h.barrier
    reads := h.reads }

/-- A step that touches neither the connections nor the reads keeps the invariant. -/
lemma Within.sameReads (h : Within o ctx tr s) {code' : ReadState}
    (hctx : ∃ n, code'.ctx = { s.code.ctx with numFinRecvd := n })
    (hsched : code'.sched = s.code.sched) (hiter : code'.iter = s.code.iter) :
    Within o ctx tr { s with code := code' } := by
  obtain ⟨n, hctx⟩ := hctx
  obtain ⟨ctx', sched', iter', pc'⟩ := code'
  dsimp only at hctx hsched hiter
  subst hctx hsched hiter
  exact ⟨⟨h.setup.numConns, h.setup.rdmaBuf, h.setup.remoteAddr⟩, h.nodup, h.sched, h.offset_le,
    h.outstanding, h.pending_le, h.pending_iter, h.iter_lt, h.tiled, h.current, h.sofar, h.done,
    h.barrier, h.reads⟩

/-- The size of the next read, where the connection still has bytes to read. -/
lemma nextSize_eq {ctx : TestContext} {c : ℕ}
    (hoff : (ctx.conns c).readOffset ≤ o.rdmaReadSize) :
    nextSize o ctx c = min o.maxReadSize (o.rdmaReadSize - (ctx.conns c).readOffset) := by
  have := o.rdmaReadSize_eq
  rw [nextSize, subWrap_of_le hoff (by omega)]

/-! ### A read is posted

`new c` is the `read_offset` of connection `c` after the post: that of `conn` has moved on by
`size`, the others stand where they stood.  Each lemma takes what it needs of the read `r` that was
posted and gives one field of the invariant. -/

section Post

variable {conn : ℕ} {rest : List ℕ} {new : ℕ → ℕ} {size : ℕ} {r : PostedRead}

/-- The connection at the head leaves the list or goes to its end, so no connection is on it
twice. -/
lemma Within.post_nodup (h : Within o ctx tr s) (hsched : s.code.sched = conn :: rest)
    (p : Prop) [Decidable p] : (if p then rest ++ [conn] else rest).Nodup := by
  have hnodup := h.nodup
  rw [hsched, List.nodup_cons] at hnodup
  split
  · rw [List.nodup_append]
    refine ⟨hnodup.2, by simp, ?_⟩
    rintro a ha b hb rfl
    rw [List.mem_singleton] at hb
    exact hnodup.1 (hb ▸ ha)
  · exact hnodup.2

/-- The connection stays on the list just when its new offset is short of the end; the others are on
it or off it as before. -/
lemma Within.post_mem_sched (h : Within o ctx tr s) (hsched : s.code.sched = conn :: rest)
    (hnew : ∀ c, new c = if c = conn then (s.code.ctx.conns conn).readOffset + size
      else (s.code.ctx.conns c).readOffset) (c : ℕ) :
    c ∈ (if new conn < o.rdmaReadSize then rest ++ [conn] else rest) ↔
      c < ctx.numConns ∧ new c < o.rdmaReadSize := by
  have hconn : conn < ctx.numConns := ((h.sched conn).mp (by simp [hsched])).1
  have hrest : conn ∉ rest := by
    have hnodup := h.nodup
    rw [hsched, List.nodup_cons] at hnodup
    exact hnodup.1
  have hc := h.sched c
  rw [hsched, List.mem_cons] at hc
  by_cases hcc : c = conn
  · subst hcc
    split
    · rename_i hlt
      simp [hconn, hlt]
    · rename_i hge
      simp [hge, hrest]
  · rw [hnew c, if_neg hcc, ← hc]
    split <;> simp [hcc]

lemma Within.post_offset_le (h : Within o ctx tr s)
    (hle : (s.code.ctx.conns conn).readOffset + size ≤ o.rdmaReadSize)
    (hnew : ∀ c, new c = if c = conn then (s.code.ctx.conns conn).readOffset + size
      else (s.code.ctx.conns c).readOffset) :
    ∀ c < ctx.numConns, new c ≤ o.rdmaReadSize := by
  intro c hc
  rw [hnew c]
  split
  · exact hle
  · exact h.offset_le c hc

lemma Within.post_outstanding (h : Within o ctx tr s)
    (hlimit : s.code.ctx.numOutstandingReads < o.maxOutstandingReads) :
    incr 64 s.code.ctx.numOutstandingReads = (s.pending ++ [r]).length := by
  have := o.maxOutstandingReads_lt
  rw [incr_of_lt (by omega), h.outstanding, List.length_append, List.length_singleton]

lemma Within.post_pending_le (h : Within o ctx tr s)
    (hlimit : s.code.ctx.numOutstandingReads < o.maxOutstandingReads) :
    (s.pending ++ [r]).length ≤ o.maxOutstandingReads := by
  rw [h.outstanding] at hlimit
  rw [List.length_append, List.length_singleton]
  omega

lemma Within.post_pending_iter (h : Within o ctx tr s) (hriter : r.iter = s.code.iter) :
    ∀ r' ∈ s.pending ++ [r], r'.iter = s.code.iter := by
  intro r' hr'
  rcases List.mem_append.mp hr' with hr' | hr'
  · exact h.pending_iter r' hr'
  · rw [List.mem_singleton.mp hr', hriter]

/-- The iterations that are complete get no segment. -/
lemma Within.post_tiled (h : Within o ctx tr s) (hriter : r.iter = s.code.iter) :
    ∀ k < s.code.iter, TiledIn o ctx.numConns (tr ++ [.posted r]) k := by
  intro k hk c hc
  rw [segments_posted, if_neg (by rintro ⟨hk', _⟩; omega), List.append_nil]
  exact h.tiled k hk c hc

/-- The new segment starts where the tiling of its connection ended, and no other connection gets
one. -/
lemma Within.post_current (h : Within o ctx tr s) (hriter : r.iter = s.code.iter)
    (hrconn : r.conn = conn) (hroff : r.offset = (s.code.ctx.conns conn).readOffset)
    (hlen : r.wr.length = size) (hpos : 0 < size)
    (hnew : ∀ c, new c = if c = conn then (s.code.ctx.conns conn).readOffset + size
      else (s.code.ctx.conns c).readOffset) :
    ∀ c < ctx.numConns, Tiles 0 (segments (tr ++ [.posted r]) s.code.iter c) (new c) := by
  intro c hc
  rw [segments_posted, hnew c]
  by_cases hcc : c = conn
  · subst hcc
    rw [if_pos ⟨hriter, hrconn⟩, if_pos rfl, hroff, hlen]
    exact (h.current c hc).snoc hpos
  · rw [if_neg (by rintro ⟨_, hcc'⟩; exact hcc (by rw [← hcc', hrconn])), if_neg hcc,
      List.append_nil]
    exact h.current c hc

lemma Within.post_sofar (h : Within o ctx tr s) (hriter : r.iter = s.code.iter) :
    ∀ r' ∈ postedReads (tr ++ [.posted r]), r'.iter ≤ s.code.iter := by
  intro r' hr'
  simp only [postedReads_append, postedReads_posted, List.mem_append, List.mem_singleton] at hr'
  rcases hr' with hr' | rfl
  · exact h.sofar r' hr'
  · exact hriter.le

lemma Within.post_done (h : Within o ctx tr s) (r' : PostedRead) :
    r' ∈ postedReads (tr ++ [.posted r]) ↔
      r' ∈ s.pending ++ [r] ∨ .completed r' ∈ tr ++ [.posted r] := by
  simp only [postedReads_append, postedReads_posted, List.mem_append, List.mem_singleton,
    h.done r', reduceCtorEq, or_false]
  tauto

/-- What is outstanding belongs to this iteration, so every read of an earlier one is complete. -/
lemma Within.post_barrier (h : Within o ctx tr s) (hriter : r.iter = s.code.iter) :
    Barrier (tr ++ [.posted r]) := by
  refine h.barrier.posted r (fun r' hr' => by rw [hriter]; exact h.sofar r' hr') ?_
  intro r' hr' hlt
  rcases (h.done r').mp hr' with hp | hc
  · have := h.pending_iter r' hp
    omega
  · exact hc

lemma Within.post_reads (h : Within o ctx tr s) (hr : ReadOf o ctx r) :
    ∀ r' ∈ postedReads (tr ++ [.posted r]), ReadOf o ctx r' := by
  intro r' hr'
  simp only [postedReads_append, postedReads_posted, List.mem_append, List.mem_singleton] at hr'
  rcases hr' with hr' | rfl
  · exact h.reads r' hr'
  · exact hr

end Post

/-- A read is posted. -/
lemma Within.post (h : Within o ctx tr s) {conn : ℕ} {rest : List ℕ} {mr : Mr}
    {queue : SendQueue} {wrId : ℕ} (hsched : s.code.sched = conn :: rest)
    (hlimit : s.code.ctx.numOutstandingReads < o.maxOutstandingReads)
    (hsize : nextSize o s.code.ctx conn ≠ 0) {r : PostedRead}
    (hr : r = ⟨s.nextId, s.code.iter, conn, (s.code.ctx.conns conn).readOffset,
      readWr s.code.ctx mr conn (s.code.ctx.conns conn).readOffset
        (nextSize o s.code.ctx conn) queue wrId⟩) :
    Within o ctx (tr ++ [.posted r])
      { code := { s.code with
          ctx := s.code.ctx.afterPost queue conn (nextSize o s.code.ctx conn)
          sched := if ((s.code.ctx.afterPost queue conn
              (nextSize o s.code.ctx conn)).conns conn).readOffset < o.rdmaReadSize
            then rest ++ [conn] else rest
          pc := .poll }
        pending := s.pending ++ [r]
        nextId := s.nextId + 1 } := by
  obtain ⟨hconn, hoff⟩ := (h.sched conn).mp (by simp [hsched])
  have hsz := o.rdmaReadSize_eq
  set size := nextSize o s.code.ctx conn with hsizedef
  have hmin : size = min o.maxReadSize
      (o.rdmaReadSize - (s.code.ctx.conns conn).readOffset) := nextSize_eq hoff.le
  have hle : (s.code.ctx.conns conn).readOffset + size ≤ o.rdmaReadSize := by omega
  have hlen : r.wr.length = size := by
    rw [hr]
    exact Nat.mod_eq_of_lt (by omega)
  have hnew : ∀ c, ((s.code.ctx.afterPost queue conn size).conns c).readOffset
      = if c = conn then (s.code.ctx.conns conn).readOffset + size
        else (s.code.ctx.conns c).readOffset := by
    intro c
    rw [afterPost_readOffset, Nat.mod_eq_of_lt (by omega)]
  have hriter : r.iter = s.code.iter := by rw [hr]
  have hrconn : r.conn = conn := by rw [hr]
  have hroff : r.offset = (s.code.ctx.conns conn).readOffset := by rw [hr]
  have hread : ReadOf o ctx r := by
    refine ⟨by rw [hrconn]; exact hconn, by omega, by omega, ?_, ?_⟩
    · rw [hr]
      simp [readWr, h.setup.remoteAddr]
    · rw [hr]
      simp [readWr, h.setup.rdmaBuf]
  exact {
    setup := ⟨by simp [h.setup.numConns], by simp [h.setup.rdmaBuf],
      fun c => by simp [h.setup.remoteAddr]⟩
    nodup := h.post_nodup hsched _
    sched := h.post_mem_sched hsched hnew
    offset_le := h.post_offset_le hle hnew
    outstanding := by
      rw [afterPost_numOutstandingReads]
      exact h.post_outstanding hlimit
    pending_le := h.post_pending_le hlimit
    pending_iter := h.post_pending_iter hriter
    iter_lt := h.iter_lt
    tiled := h.post_tiled hriter
    current := h.post_current hriter hrconn hroff hlen (by omega) hnew
    sofar := h.post_sofar hriter
    done := h.post_done
    barrier := h.post_barrier hriter
    reads := h.post_reads hread }

/-- A read completes. -/
lemma Within.complete (h : Within o ctx tr s) {k : ℕ} {r : PostedRead}
    (hk : s.pending[k]? = some r) (freed : Option (Fin numDci)) :
    Within o ctx (tr ++ [.completed r])
      { s with
        code := { s.code with ctx := s.code.ctx.readDone freed, pc := .whileTest }
        pending := s.pending.eraseIdx k } := by
  obtain ⟨hlt, hget⟩ := List.getElem?_eq_some_iff.mp hk
  have hsub : ∀ r' ∈ s.pending.eraseIdx k, r' ∈ s.pending :=
    fun r' hr' => List.mem_of_mem_eraseIdx hr'
  have hout : decr 64 s.code.ctx.numOutstandingReads = (s.pending.eraseIdx k).length := by
    rw [h.outstanding, List.length_eraseIdx_of_lt hlt]
    exact decr_of_pos (by omega)
  exact {
    setup := ⟨by simp [h.setup.numConns], by simp [h.setup.rdmaBuf],
      fun c => by simp [h.setup.remoteAddr]⟩
    nodup := h.nodup
    sched := by simpa using h.sched
    offset_le := by simpa using h.offset_le
    outstanding := by simpa using hout
    pending_le := (List.length_eraseIdx_le _ _).trans h.pending_le
    pending_iter := fun r' hr' => h.pending_iter r' (hsub r' hr')
    iter_lt := h.iter_lt
    tiled := by simpa [TiledIn] using h.tiled
    current := by simpa using h.current
    sofar := by simpa using h.sofar
    done := by
      intro r'
      have hpend : r' ∈ s.pending ↔ r' = r ∨ r' ∈ s.pending.eraseIdx k := by
        conv_lhs => rw [← List.insertIdx_eraseIdx_getElem hlt]
        rw [List.mem_insertIdx (by rw [List.length_eraseIdx_of_lt hlt]; omega), hget]
      simp only [postedReads_append, postedReads_completed, List.append_nil, h.done r', hpend,
        List.mem_append, List.mem_singleton, ReadEvent.completed.injEq]
      tauto
    barrier := h.barrier.completed r
    reads := by simpa using h.reads }

/-- **One step keeps the invariant.** -/
theorem tilingInv_step {s' : ReadSys} {es : List ReadEvent} (h : TilingInv o ctx tr s)
    (hs : ReadStep o s es s') : TilingInv o ctx (tr ++ es) s' := by
  cases hs with
  | enter hpc hiter =>
      rw [TilingInv, hpc] at h
      rw [List.append_nil]
      exact Between.enter h hiter
  | finish hpc hiter =>
      rw [TilingInv, hpc] at h
      intro _
      have := h.iter_le
      rw [List.append_nil]
      exact ⟨⟨h.setup, h.sched, h.pending, h.outstanding, h.iter_le, h.tiled, h.earlier, h.done,
        h.barrier, h.reads⟩, by dsimp only; omega⟩
  | again hpc hmore =>
      rw [TilingInv, hpc] at h
      rw [List.append_nil]
      exact Within.sameReads h ⟨_, rfl⟩ rfl rfl
  | leave hpc hnone hempty =>
      rw [TilingInv, hpc] at h
      rw [List.append_nil]
      exact Within.leave h hnone hempty
  | skip hpc =>
      rw [TilingInv, hpc] at h
      rw [List.append_nil]
      exact Within.sameReads h ⟨_, rfl⟩ rfl rfl
  | post conn rest mr queue wrId hpc hsched hlimit hsize hqueue =>
      rw [TilingInv, hpc] at h
      exact Within.post h hsched hlimit hsize rfl
  | poll finRecvd hpc =>
      rw [TilingInv, hpc] at h
      rw [List.append_nil]
      exact Within.sameReads h ⟨finRecvd, rfl⟩ rfl rfl
  | complete k r freed hpc hk hfreed =>
      rw [TilingInv, hpc] at h
      exact Within.complete h hk freed
  | stop r sched' hr =>
      rw [TilingInv]
      cases r with
      | ret r => exact fun hzero => absurd (by rw [hzero]) hr
      | assertFailed => trivial
      | undefined => trivial
  | abort k r stop hpc hk hdc hstop =>
      rw [TilingInv]
      cases stop with
      | ret r => exact fun hzero => absurd (by rw [hzero]) (dcSendCompletion_stopped hstop)
      | assertFailed => trivial
      | undefined => trivial

/-- The invariant holds all along a run. -/
theorem tilingInv_run (h : ReadRun o ctx tr s) : TilingInv o ctx tr s :=
  h.invariant (tilingInv_start o ctx) fun _ _ _ _ _ hi _ hs => tilingInv_step hi (nextRead_step hs)

/-- A phase that returns `0` ends between two iterations, past the last one. -/
theorem between_of_return (hrun : ReadRun o ctx tr s) (hret : s.code.pc = .stopped (.ret 0)) :
    Between o ctx tr s ∧ s.code.iter = o.numIterations := by
  have hinv := tilingInv_run hrun
  rw [TilingInv, hret] at hinv
  exact hinv rfl

/-- In a complete phase a read stays within its connection's buffer. -/
lemma Between.inside (h : Between o ctx tr s) {r : PostedRead} (hr : r ∈ postedReads tr) :
    r.offset + r.wr.length ≤ o.rdmaReadSize := by
  have htiles := h.tiled r.iter (h.earlier r hr) r.conn (h.reads r hr).conn_lt
  refine (htiles.inside (r.offset, r.wr.length) ?_).2
  simp only [segments, List.mem_map, List.mem_filter]
  exact ⟨r, ⟨hr, by simp⟩, rfl⟩

/-! ## The result -/

/-- **A read phase that returns `0` has read everything, once per iteration, in order.**  In each
iteration the segments posted for a connection tile its buffer, each between one byte and
`max_read_size` long; each is read from where the connection's peer said; and an iteration starts
only when the one before it is complete.  The reads of `postedReads` are all there are.

The phase ends between two iterations, past the last one (`between_of_return`), and there the
invariant says that every iteration entered is complete.  A segment starts where the tiling of its
connection ended, since `post_rdma_read` is called with `read_offset`; and the inner loop is left
only when nothing is scheduled, which is when every offset is at the end, and when nothing is
outstanding, which gives the barrier. -/
theorem doRdmaReads_tiles (o : Options) (ctx : TestContext) (tr : List ReadEvent) (s : ReadSys)
    (hrun : ReadRun o ctx tr s) (hret : s.code.pc = .stopped (.ret 0)) :
    (∀ k < o.numIterations, ∀ c < ctx.numConns,
      Tiles 0 (segments tr k c) o.rdmaReadSize ∧
      ∀ seg ∈ segments tr k c, 1 ≤ seg.2 ∧ seg.2 ≤ o.maxReadSize) ∧
    (∀ r ∈ postedReads tr, r.iter < o.numIterations ∧ r.conn < ctx.numConns ∧
      r.wr.remoteAddr = ((ctx.conns r.conn).remoteAddr + r.offset) % 2 ^ 64 ∧
      .completed r ∈ tr) ∧
    Barrier tr := by
  obtain ⟨h, hiter⟩ := between_of_return hrun hret
  refine ⟨fun k hk c hc => ⟨h.tiled k (by omega) c hc, ?_⟩, fun r hr => ?_, h.barrier⟩
  · intro seg hseg
    simp only [segments, List.mem_map, List.mem_filter] at hseg
    obtain ⟨r, ⟨hr, _⟩, rfl⟩ := hseg
    exact ⟨(h.reads r hr).length_pos, (h.reads r hr).length_le⟩
  · have hread := h.reads r hr
    exact ⟨hiter ▸ h.earlier r hr, hread.conn_lt, hread.remoteAddr, (h.done r).mp hr⟩

/-- One connection, one iteration, one read. -/
def oneReadOptions : Options :=
  { gOptions with
    numIterations := 1
    maxReadSize := 2 ^ 20
    numIterations_lt := one_lt_word
    maxReadSize_lt := by decide }

/-- One connection whose buffers are at addresses `4096` and `8192`. -/
def oneConnContext : TestContext :=
  { numConns := 1
    conns := fun _ => { rdmaId := 1, remoteAddr := 8192 }
    rdmaBuf := { ptr := 4096, mr := some ⟨1, 1, 1⟩ } }

lemma oneRead_returns : ∃ tr s, ReadRun oneReadOptions oneConnContext tr s ∧
    decide (s.code.pc = .stopped (.ret 0)) = true :=
  Runs.Run.exists_of_play (nextRead oneReadOptions) (ReadSys.start oneConnContext)
    [.tick, .tick, .post 0, .pollRead 0, .tick, .tick]
    (fun r => decide (r.1.code.pc = .stopped (.ret 0))) (by decide +kernel)

/-- Two connections that share the registered buffer. -/
def twoConnsContext : TestContext := { oneConnContext with numConns := 2 }

/-- One iteration, in which every connection is read in two halves. -/
def twoHalvesOptions : Options :=
  { oneReadOptions with maxReadSize := 2 ^ 19, maxReadSize_lt := by decide }

/-- Two iterations of that. -/
def twiceInHalvesOptions : Options :=
  { twoHalvesOptions with numIterations := 2, numIterations_lt := two_lt_word }

/-- One iteration of it: the four reads are posted, the connections taking turns, and then they
complete, the last one first. -/
def halvesIteration : List ReadChoice :=
  [.tick, .tick, .post 0, .pollEmpty, .tick, .post 0, .pollEmpty, .tick, .post 0, .pollEmpty,
    .tick, .post 0, .pollEmpty, .tick, .post 0, .pollRead 3, .tick, .post 0, .pollRead 2,
    .tick, .post 0, .pollRead 1, .tick, .post 0, .pollRead 0, .tick]

lemma twiceInHalves_returns : ∃ tr s, ReadRun twiceInHalvesOptions twoConnsContext tr s ∧
    decide (s.code.pc = .stopped (.ret 0) ∧
      (postedReads tr).map (fun r => (r.iter, r.conn, r.offset)) =
        [(0, 0, 0), (0, 1, 0), (0, 0, 2 ^ 19), (0, 1, 2 ^ 19),
          (1, 0, 0), (1, 1, 0), (1, 0, 2 ^ 19), (1, 1, 2 ^ 19)]) = true :=
  Runs.Run.exists_of_play (nextRead twiceInHalvesOptions) (ReadSys.start twoConnsContext)
    (halvesIteration ++ halvesIteration ++ [.tick])
    (fun r => decide (r.1.code.pc = .stopped (.ret 0) ∧
      (postedReads r.2).map (fun r => (r.iter, r.conn, r.offset)) =
        [(0, 0, 0), (0, 1, 0), (0, 0, 2 ^ 19), (0, 1, 2 ^ 19),
          (1, 0, 0), (1, 1, 0), (1, 0, 2 ^ 19), (1, 1, 2 ^ 19)])) (by decide +kernel)

theorem doRdmaReads_tiles_twoConnections :
    ∃ tr s, ReadRun twiceInHalvesOptions twoConnsContext tr s ∧
      (postedReads tr).map (fun r => (r.iter, r.conn, r.offset)) =
        [(0, 0, 0), (0, 1, 0), (0, 0, 2 ^ 19), (0, 1, 2 ^ 19),
          (1, 0, 0), (1, 1, 0), (1, 0, 2 ^ 19), (1, 1, 2 ^ 19)] ∧
      (∀ k < 2, ∀ c < 2, Tiles 0 (segments tr k c) (1024 * 1024) ∧
        ∀ seg ∈ segments tr k c, 1 ≤ seg.2 ∧ seg.2 ≤ 2 ^ 19) ∧
      (∀ r ∈ postedReads tr, r.iter < 2 ∧ r.conn < 2 ∧
        r.wr.remoteAddr = (8192 + r.offset) % 2 ^ 64 ∧ .completed r ∈ tr) ∧
      Barrier tr := by
  obtain ⟨tr, s, hrun, htest⟩ := twiceInHalves_returns
  obtain ⟨hret, hreads⟩ := of_decide_eq_true htest
  exact ⟨tr, s, hrun, hreads,
    doRdmaReads_tiles twiceInHalvesOptions twoConnsContext tr s hrun hret⟩

end RdmaFc
