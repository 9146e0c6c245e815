import RdmaExamples.RdmaFc.ReadTiling

/-!
# The read scheduler is fair

`do_rdma_reads` takes connections from the head of the schedule list and puts them back at its
tail, so that they are read in turns.  The order of the completions and the posts that are refused
do not upset the turns: inside the inner loop no connection is ever more than one read ahead of
another, and the list is ordered by how far each connection has got.

The two facts need each other.  The list is ordered because the connection that goes to the tail
has passed all others, which are at most `max_read_size` ahead of where it was; and nobody gets
further ahead because the head of an ordered list is the connection that is furthest behind.  A
connection that left the list is at the end of its buffer, where nobody can be ahead of it.

`Fair` is the two facts, and `fair_step` keeps them.  Only a post matters: completions and packets
do not touch the offsets or the list.  An iteration starts with all offsets at `0` and every
connection on the list, which is fair whatever came before.
-/

namespace RdmaFc

/-- The code is inside the inner loop of `do_rdma_reads`. -/
def ReadPc.InLoop : ReadPc → Prop
  | .whileTest | .post | .poll => True
  | .forTest | .stopped _ => False

instance : (pc : ReadPc) → Decidable pc.InLoop
  | .whileTest | .post | .poll => isTrue trivial
  | .forTest | .stopped _ => isFalse id

/-- How far the reads of connection `c` have got. -/
def ReadState.offset (s : ReadState) (c : ℕ) : ℕ := (s.ctx.conns c).readOffset

/-- The turns are fair: any two connections are at most one read apart, and the schedule list is
ordered by `read_offset`.  The second clause carries the first: the head of the list is a
connection with the smallest offset, it is the one that reads, and it goes to the end, where no
offset is larger than its new one. -/
structure Fair (o : Options) (s : ReadState) : Prop where
  close : ∀ c < s.ctx.numConns, ∀ c' < s.ctx.numConns, s.offset c ≤ s.offset c' + o.maxReadSize
  ordered : (s.sched.map s.offset).Pairwise (· ≤ ·)

variable {o : Options} {ctx : TestContext} {tr : List ReadEvent} {s : ReadSys}

/-- The invariant of the tiling holds wherever the code is in the inner loop. -/
lemma TilingInv.within (h : TilingInv o ctx tr s) (hloop : s.code.pc.InLoop) :
    Within o ctx tr s := by
  cases hpc : s.code.pc with
  | whileTest | post | poll => rwa [TilingInv, hpc] at h
  | forTest | stopped r =>
      rw [hpc] at hloop
      exact hloop.elim

/-- When an iteration starts every connection is at the start of its buffer. -/
lemma Between.fair (h : Between o ctx tr s) : Fair o { s.code with
    ctx := s.code.ctx.resetOffsets
    sched := s.code.sched ++ List.range s.code.ctx.numConns
    pc := .whileTest } := by
  have hzero : ∀ c < s.code.ctx.numConns, (s.code.ctx.resetOffsets.conns c).readOffset = 0 := by
    intro c hc
    simp [TestContext.resetOffsets, hc]
  constructor
  · intro c hc c' _
    show (s.code.ctx.resetOffsets.conns c).readOffset ≤ _
    rw [hzero c hc]
    exact Nat.zero_le _
  · rw [h.sched, List.nil_append, List.pairwise_map]
    refine List.Pairwise.imp_of_mem ?_ (List.pairwise_lt_range)
    intro c c' hc _ _
    show (s.code.ctx.resetOffsets.conns c).readOffset ≤ _
    rw [hzero c (List.mem_range.mp hc)]
    exact Nat.zero_le _

/-- Only the offsets and the schedule list matter. -/
lemma Fair.same {st st' : ReadState} (h : Fair o st) (hnum : st'.ctx.numConns = st.ctx.numConns)
    (hoffset : ∀ c, st'.offset c = st.offset c) (hsched : st'.sched = st.sched) : Fair o st' := by
  constructor
  · intro c hc c' hc'
    rw [hnum] at hc hc'
    rw [hoffset c, hoffset c']
    exact h.close c hc c' hc'
  · rw [hsched, show st'.offset = st.offset from funext hoffset]
    exact h.ordered

/-- The head of the schedule list is the connection that is furthest behind. -/
lemma Within.head_le (h : Within o ctx tr s) (hf : Fair o s.code) {conn : ℕ} {rest : List ℕ}
    (hsched : s.code.sched = conn :: rest) :
    ∀ c < ctx.numConns, s.code.offset conn ≤ s.code.offset c := by
  intro c hc
  have hhead : s.code.offset conn ≤ o.rdmaReadSize :=
    h.offset_le conn ((h.sched conn).mp (by simp [hsched])).1
  have hord := hf.ordered
  rw [hsched, List.map_cons, List.pairwise_cons] at hord
  by_cases hmem : c ∈ s.code.sched
  · rw [hsched, List.mem_cons] at hmem
    rcases hmem with rfl | hmem
    · exact le_refl _
    · exact hord.1 _ (List.mem_map_of_mem hmem)
  · -- a connection that is not scheduled has been read to the end
    have hend : o.rdmaReadSize ≤ s.code.offset c := by
      by_contra hlt
      exact hmem ((h.sched c).mpr ⟨hc, not_le.mp hlt⟩)
    exact hhead.trans hend

/-- The read just posted takes the connection past all others. -/
lemma Fair.post (hf : Fair o s.code) (h : Within o ctx tr s) {conn : ℕ} {rest : List ℕ}
    {queue : SendQueue} (hsched : s.code.sched = conn :: rest) :
    Fair o { s.code with
      ctx := s.code.ctx.afterPost queue conn (nextSize o s.code.ctx conn)
      sched := if ((s.code.ctx.afterPost queue conn
          (nextSize o s.code.ctx conn)).conns conn).readOffset < o.rdmaReadSize
        then rest ++ [conn] else rest
      pc := .poll } := by
  have hnum : s.code.ctx.numConns = ctx.numConns := h.setup.numConns
  obtain ⟨hconn, hlt⟩ := (h.sched conn).mp (by simp [hsched])
  have hsize := nextSize_eq hlt.le
  have hlast := h.head_le hf hsched
  have hlen := o.rdmaReadSize_eq
  change s.code.offset conn < _ at hlt
  set size := nextSize o s.code.ctx conn with hsizedef
  change size = min _ (_ - s.code.offset conn) at hsize
  set code' : ReadState := { s.code with
    ctx := s.code.ctx.afterPost queue conn size
    sched := if ((s.code.ctx.afterPost queue conn size).conns conn).readOffset < o.rdmaReadSize
      then rest ++ [conn] else rest
    pc := .poll } with hcode'
  have hnew : code'.offset conn = s.code.offset conn + size := by
    show ((s.code.ctx.afterPost queue conn size).conns conn).readOffset = _
    rw [afterPost_readOffset, if_pos rfl]
    exact Nat.mod_eq_of_lt (by show s.code.offset conn + size < _; omega)
  have hold : ∀ c, c ≠ conn → code'.offset c = s.code.offset c := by
    intro c hc
    show ((s.code.ctx.afterPost queue conn size).conns c).readOffset = _
    rw [afterPost_readOffset, if_neg hc]
    rfl
  have hpast : ∀ c < ctx.numConns, s.code.offset c ≤ code'.offset conn := by
    intro c hc
    have hclose := hf.close c (by omega) conn (by omega)
    have hle : s.code.offset c ≤ o.rdmaReadSize := h.offset_le c hc
    omega
  constructor
  · intro c hc c' hc'
    have hc : c < ctx.numConns := by simpa [hcode', hnum] using hc
    have hc' : c' < ctx.numConns := by simpa [hcode', hnum] using hc'
    by_cases hcc : c = conn
    · by_cases hcc' : c' = conn
      · rw [hcc, hcc']
        exact Nat.le_add_right _ _
      · have := hlast c' hc'
        rw [hcc, hold c' hcc']
        omega
    · by_cases hcc' : c' = conn
      · have := hpast c hc
        rw [hcc', hold c hcc]
        omega
      · rw [hold c hcc, hold c' hcc']
        exact hf.close c (by omega) c' (by omega)
  · have hnodup := h.nodup
    have hord := hf.ordered
    rw [hsched, List.nodup_cons] at hnodup
    rw [hsched, List.map_cons, List.pairwise_cons] at hord
    have hmap : rest.map code'.offset = rest.map s.code.offset :=
      List.map_congr_left fun c hc => hold c fun heq => hnodup.1 (heq ▸ hc)
    show (List.map code'.offset (if _ then _ else _)).Pairwise _
    split
    · rw [List.map_append, hmap, List.pairwise_append]
      refine ⟨hord.2, List.pairwise_singleton _ _, ?_⟩
      intro x hx y hy
      obtain ⟨c, hc, rfl⟩ := List.mem_map.mp hx
      rw [List.map_singleton, List.mem_singleton] at hy
      rw [hy]
      exact hpast c ((h.sched c).mp (by simp [hsched, hc])).1
    · rw [hmap]
      exact hord.2

/-- **One step keeps the turns fair.** -/
theorem fair_step {s' : ReadSys} {es : List ReadEvent} (h : TilingInv o ctx tr s)
    (hf : s.code.pc.InLoop → Fair o s.code) (hs : ReadStep o s es s')
    (hloop : s'.code.pc.InLoop) : Fair o s'.code := by
  cases hs with
  | enter hpc hiter =>
      rw [TilingInv, hpc] at h
      exact Between.fair h
  | again hpc hmore =>
      exact (hf (by rw [hpc]; trivial)).same rfl (fun _ => rfl) rfl
  | skip hpc =>
      exact (hf (by rw [hpc]; trivial)).same rfl (fun _ => rfl) rfl
  | post conn rest mr queue wrId hpc hsched hlimit hsize hqueue =>
      have hin : s.code.pc.InLoop := by rw [hpc]; trivial
      exact (hf hin).post (h.within hin) hsched
  | poll finRecvd hpc =>
      exact (hf (by rw [hpc]; trivial)).same rfl (fun _ => rfl) rfl
  | complete k r freed hpc hk hfreed =>
      refine (hf (by rw [hpc]; trivial)).same (by simp) ?_ rfl
      intro c
      simp [ReadState.offset]
  | finish | leave | stop | abort => exact hloop.elim

/-- **Round-robin fairness.**  Whatever the completions' order and whichever posts are refused: at
every point of the inner loop the offsets of any two connections differ by at most
`max_read_size`, and the schedule list is ordered by non-decreasing offset.

Both are carried through the loop together with the tiling (`fair_step`).  A read moves the head of
the list on by at most `max_read_size`.  The head is the furthest behind, so it gets no further
ahead of anybody than that; and everybody else is at most that far ahead of where it was, so that
it belongs behind them.  A post that is refused puts the head back in its place. -/
theorem schedule_fair (o : Options) (ctx : TestContext) (tr : List ReadEvent) (s : ReadSys)
    (hrun : ReadRun o ctx tr s) (hloop : s.code.pc.InLoop) :
    (∀ c < ctx.numConns, ∀ c' < ctx.numConns,
      s.code.offset c ≤ s.code.offset c' + o.maxReadSize) ∧
    (s.code.sched.map s.code.offset).Pairwise (· ≤ ·) := by
  have hinv : TilingInv o ctx tr s ∧ (s.code.pc.InLoop → Fair o s.code) := by
    refine hrun.invariant (I := fun tr s => TilingInv o ctx tr s ∧
      (s.code.pc.InLoop → Fair o s.code)) ⟨tilingInv_start o ctx, fun hin => hin.elim⟩ ?_
    intro tr s c s' es hi _ hnext
    have hs := nextRead_step hnext
    exact ⟨tilingInv_step hi.1 hs, fair_step hi.1 hi.2 hs⟩
  have hfair := hinv.2 hloop
  have hnum : s.code.ctx.numConns = ctx.numConns := (hinv.1.within hloop).setup.numConns
  refine ⟨fun c hc c' hc' => hfair.close c (by omega) c' (by omega), hfair.ordered⟩

/-- The second post is refused, and the second connection keeps its turn. -/
lemma twoHalves_run : ∃ tr s, ReadRun twoHalvesOptions twoConnsContext tr s ∧
    decide (s.code.pc.InLoop ∧ s.code.sched = [1, 0]) = true :=
  Runs.Run.exists_of_play (nextRead twoHalvesOptions) (ReadSys.start twoConnsContext)
    [.tick, .tick, .post 0, .pollEmpty, .tick, .post 12, .pollEmpty]
    (fun r => decide (r.1.code.pc.InLoop ∧ r.1.code.sched = [1, 0])) (by decide +kernel)

theorem schedule_fair_twoHalves : ∃ tr s, ReadRun twoHalvesOptions twoConnsContext tr s ∧
    s.code.sched = [1, 0] ∧ s.code.offset 0 ≤ s.code.offset 1 + 2 ^ 19 ∧
      s.code.offset 1 ≤ s.code.offset 0 := by
  obtain ⟨tr, s, hrun, hs⟩ := twoHalves_run
  obtain ⟨hloop, hsched⟩ := of_decide_eq_true hs
  have h := schedule_fair twoHalvesOptions twoConnsContext tr s hrun hloop
  have hord := h.2
  rw [hsched] at hord
  refine ⟨tr, s, hrun, hsched, h.1 0 (by decide) 1 (by decide), ?_⟩
  simpa using hord

end RdmaFc
