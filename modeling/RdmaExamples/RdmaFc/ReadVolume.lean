import RdmaExamples.RdmaFc.ReadProgress

/-!
# The volume that is reported

`do_rdma_reads` reports a bandwidth, from `num_conns * num_iterations * rdma_read_size` bytes.  The
first two factors are `unsigned`, so their product wraps before the third, a `size_t`, widens it.

What was read is the sum of the lengths of the reads posted.  By the tiling every connection is
read in full in every iteration, so that sum is the same product without the wrap
(`readBytes_eq`), and the report is exact as long as `num_conns * num_iterations` fits 32 bits.
That complete phases with larger products exist is `exists_return`: under the condition of the
progress theorem every run can go on until it returns `0`.
-/

namespace RdmaFc

open Runs Tiling

/-- `bytes_transferred`. -/
def bytesTransferred (o : Options) (ctx : TestContext) : ℕ :=
  ctx.numConns * o.numIterations % 2 ^ 32 * o.rdmaReadSize % 2 ^ 64

/-- The sum of the lengths of the reads posted. -/
def readBytes (tr : List ReadEvent) : ℕ := ((postedReads tr).map fun r => r.wr.length).sum

variable {o : Options} {ctx : TestContext} {tr : List ReadEvent} {s : ReadSys}

/-- Reads are counted iteration by iteration and connection by connection. -/
lemma sum_by_segment {m n : ℕ} (rs : List PostedRead)
    (hrs : ∀ r ∈ rs, r.iter < m ∧ r.conn < n) :
    (rs.map fun r => r.wr.length).sum = ∑ k ∈ Finset.range m, ∑ c ∈ Finset.range n,
      ((rs.filter fun r => r.iter = k ∧ r.conn = c).map fun r => r.wr.length).sum := by
  induction rs with
  | nil => simp
  | cons r rs ih =>
      obtain ⟨hk, hc⟩ := hrs r (by simp)
      have hterm : ∀ k c,
          (((r :: rs).filter fun r => r.iter = k ∧ r.conn = c).map fun r => r.wr.length).sum
            = (if r.iter = k then if r.conn = c then r.wr.length else 0 else 0)
              + ((rs.filter fun r => r.iter = k ∧ r.conn = c).map fun r => r.wr.length).sum := by
        intro k c
        rw [List.filter_cons]
        by_cases hik : r.iter = k <;> by_cases hrc : r.conn = c <;> simp [hik, hrc]
      simp only [hterm, Finset.sum_add_distrib]
      rw [← ih fun r' hr' => hrs r' (List.mem_cons_of_mem _ hr'), List.map_cons, List.sum_cons]
      congr 1
      rw [Finset.sum_eq_single_of_mem r.iter (Finset.mem_range.mpr hk),
        Finset.sum_eq_single_of_mem r.conn (Finset.mem_range.mpr hc)]
      · simp
      · intro c _ hne
        simp [Ne.symm hne]
      · intro k _ hne
        simp [Ne.symm hne]

/-- **What a complete phase has read**: every connection's buffer, in every iteration.  The reads
of one connection in one iteration tile its buffer, so that their lengths add up to
`rdma_read_size`; the rest is a sum over both. -/
theorem readBytes_eq (hrun : ReadRun o ctx tr s) (hret : s.code.pc = .stopped (.ret 0)) :
    readBytes tr = ctx.numConns * o.numIterations * o.rdmaReadSize := by
  obtain ⟨h, hiter⟩ := between_of_return hrun hret
  have hin : ∀ r ∈ postedReads tr, r.iter < o.numIterations ∧ r.conn < ctx.numConns :=
    fun r hr => ⟨hiter ▸ h.earlier r hr, (h.reads r hr).conn_lt⟩
  have hfull : ∀ k < o.numIterations, ∀ c < ctx.numConns,
      (((postedReads tr).filter fun r => r.iter = k ∧ r.conn = c).map fun r => r.wr.length).sum
        = o.rdmaReadSize := by
    intro k hk c hc
    have hsum := (h.tiled k (by omega) c hc).hi_eq
    rw [segments, List.map_map, Nat.zero_add] at hsum
    exact hsum.symm
  calc readBytes tr
      = ∑ k ∈ Finset.range o.numIterations, ∑ c ∈ Finset.range ctx.numConns,
          (((postedReads tr).filter fun r => r.iter = k ∧ r.conn = c).map
            fun r => r.wr.length).sum := sum_by_segment _ hin
    _ = ∑ _k ∈ Finset.range o.numIterations, ∑ _c ∈ Finset.range ctx.numConns,
          o.rdmaReadSize :=
        Finset.sum_congr rfl fun k hk => Finset.sum_congr rfl fun c hc =>
          hfull k (Finset.mem_range.mp hk) c (Finset.mem_range.mp hc)
    _ = ctx.numConns * o.numIterations * o.rdmaReadSize := by
        rw [Finset.sum_const, Finset.sum_const, Finset.card_range, Finset.card_range,
          smul_eq_mul, smul_eq_mul]
        ring

/-- A wrap of the first product shows in the second. -/
lemma wrapped_product_iff {n size : ℕ} (hsize : 0 < size) (hfits : n * size < 2 ^ 64) :
    n % 2 ^ 32 * size % 2 ^ 64 = n * size ↔ n < 2 ^ 32 := by
  have hle : n % 2 ^ 32 * size ≤ n * size := Nat.mul_le_mul_right _ (Nat.mod_le _ _)
  rw [Nat.mod_eq_of_lt (lt_of_le_of_lt hle hfits)]
  constructor
  · intro heq
    have hmod : n % 2 ^ 32 = n := Nat.eq_of_mul_eq_mul_right hsize heq
    rw [← hmod]
    exact Nat.mod_lt _ (by decide)
  · intro hlt
    rw [Nat.mod_eq_of_lt hlt]

/-- **When the reported volume is exact.**  Whenever `do_rdma_reads` returns `0` and what it read
fits 64 bits: exactly when `num_conns * num_iterations` fits 32 bits.

Both numbers are products of the same three factors.  What was read is the product itself, since
every connection's buffer is tiled once in every iteration.  What is reported takes the product of
the first two modulo `2 ^ 32` first.  As `rdma_read_size` is not `0` and the whole product fits,
they agree just where the first two fit (`wrapped_product_iff`). -/
theorem reportedVolume_exact_iff (o : Options) (ctx : TestContext) (tr : List ReadEvent)
    (s : ReadSys) (hrun : ReadRun o ctx tr s) (hret : s.code.pc = .stopped (.ret 0))
    (hfits : readBytes tr < 2 ^ 64) :
    bytesTransferred o s.code.ctx = readBytes tr ↔ ctx.numConns * o.numIterations < 2 ^ 32 := by
  have hnum := (between_of_return hrun hret).1.setup.numConns
  have hbytes := readBytes_eq hrun hret
  rw [hbytes] at hfits
  rw [bytesTransferred, hnum, hbytes]
  exact wrapped_product_iff o.rdmaReadSize_pos hfits

theorem reportedVolume_exact_iff_oneRead : ∃ tr s, ReadRun oneReadOptions oneConnContext tr s ∧
    bytesTransferred oneReadOptions s.code.ctx = readBytes tr := by
  obtain ⟨tr, s, hrun, hret⟩ := oneRead_returns
  have hret := of_decide_eq_true hret
  refine ⟨tr, s, hrun, ?_⟩
  have hfits : readBytes tr < 2 ^ 64 := by
    rw [readBytes_eq hrun hret]
    decide
  exact (reportedVolume_exact_iff oneReadOptions oneConnContext tr s hrun hret hfits).mpr
    (by decide)

/-! ## Complete phases -/

/-- Without an attempt to post, the pass goes on with its poll. -/
lemma afterPost_skips
    (h : ¬ (s.code.sched ≠ [] ∧ s.code.ctx.numOutstandingReads < o.maxOutstandingReads)) :
    s.afterPost o 0 = ({ s with code := { s.code with pc := .poll } }, []) := by
  have hpart : postPart o s.code (fun _ => 0) = ({ s.code with pc := .poll }, none) := by
    rw [postPart]
    split
    · rfl
    · rename_i conn rest hsched
      rw [if_neg fun hlimit => h ⟨by simp [hsched], hlimit⟩]
  rw [ReadSys.afterPost, hpart]

/-- A pass that did not post anything had nothing to post, or no room. -/
lemma not_canPost_of_skips (hgo : LoopGoesOn s.code)
    (h : ¬ (s.code.sched ≠ [] ∧ s.code.ctx.numOutstandingReads < o.maxOutstandingReads)) :
    ¬ CanPost o s := by
  rintro ⟨s₁, s₂, r, htick, hposted⟩
  rw [goesOn_tick hgo, Option.some.injEq, Prod.mk.injEq] at htick
  obtain ⟨rfl, -⟩ := htick
  have hskip := afterPost_skips (s := { s with code := { s.code with pc := .post } }) h
  have hnone := congrArg some hskip
  rw [show some (ReadSys.afterPost o { s with code := { s.code with pc := .post } } 0)
    = some (s₂, [.posted r]) from hposted] at hnone
  simp at hnone

/-- A pass of the inner loop comes to its poll with a read outstanding. -/
lemma exists_polling (hcan : CanProgress o ctx.numConns) (hset : SetUp o ctx)
    (hrun : GoodRun o ctx tr s) (hgo : LoopGoesOn s.code) :
    ∃ tr' s', GoodRun o ctx tr' s' ∧ s'.code.pc = .poll ∧ s'.pending ≠ [] ∧
      work o s' ≤ work o s := by
  have hpass := hrun.pass hgo
  set sp : ReadSys := { s with code := { s.code with pc := .post } } with hsp
  have hwork : work o sp = work o s := by
    rw [work, work, hgo.1]
    rfl
  have hnext : nextRead o sp (.post 0) = some (sp.afterPost o 0) := rfl
  obtain ⟨hpoll, hpend⟩ : (sp.afterPost o 0).1.code.pc = .poll ∧
      (sp.afterPost o 0).1.pending ≠ [] := by
    by_cases hattempt : s.code.sched ≠ [] ∧ s.code.ctx.numOutstandingReads < o.maxOutstandingReads
    · obtain ⟨s₁, r, heq, hpoll, hpend⟩ :=
        hcan.posts hset hpass.reads rfl hattempt.1 hattempt.2
      rw [heq]
      exact ⟨hpoll, by rw [hpend]; simp⟩
    · have hout := (hcan.notStuck hset hrun hgo).resolve_left (not_canPost_of_skips hgo hattempt)
      rw [afterPost_skips (s := sp) hattempt]
      exact ⟨rfl, hout⟩
  refine ⟨_, _, Run.step hpass (fun ret h => by simpa using h.symm) hnext, hpoll, hpend, ?_⟩
  exact hwork ▸ (work_step (tilingInv_run hpass.reads) (nextRead_step hnext)).1

/-- A prompt device: what is posted, or was posted before, completes with the next poll. -/
lemma exists_completed (hcan : CanProgress o ctx.numConns) (hset : SetUp o ctx)
    (hrun : GoodRun o ctx tr s) (hgo : LoopGoesOn s.code) :
    ∃ tr' s', GoodRun o ctx tr' s' ∧ s'.code.pc = .whileTest ∧ work o s' < work o s := by
  obtain ⟨tr₁, s₁, hrun₁, hpoll, hpend, hle⟩ := exists_polling hcan hset hrun hgo
  obtain ⟨r, rest, hcons⟩ := List.exists_cons_of_ne_nil hpend
  have hhead : s₁.pending[0]? = some r := by rw [hcons]; rfl
  have hcomplete : nextRead o s₁ (.pollRead 0) = some ({ s₁ with
      code := pollPart o s₁.code (.wc (readWc r))
      pending := s₁.pending.eraseIdx 0 }, [.completed r]) := by
    unfold nextRead
    rw [hpoll]
    dsimp only
    rw [hhead]
  refine ⟨_, _, Run.step hrun₁ (fun ret h => by simp at h) hcomplete,
    pollRead_pc hset hrun₁.reads hpoll hhead, ?_⟩
  have hlt := (work_step (tilingInv_run hrun₁.reads) (nextRead_step hcomplete)).2.1 (by simp)
  omega

/-- From the test of the outer loop the phase returns, or enters an iteration with less work
left. -/
lemma exists_entered (hcan : CanProgress o ctx.numConns) (hrun : GoodRun o ctx tr s)
    (hpc : s.code.pc = .forTest) : ∃ tr' s', GoodRun o ctx tr' s' ∧
      (s'.code.pc = .stopped (.ret 0) ∨ s'.code.pc = .whileTest ∧ work o s' < work o s) := by
  have htick : nextRead o s .tick = some ({ s with code := forTest o s.code }, []) := by
    unfold nextRead
    rw [hpc]
  refine ⟨_, _, Run.step hrun (fun ret h => by simp at h) htick, ?_⟩
  rcases hcan.forTest_pc hrun.reads hpc with hwhile | hret
  · have hin : (forTest o s.code).pc.InLoop := by rw [hwhile]; trivial
    have hlt := (work_step (tilingInv_run hrun.reads) (nextRead_step htick)).2.2 hpc hin
    exact Or.inr ⟨hwhile, hlt⟩
  · exact Or.inl hret

/-- Every run that is at the test of the inner loop can go on until the phase returns `0`. -/
lemma exists_return_of_whileTest (hcan : CanProgress o ctx.numConns) (hset : SetUp o ctx) :
    ∀ n tr s, work o s = n → GoodRun o ctx tr s → s.code.pc = .whileTest →
      ∃ tr' s', GoodRun o ctx tr' s' ∧ s'.code.pc = .stopped (.ret 0) := by
  intro n
  induction n using Nat.strong_induction_on with
  | _ n ih =>
      intro tr s hn hrun hpc
      by_cases hmore : s.code.ctx.numOutstandingReads ≠ 0 ∨ s.code.sched ≠ []
      · obtain ⟨tr', s', hrun', hpc', hlt⟩ := exists_completed hcan hset hrun ⟨hpc, hmore⟩
        exact ih _ (hn ▸ hlt) tr' s' rfl hrun' hpc'
      · have htick : nextRead o s .tick = some ({ s with
            code := { s.code with iter := MachineWords.incr 32 s.code.iter, pc := .forTest } },
            []) := by
          unfold nextRead
          rw [hpc]
          dsimp only
          rw [whileTest, if_neg hmore]
        have hrun₁ := Run.step hrun (fun ret h => by simp at h) htick
        have hle := (work_step (tilingInv_run hrun.reads) (nextRead_step htick)).1
        obtain ⟨tr', s', hrun', hret | ⟨hpc', hlt⟩⟩ := exists_entered hcan hrun₁ rfl
        · exact ⟨tr', s', hrun', hret⟩
        · exact ih _ (by omega) tr' s' rfl hrun' hpc'

/-- **Complete phases exist** under the condition of the progress theorem.  One read after the
other is posted and completed, by induction on the work that is left. -/
theorem exists_return (hcan : CanProgress o ctx.numConns) (hset : SetUp o ctx) :
    ∃ tr s, ReadRun o ctx tr s ∧ s.code.pc = .stopped (.ret 0) := by
  obtain ⟨tr, s, hrun, hret | ⟨hpc, -⟩⟩ :=
    exists_entered hcan (Run.start : GoodRun o ctx [] (ReadSys.start ctx)) rfl
  · exact ⟨tr, s, hrun.reads, hret⟩
  · obtain ⟨tr', s', hrun', hret⟩ :=
      exists_return_of_whileTest hcan hset _ tr s rfl hrun hpc
    exact ⟨tr', s', hrun'.reads, hret⟩

/-- The options of `-n 4 -i 1073741824`. -/
def manyIterations : Options := { gOptions with
  numConnections := 4
  numIterations := 1073741824
  numConnections_lt := by decide
  numIterations_lt := by decide }

/-- Four connections that share the registered buffer. -/
def fourConnsContext : TestContext := { oneConnContext with numConns := 4 }

/-- With `2 ^ 32` connection reads the phase reports that nothing was read. -/
theorem manyIterations_notReported : Accepted manyIterations ∧
    ∃ tr s, ReadRun manyIterations fourConnsContext tr s ∧ s.code.pc = .stopped (.ret 0) ∧
      readBytes tr = 2 ^ 52 ∧ bytesTransferred manyIterations s.code.ctx = 0 := by
  refine ⟨⟨none, [.n ['4'], .i ['1', '0', '7', '3', '7', '4', '1', '8', '2', '4']], rfl⟩, ?_⟩
  have hset : SetUp manyIterations fourConnsContext :=
    ⟨fun _ => rfl, fun _ => rfl, fun hdc => absurd hdc (by decide)⟩
  have hcan : CanProgress manyIterations fourConnsContext.numConns :=
    Or.inr ⟨by decide, by decide, by decide, fun hdc => absurd hdc (by decide)⟩
  obtain ⟨tr, s, hrun, hret⟩ := exists_return hcan hset
  refine ⟨tr, s, hrun, hret, ?_, ?_⟩
  · rw [readBytes_eq hrun hret]
    rfl
  · rw [bytesTransferred, (between_of_return hrun hret).1.setup.numConns]
    rfl

end RdmaFc
