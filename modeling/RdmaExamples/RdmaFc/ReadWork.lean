import RdmaExamples.RdmaFc.ReadFairness
import RdmaExamples.RdmaFc.ReadyToRead

/-!
# The work left to the read phase

`work` measures what `do_rdma_reads` has still to do: two units for each read still to be posted,
in this iteration and the later ones, one for each read outstanding, and one for each iteration
still to be entered.  No step raises it, and a read that is posted or completes lowers it
(`work_step`).

`readsFor` counts how many reads a number of bytes takes; it is what makes the measure drop by the
same amount with every post, whatever the size of the last read.  `PhaseInv` collects what else
holds along a run: among it, that the reads outstanding and left are never more than those of one
iteration.

A read of the last piece of a buffer is shorter than the others, so that bytes are no good as a
measure of what a post does; `readsFor` rounds up.  The factor two makes a post lower the work
although it adds a read that is outstanding.
-/

namespace RdmaFc

open Runs MachineWords Programs

/-! ## The work left -/

/-- How many reads it takes to read so many bytes. -/
def readsFor (o : Options) (bytes : ℕ) : ℕ := (bytes + (o.maxReadSize - 1)) / o.maxReadSize

/-- How many reads are still to be posted in this iteration. -/
def readsLeft (o : Options) (s : ReadState) : ℕ :=
  ∑ c ∈ Finset.range s.ctx.numConns, readsFor o (o.rdmaReadSize - s.offset c)

/-- How many reads one iteration over `n` connections takes. -/
def readsPerIteration (o : Options) (n : ℕ) : ℕ := n * readsFor o o.rdmaReadSize

/-- The work left. -/
def work (o : Options) (s : ReadSys) : ℕ :=
  match s.code.pc with
  | .forTest =>
      (o.numIterations - s.code.iter) * (2 * readsPerIteration o s.code.ctx.numConns + 1)
  | .whileTest | .post | .poll =>
      (o.numIterations - s.code.iter - 1) * (2 * readsPerIteration o s.code.ctx.numConns + 1)
        + 2 * readsLeft o s.code + s.pending.length
  | .stopped _ => 0

section ReadsFor

variable {o : Options} {bytes : ℕ}

@[simp] lemma readsFor_zero : readsFor o 0 = 0 := by
  rw [readsFor, Nat.div_eq_zero_iff]
  omega

lemma readsFor_pos (hmax : 0 < o.maxReadSize) (hbytes : 0 < bytes) : 0 < readsFor o bytes :=
  Nat.div_pos (by omega) hmax

/-- The next read is one of them. -/
lemma readsFor_next (hmax : 0 < o.maxReadSize) (hbytes : 0 < bytes) :
    readsFor o (bytes - min o.maxReadSize bytes) + 1 = readsFor o bytes := by
  by_cases hlast : bytes ≤ o.maxReadSize
  · rw [min_eq_right hlast, Nat.sub_self, readsFor_zero, readsFor]
    refine (Nat.div_eq_of_lt_le ?_ ?_).symm <;> omega
  · rw [min_eq_left (by omega), readsFor, readsFor, ← Nat.add_div_right _ hmax]
    congr 1
    omega

end ReadsFor

/-- One term of a sum drops by one. -/
lemma sum_succ_of_one {n c : ℕ} {f g : ℕ → ℕ} (hc : c < n) (hone : f c + 1 = g c)
    (hrest : ∀ d, d ≠ c → f d = g d) :
    ∑ d ∈ Finset.range n, f d + 1 = ∑ d ∈ Finset.range n, g d := by
  have hmem : c ∈ Finset.range n := Finset.mem_range.mpr hc
  have hothers : ∑ d ∈ (Finset.range n).erase c, f d = ∑ d ∈ (Finset.range n).erase c, g d :=
    Finset.sum_congr rfl fun d hd => hrest d (Finset.ne_of_mem_erase hd)
  rw [← Finset.add_sum_erase _ f hmem, ← Finset.add_sum_erase _ g hmem, hothers, ← hone]
  exact Nat.add_right_comm _ _ _

variable {o : Options} {ctx : TestContext} {tr : List ReadEvent} {s s' : ReadSys}

/-- At the start of an iteration all its reads are left. -/
lemma readsLeft_enter : readsLeft o { s.code with
    ctx := s.code.ctx.resetOffsets
    sched := s.code.sched ++ List.range s.code.ctx.numConns
    pc := .whileTest } = readsPerIteration o s.code.ctx.numConns := by
  have hterm : ∀ c ∈ Finset.range s.code.ctx.numConns,
      readsFor o (o.rdmaReadSize - (s.code.ctx.resetOffsets.conns c).readOffset)
        = readsFor o o.rdmaReadSize := by
    intro c hc
    simp [TestContext.resetOffsets, Finset.mem_range.mp hc]
  show ∑ c ∈ Finset.range s.code.ctx.numConns,
    readsFor o (o.rdmaReadSize - (s.code.ctx.resetOffsets.conns c).readOffset) = _
  rw [Finset.sum_congr rfl hterm, Finset.sum_const, Finset.card_range]
  rfl

/-- A post leaves one read less. -/
lemma readsLeft_post (h : Within o ctx tr s) {conn : ℕ} {rest : List ℕ} {queue : SendQueue}
    {code' : ReadState} (hsched : s.code.sched = conn :: rest)
    (hsize : nextSize o s.code.ctx conn ≠ 0)
    (hctx : code'.ctx = s.code.ctx.afterPost queue conn (nextSize o s.code.ctx conn)) :
    readsLeft o code' + 1 = readsLeft o s.code := by
  obtain ⟨hconn, hlt⟩ := (h.sched conn).mp (by simp [hsched])
  have hlen := o.rdmaReadSize_eq
  rw [readsLeft, readsLeft, hctx, afterPost_numConns]
  refine sum_succ_of_one (c := conn) (by rw [h.setup.numConns]; exact hconn) ?_ ?_
  · have hnew : code'.offset conn = s.code.offset conn + nextSize o s.code.ctx conn := by
      rw [ReadState.offset, hctx, afterPost_readOffset, if_pos rfl, Nat.mod_eq_of_lt]
      · rfl
      · rw [nextSize_eq hlt.le] at hsize ⊢
        omega
    rw [hnew, ReadState.offset, nextSize_eq hlt.le] at *
    have hnext := @readsFor_next o (o.rdmaReadSize - (s.code.ctx.conns conn).readOffset) (by omega)
      (by omega)
    rw [← hnext, Nat.sub_add_eq]
  · intro c hc
    rw [ReadState.offset, hctx, afterPost_readOffset, if_neg hc]
    rfl

/-- Where the schedule list is empty no read is left. -/
lemma readsLeft_eq_zero (h : Within o ctx tr s) (hempty : s.code.sched = []) :
    readsLeft o s.code = 0 := by
  refine Finset.sum_eq_zero fun c hc => ?_
  have hc' : c < ctx.numConns := by
    rw [← h.setup.numConns]
    exact Finset.mem_range.mp hc
  have hnot : c ∉ s.code.sched := by simp [hempty]
  rw [h.sched c, not_and, not_lt] at hnot
  rw [ReadState.offset, Nat.sub_eq_zero_of_le (hnot hc'), readsFor_zero]

/-- Where it is not, one is. -/
lemma readsLeft_pos (h : Within o ctx tr s) (hmax : 0 < o.maxReadSize)
    (hsched : s.code.sched ≠ []) : 0 < readsLeft o s.code := by
  obtain ⟨c, rest, hcons⟩ := List.exists_cons_of_ne_nil hsched
  obtain ⟨hc, hlt⟩ := (h.sched c).mp (by simp [hcons])
  refine Finset.sum_pos' (fun _ _ => Nat.zero_le _) ⟨c, ?_, readsFor_pos hmax ?_⟩
  · rw [Finset.mem_range, h.setup.numConns]
    exact hc
  · rw [ReadState.offset]
    omega

/-- **No step raises the work left.**  One that posts or completes a read lowers it, as does one
that enters an iteration. -/
theorem work_step {es : List ReadEvent} (h : TilingInv o ctx tr s) (hs : ReadStep o s es s') :
    work o s' ≤ work o s ∧ (es ≠ [] → work o s' < work o s) ∧
      (s.code.pc = .forTest → s'.code.pc.InLoop → work o s' < work o s) := by
  cases hs with
  | enter hpc hiter =>
      rw [TilingInv, hpc] at h
      have hleft := readsLeft_enter (o := o) (s := s)
      obtain ⟨later, hlater⟩ : ∃ later, o.numIterations - s.code.iter = later + 1 :=
        ⟨o.numIterations - s.code.iter - 1, by omega⟩
      rw [work, work, hpc]
      dsimp only at hleft ⊢
      rw [hleft, hlater, Nat.add_sub_cancel, Nat.succ_mul later, h.pending, List.length_nil,
        TestContext.resetOffsets_numConns]
      exact ⟨by omega, fun hne => absurd rfl hne, fun _ _ => by omega⟩
  | again hpc hmore =>
      rw [work, work, hpc]
      exact ⟨le_refl _, fun hne => absurd rfl hne, by simp⟩
  | leave hpc hnone hempty =>
      rw [TilingInv, hpc] at h
      have hsucc : incr 32 s.code.iter = s.code.iter + 1 :=
        incr_of_lt (by have := h.iter_lt; have := o.numIterations_lt; omega)
      rw [work, work, hpc]
      dsimp only
      rw [hsucc, Nat.sub_add_eq]
      exact ⟨by omega, fun hne => absurd rfl hne, fun _ hin => hin.elim⟩
  | skip hpc =>
      rw [work, work, hpc]
      exact ⟨le_refl _, fun hne => absurd rfl hne, by simp⟩
  | post conn rest mr queue wrId hpc hsched hlimit hsize hqueue =>
      rw [TilingInv, hpc] at h
      have hleft := @readsLeft_post o ctx tr s h conn rest queue { s.code with
        ctx := s.code.ctx.afterPost queue conn (nextSize o s.code.ctx conn)
        sched := if ((s.code.ctx.afterPost queue conn
            (nextSize o s.code.ctx conn)).conns conn).readOffset < o.rdmaReadSize
          then rest ++ [conn] else rest
        pc := .poll } hsched hsize rfl
      rw [work, work, hpc]
      dsimp only at hleft ⊢
      rw [List.length_append, List.length_singleton, afterPost_numConns]
      exact ⟨by omega, fun _ => by omega, by simp⟩
  | poll finRecvd hpc =>
      rw [work, work, hpc]
      exact ⟨le_refl _, fun hne => absurd rfl hne, by simp⟩
  | complete k r freed hpc hk hfreed =>
      obtain ⟨hlt, -⟩ := List.getElem?_eq_some_iff.mp hk
      have hleft : readsLeft o { s.code with
          ctx := s.code.ctx.readDone freed, pc := .whileTest } = readsLeft o s.code := by
        simp [readsLeft, ReadState.offset]
      rw [work, work, hpc]
      dsimp only at hleft ⊢
      rw [hleft, List.length_eraseIdx_of_lt hlt, readDone_numConns]
      exact ⟨by omega, fun _ => by omega, by simp⟩
  | abort k r stop hpc hk hdc hstop =>
      obtain ⟨hlt, -⟩ := List.getElem?_eq_some_iff.mp hk
      rw [work, work, hpc]
      dsimp only
      exact ⟨by omega, fun _ => by omega, by simp⟩
  | finish hpc hiter => exact ⟨Nat.zero_le _, fun hne => absurd rfl hne, fun _ hin => hin.elim⟩
  | stop r sched' hr => exact ⟨Nat.zero_le _, fun hne => absurd rfl hne, fun _ hin => hin.elim⟩

/-! ## What else holds along a run -/

/-- Next to the tiling: the reads outstanding and left are those of one iteration at most, a
finished iteration has read everything, and the queue pairs are those of the setup. -/
structure PhaseInv (o : Options) (ctx : TestContext) (s : ReadSys) : Prop where
  budget : s.code.pc.InLoop →
    s.pending.length + readsLeft o s.code ≤ readsPerIteration o ctx.numConns
  complete : s.code.pc = .forTest → s.code.iter ≠ 0 →
    ∀ c < ctx.numConns, s.code.offset c = o.rdmaReadSize
  dcis : s.code.ctx.dcis = ctx.dcis

lemma phaseInv_step {es : List ReadEvent} (ht : TilingInv o ctx tr s) (h : PhaseInv o ctx s)
    (hs : ReadStep o s es s') : PhaseInv o ctx s' := by
  cases hs with
  | enter hpc hiter =>
      rw [TilingInv, hpc] at ht
      have hleft := readsLeft_enter (o := o) (s := s)
      rw [ht.setup.numConns] at hleft
      refine ⟨fun _ => ?_, by simp, h.dcis⟩
      show s.pending.length + _ ≤ _
      rw [ht.pending, List.length_nil, Nat.zero_add]
      exact hleft.le
  | finish hpc hiter => exact ⟨fun hin => hin.elim, by simp, h.dcis⟩
  | again hpc hmore => exact ⟨fun _ => h.budget (by rw [hpc]; trivial), by simp, h.dcis⟩
  | leave hpc hnone hempty =>
      rw [TilingInv, hpc] at ht
      refine ⟨fun hin => hin.elim, fun _ _ c hc => ?_, h.dcis⟩
      have hnot : c ∉ s.code.sched := by simp [hempty]
      rw [ht.sched c, not_and, not_lt] at hnot
      exact le_antisymm (ht.offset_le c hc) (hnot hc)
  | skip hpc => exact ⟨fun _ => h.budget (by rw [hpc]; trivial), by simp, h.dcis⟩
  | post conn rest mr queue wrId hpc hsched hlimit hsize hqueue =>
      rw [TilingInv, hpc] at ht
      have hleft := @readsLeft_post o ctx tr s ht conn rest queue { s.code with
        ctx := s.code.ctx.afterPost queue conn (nextSize o s.code.ctx conn)
        sched := if ((s.code.ctx.afterPost queue conn
            (nextSize o s.code.ctx conn)).conns conn).readOffset < o.rdmaReadSize
          then rest ++ [conn] else rest
        pc := .poll } hsched hsize rfl
      have hbudget := h.budget (by rw [hpc]; trivial)
      refine ⟨fun _ => ?_, by simp, by simp [h.dcis]⟩
      dsimp only at hleft ⊢
      rw [List.length_append, List.length_singleton]
      omega
  | poll finRecvd hpc => exact ⟨fun _ => h.budget (by rw [hpc]; trivial), by simp, h.dcis⟩
  | complete k r freed hpc hk hfreed =>
      have hbudget := h.budget (by rw [hpc]; trivial)
      have hle := List.length_eraseIdx_le s.pending k
      have hleft : readsLeft o { s.code with
          ctx := s.code.ctx.readDone freed, pc := .whileTest } = readsLeft o s.code := by
        simp [readsLeft, ReadState.offset]
      refine ⟨fun _ => ?_, by simp, by simp [h.dcis]⟩
      dsimp only at hleft ⊢
      omega
  | stop r sched' hr => exact ⟨fun hin => hin.elim, by simp, h.dcis⟩
  | abort k r stop hpc hk hdc hstop => exact ⟨fun hin => hin.elim, by simp, h.dcis⟩

lemma phaseInv_run (hrun : ReadRun o ctx tr s) : PhaseInv o ctx s := by
  have hboth : TilingInv o ctx tr s ∧ PhaseInv o ctx s := by
    refine hrun.invariant (I := fun tr s => TilingInv o ctx tr s ∧ PhaseInv o ctx s)
      ⟨tilingInv_start o ctx, fun hin => hin.elim, fun _ hne => absurd rfl hne, rfl⟩ ?_
    intro tr s c s' es hi _ hnext
    have hs := nextRead_step hnext
    exact ⟨tilingInv_step hi.1 hs, phaseInv_step hi.1 hi.2 hs⟩
  exact hboth.2

end RdmaFc
