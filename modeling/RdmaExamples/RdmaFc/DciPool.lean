import RdmaExamples.RdmaFc.ConnectionSlots
import RdmaExamples.RdmaFc.ReadLoop

/-!
# The pool of DC initiators

`init_dc_qps` creates `NUM_DCI` initiators and marks all 64 bits of `free_dci_bitmap`.
`post_rdma_read` takes the lowest marked one and `dc_send_completion` gives it back when nothing is
outstanding on it any more.

While fewer reads are outstanding than there are initiators, the lowest mark is the mark of a real
and idle one (`PoolInv.takesFree_iff`).  With `NUM_DCI` outstanding the next post takes index
`NUM_DCI`.  What keeps the loop away from that is `max_outstanding_reads` alone, and nothing checks
it against `NUM_DCI`.

The condition of `dciPool_ok_iff` is on one state.  For which options and numbers of connections it
holds in all states of all runs is `poolOk_throughout_iff`, next to the progress of the loop, since
the same count of what is left to read decides both.
-/

namespace RdmaFc

open MachineWords Programs

/-! ## The property -/

/-- `do_rdma_reads` is about to call `post_rdma_read`. -/
def Attempts (o : Options) (s : ReadState) : Prop :=
  s.pc = .post ∧ ∃ conn rest, s.sched = conn :: rest ∧
    s.ctx.numOutstandingReads < o.maxOutstandingReads ∧ nextSize o s.ctx conn ≠ 0

instance (o : Options) (s : ReadState) : Decidable (Attempts o s) :=
  decidable_of_iff (s.pc = .post ∧ ∃ conn ∈ s.sched.head?,
      s.ctx.numOutstandingReads < o.maxOutstandingReads ∧ nextSize o s.ctx conn ≠ 0) (by
    rw [Attempts]
    cases s.sched <;> simp)

/-- The DCI that `post_rdma_read` would take is one there is, and idle. -/
def TakesFree (ctx : TestContext) : Prop :=
  ctx.freeDciBitmap ≠ 0 →
    ∃ h : ffsl ctx.freeDciBitmap - 1 < numDci, ctx.dciOutstanding ⟨_, h⟩ = 0

/-- The pool invariant: what a post takes, what the bitmap says, and what the counters add up to. -/
structure PoolOk (o : Options) (s : ReadState) : Prop where
  takes : Attempts o s → TakesFree s.ctx
  bitmap : ∀ d : Fin numDci,
    s.ctx.freeDciBitmap.getLsbD d = true ↔ s.ctx.dciOutstanding d = 0
  total : s.ctx.numOutstandingReads = ∑ d, s.ctx.dciOutstanding d
  limit : s.ctx.numOutstandingReads ≤ o.maxOutstandingReads

/-- Fewer reads are outstanding than there are initiators, where a post is attempted. -/
def DciLeft (o : Options) (s : ReadState) : Prop :=
  Attempts o s → s.ctx.numOutstandingReads < numDci

/-! ## The invariant

The program has no list of the initiators that are free, only the bits.  The invariant says of each
bit what it stands for, and that the counters of the initiators add up to the number of reads
outstanding. -/

/-- How the pool stands, next to the reads the device holds.  `single` is what makes the bitmap
sound: an initiator holds one read at a time, so a bit that is clear stands for a single completion
to come.  The bits above the last initiator are never cleared, since only initiators are taken;
once all of these are, the lowest bit set is of an initiator that does not exist. -/
structure PoolInv (o : Options) (ctx : TestContext) (pending : List PostedRead) : Prop where
  bitmap : ∀ d : Fin numDci, ctx.freeDciBitmap.getLsbD d = true ↔ ctx.dciOutstanding d = 0
  high : ∀ i, numDci ≤ i → i < 64 → ctx.freeDciBitmap.getLsbD i = true
  single : ∀ d, ctx.dciOutstanding d ≤ 1
  total : ctx.numOutstandingReads = ∑ d, ctx.dciOutstanding d
  limit : ctx.numOutstandingReads ≤ o.maxOutstandingReads
  count : ∀ d : Fin numDci,
    ctx.dciOutstanding d = pending.countP fun r => r.wr.wrId = (d : ℕ)
  known : ∀ r ∈ pending, ∃ (d : Fin numDci) (qp : Qp),
    r.wr.queue = .dci d qp.qpNum ∧ r.wr.wrId = d ∧ ctx.dcis d = some qp

section Invariant

variable {o : Options} {ctx : TestContext} {pending : List PostedRead} {s s' : ReadSys}
  {es : List ReadEvent}

/-- One term of a sum changes. -/
lemma sum_update (f : Fin numDci → ℕ) (d : Fin numDci) (b : ℕ) :
    ∑ x, Function.update f d b x + f d = ∑ x, f x + b := by
  rw [Finset.sum_update_of_mem (Finset.mem_univ d),
    ← Finset.add_sum_erase Finset.univ f (Finset.mem_univ d), Finset.sdiff_singleton_eq_erase]
  omega

/-- The high bits are always set. -/
lemma PoolInv.bitmap_ne_zero (h : PoolInv o ctx pending) : ctx.freeDciBitmap ≠ 0 := by
  intro hzero
  have := h.high numDci le_rfl (by decide)
  rw [hzero] at this
  simp at this

/-- **Which initiator a post takes**: with the invariant, a real and idle one exactly while fewer
reads are outstanding than there are initiators.  The lowest set bit is below `NUM_DCI` just where
some initiator is idle; and with at most one read on each, some initiator is idle just where there
are fewer reads than initiators. -/
theorem PoolInv.takesFree_iff (h : PoolInv o ctx pending) :
    TakesFree ctx ↔ ctx.numOutstandingReads < numDci := by
  have hne := h.bitmap_ne_zero
  obtain ⟨i, hi⟩ := exists_ffsl hne
  have hlow := ffsl_eq_succ_iff.mp hi
  constructor
  · intro htakes
    obtain ⟨hlt, hidle⟩ := htakes hne
    -- one of the counters is 0, and the others are at most 1
    have hle : ∑ d, ctx.dciOutstanding d
        ≤ ∑ d : Fin numDci, if d = ⟨_, hlt⟩ then 0 else 1 := by
      refine Finset.sum_le_sum fun d _ => ?_
      split
      · rename_i hd
        rw [hd, hidle]
      · exact h.single d
    rw [h.total]
    refine lt_of_le_of_lt hle ?_
    generalize (⟨_, hlt⟩ : Fin numDci) = d
    revert d
    decide
  · intro hlt _
    -- not all counters are 1, so one of the low bits is set
    obtain ⟨d, hd⟩ : ∃ d, ctx.dciOutstanding d = 0 := by
      by_contra hall
      have hone : ∀ d, ctx.dciOutstanding d = 1 := by
        intro d
        have := h.single d
        have : ctx.dciOutstanding d ≠ 0 := fun hd => hall ⟨d, hd⟩
        omega
      rw [h.total, Finset.sum_congr rfl fun d _ => hone d] at hlt
      exact absurd hlt (by decide)
    have hle := ffsl_le hi ((h.bitmap d).mpr hd)
    have hidx : i < numDci := lt_of_le_of_lt hle d.isLt
    refine ⟨by rw [hi]; exact hidx, ?_⟩
    have hzero := (h.bitmap ⟨i, hidx⟩).mp hlow.1
    simpa only [hi, Nat.add_sub_cancel] using hzero

/-- With the invariant, the property of a state comes down to what a post would take. -/
theorem PoolInv.poolOk_iff (h : PoolInv o s.code.ctx s.pending) :
    PoolOk o s.code ↔ DciLeft o s.code := by
  constructor
  · intro hok hatt
    exact h.takesFree_iff.mp (hok.takes hatt)
  · intro hleft
    exact ⟨fun hatt => h.takesFree_iff.mpr (hleft hatt), h.bitmap, h.total, h.limit⟩

/-! ## The steps

Two steps touch the pool, the post and the completion.  For a post it matters that the initiator
that was found was idle; for a completion, that the read had been counted on that initiator. -/

/-- A post takes the lowest marked initiator, which is idle. -/
lemma PoolInv.post {d : Fin numDci} {qp : Qp} {conn length : ℕ} {r : PostedRead}
    (h : PoolInv o ctx pending) (hlimit : ctx.numOutstandingReads < o.maxOutstandingReads)
    (hidle : ctx.dciOutstanding d = 0) (hqp : ctx.dcis d = some qp)
    (hqueue : r.wr.queue = .dci d qp.qpNum) (hid : r.wr.wrId = d) :
    PoolInv o ((ctx.takeDci d).readPosted conn length) (pending ++ [r]) := by
  have hmax := o.maxOutstandingReads_lt
  have hout : ((ctx.takeDci d).readPosted conn length).dciOutstanding
      = Function.update ctx.dciOutstanding d 1 := by
    have hone : incr 32 (ctx.dciOutstanding d) = 1 := by
      rw [hidle]
      rfl
    rw [TestContext.readPosted_dciOutstanding, TestContext.takeDci, hone]
  have hnum : ((ctx.takeDci d).readPosted conn length).numOutstandingReads
      = ctx.numOutstandingReads + 1 := by
    rw [TestContext.readPosted_numOutstandingReads, TestContext.takeDci_numOutstandingReads]
    exact incr_of_lt (by omega)
  have hmap : ((ctx.takeDci d).readPosted conn length).freeDciBitmap
      = clearBit ctx.freeDciBitmap d := rfl
  exact {
    bitmap := by
      intro e
      rw [hmap, hout, getLsbD_clearBit]
      by_cases he : e = d
      · subst he
        simp
      · have hne : (d : ℕ) ≠ e := fun hde => he (Fin.ext hde.symm)
        simpa [he, hne] using h.bitmap e
    high := by
      intro i hi hlt
      have hne : (d : ℕ) ≠ i := by omega
      rw [hmap, getLsbD_clearBit, h.high i hi hlt]
      simp [hne]
    single := by
      intro e
      rw [hout]
      by_cases he : e = d
      · subst he
        simp
      · simpa [he] using h.single e
    total := by
      have hsum := sum_update ctx.dciOutstanding d 1
      rw [hnum, hout, h.total]
      omega
    limit := by
      rw [hnum]
      exact hlimit
    count := by
      intro e
      rw [hout, List.countP_append]
      by_cases he : e = d
      · subst he
        have hzero := h.count e
        rw [hidle] at hzero
        simp [← hzero, hid]
      · have hne : ¬ (d : ℕ) = e := fun hde => he (Fin.ext hde.symm)
        simpa [he, hid, hne] using h.count e
    known := by
      intro r' hr'
      rcases List.mem_append.mp hr' with hr' | hr'
      · exact h.known r' hr'
      · rw [List.mem_singleton.mp hr']
        exact ⟨d, qp, hqueue, hid, hqp⟩ }

/-- A completion gives its initiator back. -/
lemma PoolInv.complete {k : ℕ} {r : PostedRead} {d : Fin numDci} (h : PoolInv o ctx pending)
    (hk : pending[k]? = some r) (hid : r.wr.wrId = d) :
    PoolInv o (ctx.readDone (some d)) (pending.eraseIdx k) := by
  obtain ⟨hlt, hget⟩ := List.getElem?_eq_some_iff.mp hk
  have hperm : List.Perm (r :: pending.eraseIdx k) pending :=
     hget ▸ List.getElem_cons_eraseIdx_perm hlt
  have hcount : ∀ e : Fin numDci, ctx.dciOutstanding e
      = (if d = e then 1 else 0) + (pending.eraseIdx k).countP fun r => r.wr.wrId = (e : ℕ) := by
    intro e
    rw [h.count e, ← hperm.countP_eq, List.countP_cons, hid]
    by_cases he : d = e
    · subst he
      simp
      omega
    · have hne : ¬ (d : ℕ) = e := fun hde => he (Fin.ext hde)
      simp [he, hne]
  have hbusy : ctx.dciOutstanding d = 1 := by
    have := h.single d
    have := hcount d
    rw [if_pos rfl] at this
    omega
  have hleft : decr 32 (ctx.dciOutstanding d) = 0 := by
    rw [hbusy]
    rfl
  have hout : (ctx.readDone (some d)).dciOutstanding
      = Function.update ctx.dciOutstanding d 0 := by
    simp only [TestContext.readDone, TestContext.releaseDci, hleft]
  have hmap : (ctx.readDone (some d)).freeDciBitmap = setBit ctx.freeDciBitmap d := by
    simp only [TestContext.readDone, TestContext.releaseDci, hleft, if_pos]
  have hsum := sum_update ctx.dciOutstanding d 0
  have hnum : (ctx.readDone (some d)).numOutstandingReads = ctx.numOutstandingReads - 1 := by
    rw [readDone_numOutstandingReads]
    refine decr_of_pos ?_
    rw [h.total]
    omega
  exact {
    bitmap := by
      intro e
      rw [hmap, hout, getLsbD_setBit]
      by_cases he : e = d
      · subst he
        have : (e : ℕ) < 64 := lt_trans e.isLt (by decide)
        simp [this]
      · have hne : (d : ℕ) ≠ e := fun hde => he (Fin.ext hde.symm)
        simpa [he, hne] using h.bitmap e
    high := by
      intro i hi hlt
      rw [hmap, getLsbD_setBit, h.high i hi hlt]
      rfl
    single := by
      intro e
      rw [hout]
      by_cases he : e = d
      · subst he
        simp
      · simpa [he] using h.single e
    total := by
      rw [hnum, hout, h.total]
      omega
    limit := by
      have := h.limit
      rw [hnum]
      omega
    count := by
      intro e
      have hce := hcount e
      rw [hout]
      by_cases he : e = d
      · subst he
        rw [hbusy, if_pos rfl] at hce
        simp
        omega
      · rw [if_neg (fun hde => he hde.symm)] at hce
        simpa [he] using hce
    known := by
      intro r' hr'
      rw [readDone_dcis]
      exact h.known r' (List.mem_of_mem_eraseIdx hr') }

/-- The completion of a read that is pending is never refused. -/
lemma PoolInv.not_aborted {k : ℕ} {r : PostedRead} {stop : Stop} (h : PoolInv o ctx pending)
    (hk : pending[k]? = some r) {ctx' : TestContext} (hdcis : ctx'.dcis = ctx.dcis) :
    dcSendCompletion ctx' (readWc r) ≠ .stopped stop := by
  obtain ⟨d, qp, hqueue, hid, hqp⟩ := h.known r (List.mem_of_getElem? hk)
  have hwr : (readWc r).wrId = d := hid
  have hlt : (readWc r).wrId < numDci := by
    rw [hwr]
    exact d.isLt
  have hd : (⟨(readWc r).wrId, hlt⟩ : Fin numDci) = d := Fin.ext hwr
  have hnum : (readWc r).qpNum = qp.qpNum := by simp [readWc, hqueue]
  simp [dcSendCompletion, hlt, hd, hdcis, hqp, hnum]

/-- **One step keeps the invariant.**  A post clears the bit of an idle initiator and a completion
sets it again; the completion is for the initiator that `dci_outstanding` counts it for, since the
work request names its queue pair. -/
theorem PoolInv.step (hdc : o.transport = .dc) (h : PoolInv o s.code.ctx s.pending)
    (hs : ReadStep o s es s') : PoolInv o s'.code.ctx s'.pending := by
  cases hs with
  | enter hpc hiter => exact ⟨h.bitmap, h.high, h.single, h.total, h.limit, h.count, h.known⟩
  | finish hpc hiter => exact h
  | again hpc hmore => exact h
  | leave hpc hnone hempty => exact h
  | skip hpc => exact h
  | post conn rest mr queue wrId hpc hsched hlimit hsize hqueue =>
      cases queue with
      | rc rdmaId =>
          have hrc := hqueue.1
          rw [hdc] at hrc
          exact absurd hrc (by simp)
      | dci d qpNum =>
          obtain ⟨-, hid, -, hidle, qp, hqp, rfl⟩ := hqueue
          exact h.post hlimit hidle hqp rfl hid
  | poll finRecvd hpc => exact ⟨h.bitmap, h.high, h.single, h.total, h.limit, h.count, h.known⟩
  | complete k r freed hpc hk hfreed =>
      cases freed with
      | none =>
          rw [FreedBy, hdc] at hfreed
          exact absurd hfreed (by simp)
      | some d => exact h.complete hk hfreed.2.symm
  | stop r sched' hr => exact h
  | abort k r stop hpc hk _ hstop => exact absurd hstop (h.not_aborted hk rfl)

/-- The pool as `init_dc_qps` leaves it. -/
lemma poolInv_start (hready : ctx.dcPool.Ready) :
    PoolInv o (startReads ctx).ctx [] := by
  have hfree : (startReads ctx).ctx.freeDciBitmap = BitVec.allOnes 64 := hready.free
  have hidle : (startReads ctx).ctx.dciOutstanding = fun _ => 0 := funext hready.idle
  exact {
    bitmap := by
      intro d
      have hlt : (d : ℕ) < 64 := lt_trans d.isLt (by decide)
      rw [hfree, hidle, BitVec.getLsbD_allOnes]
      simp [hlt]
    high := by
      intro i _ hlt
      rw [hfree, BitVec.getLsbD_allOnes]
      simp [hlt]
    single := by
      intro d
      rw [hidle]
      exact Nat.zero_le _
    total := by
      rw [hidle, Finset.sum_const_zero]
      rfl
    limit := Nat.zero_le _
    count := hready.idle
    known := by simp }

/-- **The invariant in every run** from a context whose DC objects are there. -/
theorem poolInv_run {tr : List ReadEvent} (hdc : o.transport = .dc) (hready : ctx.dcPool.Ready)
    (hrun : ReadRun o ctx tr s) : PoolInv o s.code.ctx s.pending :=
  hrun.invariant (I := fun _ s => PoolInv o s.code.ctx s.pending) (poolInv_start hready)
    fun _ _ _ _ _ h _ hs => h.step hdc (nextRead_step hs)

/-- Where no connection was ever requested there are no DC objects: every bit is clear, and nothing
is outstanding. -/
def Untouched (s : ReadSys) : Prop :=
  s.code.ctx.freeDciBitmap = 0 ∧ (∀ d, s.code.ctx.dciOutstanding d = 0) ∧ s.pending = []

lemma Untouched.step (hdc : o.transport = .dc) (h : Untouched s) (hs : ReadStep o s es s') :
    Untouched s' := by
  obtain ⟨hmap, hout, hpend⟩ := h
  cases hs with
  | enter hpc hiter => exact ⟨hmap, hout, hpend⟩
  | finish hpc hiter => exact ⟨hmap, hout, hpend⟩
  | again hpc hmore => exact ⟨hmap, hout, hpend⟩
  | leave hpc hnone hempty => exact ⟨hmap, hout, hpend⟩
  | skip hpc => exact ⟨hmap, hout, hpend⟩
  | post conn rest mr queue wrId hpc hsched hlimit hsize hqueue =>
      cases queue with
      | rc rdmaId =>
          have hrc := hqueue.1
          rw [hdc] at hrc
          exact absurd hrc (by simp)
      | dci d qpNum =>
          have hset := (ffsl_eq_succ_iff.mp hqueue.2.2.1).1
          rw [hmap] at hset
          simp at hset
  | poll finRecvd hpc => exact ⟨hmap, hout, hpend⟩
  | complete k r freed hpc hk hfreed => simp [hpend] at hk
  | stop r sched' hr => exact ⟨hmap, hout, hpend⟩
  | abort k r stop hpc hk _ hstop => simp [hpend] at hk

end Invariant

/-! ## The result -/

/-- A DC server has a connection when it had a request for one. -/
lemma numConns_ne_zero_iff {o : Options} {fuel : ℕ} {t : Trace} {ctx : TestContext}
    (hserver : ¬ o.isClient) (hdc : o.transport = .dc)
    (h : Returns ((setup o fuel).run {}) t (0, ctx)) :
    ctx.numConns ≠ 0 ↔ ∃ ev ∈ cmEvents t, ev.type = .connectRequest := by
  obtain ⟨hw, -, hroster, -⟩ := setup_returns h
  have hconns : ctx.numConns = requests (cmEvents t) := by
    rw [show ctx.numConns = ctx.roster.numConns from rfl, hroster,
      numConns_dc hserver hdc hw le_rfl]
    exact Nat.zero_add _
  rw [hconns]
  constructor
  · intro hpos
    by_contra hnone
    refine hpos ?_
    have hfilter : (cmEvents t).filter (fun ev => ev.type = .connectRequest) = [] :=
      List.filter_eq_nil_iff.mpr fun ev hev hty => hnone ⟨ev, hev, by simpa using hty⟩
    rw [requests, idsOf, hfilter]
    rfl
  · rintro ⟨ev, hev, hty⟩
    have hid : ev.id ∈ idsOf .connectRequest (cmEvents t) :=
      List.mem_map_of_mem (List.mem_filter.mpr ⟨hev, by simp [hty]⟩)
    exact (List.length_pos_of_mem hid).ne'

/-- Without a connection no DC object is there: no bit is set although nothing is outstanding, so
the pool invariant fails from the first state on. -/
lemma numConns_ne_zero_of_poolOk {o : Options} {fuel : ℕ} {t : Trace} {ctx : TestContext}
    {tr : List ReadEvent} {s : ReadSys} (hserver : ¬ o.isClient) (hdc : o.transport = .dc)
    (h : Returns ((setup o fuel).run {}) t (0, ctx)) (hrun : ReadRun o.inForce ctx tr s)
    (hok : PoolOk o.inForce s.code) : ctx.numConns ≠ 0 := by
  intro hzero
  have hdc' : o.inForce.transport = .dc := by rw [inForce_transport, hdc]
  have hnone : ∀ ev ∈ cmEvents t, ev.type ≠ .connectRequest :=
    fun ev hev hty => (numConns_ne_zero_iff hserver hdc h).mpr ⟨ev, hev, hty⟩ hzero
  have hpool := setup_same hserver h hnone
  have hun : Untouched s :=
    hrun.invariant (I := fun _ s => Untouched s)
      ⟨congrArg DcPool.freeDciBitmap hpool,
        fun d => congrFun (congrArg DcPool.dciOutstanding hpool) d, rfl⟩
      fun _ _ _ _ _ h _ hs => h.step hdc' (nextRead_step hs)
  have hbit := (hok.bitmap 0).mpr (hun.2.1 0)
  rw [hun.1] at hbit
  simp at hbit

/-- **When the pool invariant holds.**  In every state of every run of the reads of a DC server:
exactly when there is a connection and, if a post is about to be made, fewer than `NUM_DCI` reads
are outstanding.

With a connection the pool was created, and `PoolInv` holds: a bit below `NUM_DCI` is set just
where the initiator is idle, no initiator has more than one read, and all bits above are set.  So
the lowest set bit is that of an idle initiator as long as one is left, which is to say as long as
fewer than `NUM_DCI` reads are outstanding.  Without a connection no bit is set although nothing is
outstanding. -/
theorem dciPool_ok_iff (o : Options) (fuel : ℕ) (t : Trace) (ctx : TestContext)
    (tr : List ReadEvent) (s : ReadSys) (hserver : ¬ o.isClient) (hdc : o.transport = .dc)
    (h : Returns ((setup o fuel).run {}) t (0, ctx)) (hrun : ReadRun o.inForce ctx tr s) :
    PoolOk o.inForce s.code ↔ ctx.numConns ≠ 0 ∧ DciLeft o.inForce s.code := by
  have hdc' : o.inForce.transport = .dc := by rw [inForce_transport, hdc]
  have hinv : ctx.numConns ≠ 0 → PoolInv o.inForce s.code.ctx s.pending := by
    intro hpos
    obtain ⟨ev, hev, hty⟩ := (numConns_ne_zero_iff hserver hdc h).mp hpos
    exact poolInv_run hdc' (setup_ready hdc h ⟨ev, hev, Or.inl hty⟩) hrun
  constructor
  · intro hok
    have hpos := numConns_ne_zero_of_poolOk hserver hdc h hrun hok
    exact ⟨hpos, (hinv hpos).poolOk_iff.mp hok⟩
  · rintro ⟨hpos, hleft⟩
    exact (hinv hpos).poolOk_iff.mpr hleft

/-- Default options, over DC. -/
def dcOptions : Options := { gOptions with transport := .dc }

/-- A DC server with one connection: two reads are outstanding and the third is about to be
posted. -/
theorem dciPool_ok_iff_twoOutstanding :
    ∃ t ctx, Returns ((setup dcOptions 4).run {}) t (0, ctx) ∧
      ∃ tr s, ReadRun dcOptions.inForce ctx tr s ∧ Attempts dcOptions.inForce s.code ∧
        s.code.ctx.numOutstandingReads = 2 ∧ PoolOk dcOptions.inForce s.code := by
  obtain ⟨t, ⟨ret, ctx⟩, hr, htest⟩ := exists_of_play obliging
    [eventFor .connectRequest 2] ((setup dcOptions 4).run {})
    (fun _ r => decide (r.1 = 0) && decide (r.2.numConns ≠ 0) &&
      (Runs.play (nextRead dcOptions.inForce) (ReadSys.start r.2)
        [.tick, .tick, .post 0, .pollEmpty, .tick, .post 0, .pollEmpty, .tick]).any fun r =>
          decide (Attempts dcOptions.inForce r.1.code) &&
            r.1.code.ctx.numOutstandingReads == 2) (by decide +kernel)
  simp only [Bool.and_eq_true, decide_eq_true_eq] at htest
  obtain ⟨⟨rfl, hconn⟩, hreads⟩ := htest
  obtain ⟨tr, s, hrun, hs⟩ := Runs.Run.exists_of_play _ _ _ _ hreads
  simp only [Bool.and_eq_true, decide_eq_true_eq, beq_iff_eq] at hs
  obtain ⟨hattempts, hout⟩ := hs
  have hleft : DciLeft dcOptions.inForce s.code := fun _ => by rw [hout]; decide
  exact ⟨t, ctx, hr, tr, s, hrun, hattempts, hout,
    (dciPool_ok_iff dcOptions 4 t ctx tr s (by decide) rfl hr hrun).mpr ⟨hconn, hleft⟩⟩

/-- The options of `-x dc -o 9`. -/
def nineReads : Options := { dcOptions with
  maxOutstandingReads := 9
  maxOutstandingReads_lt := by decide }

/-- Eight reads are posted before any completes; the ninth post takes index 8. -/
theorem nineReads_pastPool : Accepted nineReads ∧
    ∃ t ctx, Returns ((setup nineReads 4).run {}) t (0, ctx) ∧
      ∃ tr s, ReadRun nineReads.inForce ctx tr s ∧ ¬ PoolOk nineReads.inForce s.code ∧
        s.code.pc = .post ∧ ffsl s.code.ctx.freeDciBitmap - 1 = numDci := by
  refine ⟨⟨none, [.x ['d', 'c'], .o ['9']], rfl⟩, ?_⟩
  obtain ⟨t, ⟨ret, ctx⟩, hr, htest⟩ := exists_of_play obliging
    [eventFor .connectRequest 2] ((setup nineReads 4).run {})
    (fun _ r => decide (r.1 = 0) && (Runs.play (nextRead nineReads.inForce) (ReadSys.start r.2)
      (.tick :: (List.replicate 8 [.tick, .post 0, .pollEmpty]).flatten ++ [.tick])).any fun r =>
        decide (ffsl r.1.code.ctx.freeDciBitmap = 9) &&
          decide (Attempts nineReads.inForce r.1.code))
    (by decide +kernel)
  simp only [Bool.and_eq_true, decide_eq_true_eq] at htest
  obtain ⟨rfl, hreads⟩ := htest
  obtain ⟨tr, s, hrun, hs⟩ := Runs.Run.exists_of_play _ _ _ _ hreads
  simp only [Bool.and_eq_true, decide_eq_true_eq] at hs
  have hne : s.code.ctx.freeDciBitmap ≠ 0 := by
    intro hzero
    rw [hzero] at hs
    exact absurd hs.1 (by decide)
  refine ⟨t, ctx, hr, tr, s, hrun, fun hok => ?_, hs.2.1, by rw [hs.1]⟩
  obtain ⟨hlt, -⟩ := hok.takes hs.2 hne
  rw [hs.1] at hlt
  exact absurd hlt (by decide)

end RdmaFc
