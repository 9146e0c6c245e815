import RdmaExamples.RdmaFc.ReadWork
import RdmaExamples.RdmaFc.ReadsFirst

/-!
# The room in the completion queue

`init_transport` creates one completion queue, for `tx_queue_len` sends and `rx_queue_len` receives.
All queue pairs of the process complete into it, and `max_outstanding_reads` is a limit of its own.

`cqWaiting` counts what may be waiting there: the reads and FINs posted and not polled, and the FINs
received and not polled.  Each of the last two is at most one for a connection.  The reads are
limited in three ways (`maxReads`): by the option, by the queue pairs, and by what one iteration has
to read, since an iteration ends with nothing outstanding.  `cqWaiting_le` compares the sum with the
room there is.

The bound is on what may wait at once, and not on what a particular device keeps: a device may
report a read at any time, so it may keep all of them back until the FINs have come.  That no queue
pair holds more reads than its send queue is an assumption (`QueuePairsHold`), since a device
refuses further posts.
-/

namespace RdmaFc

open MachineWords Programs

/-- The number of elements of a list that falls into `n` classes. -/
lemma length_eq_sum_countP {α : Type} {f : α → ℕ} {n : ℕ} {l : List α} (h : ∀ a ∈ l, f a < n) :
    l.length = ∑ c ∈ Finset.range n, l.countP fun a => f a = c := by
  induction l with
  | nil => simp
  | cons a l ih =>
      have hcons : ∀ c, (a :: l).countP (fun a => f a = c)
          = l.countP (fun a => f a = c) + if f a = c then 1 else 0 := by
        intro c
        by_cases hc : f a = c <;> simp [hc]
      have ha : f a ∈ Finset.range n := Finset.mem_range.mpr (h a List.mem_cons_self)
      rw [Finset.sum_congr rfl fun c _ => hcons c, Finset.sum_add_distrib, Finset.sum_ite_eq,
        if_pos ha, ← ih fun b hb => h b (List.mem_cons_of_mem a hb), List.length_cons]

/-- At most `k` elements in each of `n` classes. -/
lemma length_le_of_countP_le {α : Type} {f : α → ℕ} {n k : ℕ} {l : List α}
    (h : ∀ a ∈ l, f a < n) (hle : ∀ c < n, (l.countP fun a => f a = c) ≤ k) : l.length ≤ n * k := by
  rw [length_eq_sum_countP h]
  refine (Finset.sum_le_card_nsmul _ _ k fun c hc => hle c (Finset.mem_range.mp hc)).trans ?_
  rw [Finset.card_range, smul_eq_mul]

/-! ## The reads outstanding

Three limits, each from a different place: the test before a post, the length of the queue pairs,
and the sum of what an iteration reads. -/

/-- Over RC each connection has a queue pair of its own, over DC the reads share `NUM_DCI`. -/
def perQueue (o : Options) (n : ℕ) : ℕ :=
  match o.transport with
  | .rc => n * min o.txQueueLen (readsFor o o.rdmaReadSize)
  | .dc => min numDci (readsPerIteration o n)

/-- The most reads that are outstanding at once over `n` connections. -/
def maxReads (o : Options) (n : ℕ) : ℕ :=
  if o.numIterations = 0 then 0 else min o.maxOutstandingReads (perQueue o n)

/-- What limits the reads the device holds, wherever the phase stands. -/
structure ReadsOut (o : Options) (ctx : TestContext) (s : ReadSys) : Prop where
  limit : s.pending.length ≤ o.maxOutstandingReads
  budget : s.pending.length ≤ readsPerIteration o ctx.numConns
  none : o.numIterations = 0 → s.pending = []
  conn_lt : ∀ r ∈ s.pending, r.conn < ctx.numConns

section Reads

variable {o : Options} {ctx : TestContext} {tr es : List ReadEvent} {s s' : ReadSys}

lemma ReadsOut.elsewhere (h : ReadsOut o ctx s) {code : ReadState} :
    ReadsOut o ctx { s with code := code } :=
  ⟨h.limit, h.budget, h.none, h.conn_lt⟩

lemma ReadsOut.erase (h : ReadsOut o ctx s) (k : ℕ) {code : ReadState} :
    ReadsOut o ctx { s with code := code, pending := s.pending.eraseIdx k } where
  limit := (List.length_eraseIdx_le _ _).trans h.limit
  budget := (List.length_eraseIdx_le _ _).trans h.budget
  none hzero := by
    rw [h.none hzero]
    rfl
  conn_lt r hr := h.conn_lt r (List.mem_of_mem_eraseIdx hr)

/-- One step keeps the limits: a post is within the option and within the iteration's reads. -/
lemma ReadsOut.step (h : ReadsOut o ctx s) (ht : TilingInv o ctx tr s)
    (hphase : PhaseInv o ctx s') (hs : ReadStep o s es s') : ReadsOut o ctx s' := by
  cases hs with
  | post conn rest mr queue wrId hpc hsched hlimit hsize hqueue =>
      rw [TilingInv, hpc] at ht
      rw [ht.outstanding] at hlimit
      have hbudget := hphase.budget trivial
      have hiter := ht.iter_lt
      exact {
        limit := by
          rw [List.length_append, List.length_singleton]
          exact hlimit
        budget := (Nat.le_add_right _ _).trans hbudget
        none := fun hzero => by omega
        conn_lt := by
          intro r hr
          rcases List.mem_append.mp hr with hr | hr
          · exact h.conn_lt r hr
          · rw [List.mem_singleton.mp hr]
            exact ((ht.sched conn).mp (by simp [hsched])).1 }
  | complete k r freed hpc hk hfreed => exact h.erase k
  | abort k r stop hpc hk hdc hstop => exact h.erase k
  | enter hpc hiter => exact h.elsewhere
  | finish hpc hiter => exact h.elsewhere
  | again hpc hmore => exact h.elsewhere
  | leave hpc hnone hempty => exact h.elsewhere
  | skip hpc => exact h.elsewhere
  | poll finRecvd hpc => exact h.elsewhere
  | stop r sched' hr => exact h.elsewhere

lemma readsOut_run (hrun : ReadRun o ctx tr s) : ReadsOut o ctx s := by
  have hall : TilingInv o ctx tr s ∧ PhaseInv o ctx s ∧ ReadsOut o ctx s := by
    refine hrun.invariant
      (I := fun tr s => TilingInv o ctx tr s ∧ PhaseInv o ctx s ∧ ReadsOut o ctx s)
      ⟨tilingInv_start o ctx, phaseInv_run Runs.Run.start,
        Nat.zero_le _, Nat.zero_le _, fun _ => rfl, by simp [ReadSys.start]⟩ ?_
    intro tr s c s' es hi _ hnext
    have hs := nextRead_step hnext
    have hphase := phaseInv_step hi.1 hi.2.1 hs
    exact ⟨tilingInv_step hi.1 hs, hphase, hi.2.2.step hi.1 hphase hs⟩
  exact hall.2.2

/-- Over DC a read is outstanding on each initiator at most. -/
lemma PoolInv.length_le (h : PoolInv o ctx s.pending) : s.pending.length ≤ numDci := by
  refine (length_le_of_countP_le (f := fun r => r.wr.wrId) (n := numDci) (k := 1) ?_ ?_).trans
    (Nat.mul_one _).le
  · intro r hr
    obtain ⟨d, -, -, hid, -⟩ := h.known r hr
    rw [hid]
    exact d.isLt
  · intro c hc
    exact (h.count ⟨c, hc⟩).symm.le.trans (h.single ⟨c, hc⟩)

/-- **How many reads are outstanding**, where each queue pair holds `tx_queue_len` at most.  Over
RC the reads are spread over the connections, over DC there is one for each initiator at most, and
one iteration has only so many reads to make. -/
theorem pending_le_maxReads (hrun : ReadRun o ctx tr s)
    (hpool : o.transport = .dc → ctx.numConns ≠ 0 → ctx.dcPool.Ready)
    (hqps : o.transport = .rc → ∀ c, (s.pending.countP fun r => r.conn = c) ≤ o.txQueueLen) :
    s.pending.length ≤ maxReads o ctx.numConns := by
  have hout := readsOut_run hrun
  rw [maxReads]
  split
  · rename_i hzero
    rw [hout.none hzero]
    rfl
  · refine le_min hout.limit ?_
    rw [perQueue]
    cases hx : o.transport with
    | rc =>
        dsimp only
        rw [← Nat.mul_min_mul_left]
        exact le_min (length_le_of_countP_le hout.conn_lt fun c _ => hqps hx c) hout.budget
    | dc =>
        refine le_min ?_ hout.budget
        by_cases hconns : ctx.numConns = 0
        · have hnone := hout.budget
          rw [hconns, readsPerIteration, Nat.zero_mul] at hnone
          exact hnone.trans (Nat.zero_le _)
        · exact (poolInv_run hx (hpool hx hconns) hrun).length_le

end Reads

/-! ## The completion queue

What may wait are the pieces counted by `cqWaiting`; the cases are by where the process stands,
since it either reads or has sent FINs, and never both. -/

/-- The reads of a process that are posted and not polled. -/
def Proc.readsOut : Proc → List PostedRead
  | .reads r => r.pending
  | _ => []

/-- The FIN is sent, and its completion not polled. -/
def SendStatus.unpolled : SendStatus → Bool
  | .unsent => false
  | .reaped => false
  | _ => true

/-- The FIN is received, and its completion not polled. -/
def RecvStatus.unpolled : RecvStatus → Bool
  | .waiting _ => true
  | _ => false

/-- The completions that may be waiting in the completion queue of a process. -/
def cqWaiting (n : Network) (s : Sys) (p : Party) : ℕ :=
  (s.procs p).readsOut.length +
    (List.range (n.ctx p).numConns).countP (fun i => (s.sent p (n.index p i)).unpolled) +
    (List.range (n.ctx p).numConns).countP fun i => (s.recvd p (n.index p i)).unpolled

/-- The completions `init_transport` asks `ibv_create_cq` to make room for. -/
def Options.cqe (o : Options) : ℕ := o.txQueueLen + o.rxQueueLen

/-- Each queue pair holds at most `tx_queue_len` reads; over RC those of a connection are on its
own. -/
def QueuePairsHold (n : Network) (s : Sys) : Prop :=
  (n.opts .server).transport = .rc → ∀ c,
    ((s.procs .server).readsOut.countP fun r => r.conn = c) ≤ (n.opts .server).txQueueLen

/-- The server's options and its context come from a setup phase. -/
def ServerSetUp (n : Network) : Prop :=
  ∃ o fuel t, ¬ o.isClient ∧ n.opts .server = o.inForce ∧
    Returns ((setup o fuel).run {}) t (0, n.ctx .server)

/-- There is room for a FIN each way on every connection of a process, and on the server for all
reads and the FINs of the clients. -/
structure CqFits (n : Network) (p : Party) : Prop where
  fins : 2 * (n.ctx p).numConns ≤ (n.opts p).cqe
  reads : p = .server →
    maxReads (n.opts p) (n.ctx p).numConns + (n.ctx p).numConns ≤ (n.opts p).cqe

section Cq

variable {n : Network} {s : Sys} {tr : List ReadEvent} {p : Party}

/-- While a process reads, no FIN of its own is out. -/
lemma unpolled_eq_zero (h : SysOk n s) {r : ReadSys} (hp : s.procs p = .reads r) :
    (List.range (n.ctx p).numConns).countP (fun i => (s.sent p (n.index p i)).unpolled) = 0 := by
  rw [List.countP_eq_zero]
  intro i hi
  have hunsent := h.fins.unsent p 0 (by rw [hp]; rfl) i (Nat.zero_le i) (List.mem_range.mp hi)
  rw [hunsent]
  decide

lemma readsOut_eq_nil {proc : Proc} (h : ∀ r, proc ≠ .reads r) : proc.readsOut = [] := by
  cases proc with
  | reads r => exact absurd rfl (h r)
  | _ => rfl

/-- **The completion queue never overruns** where there is room for the reads and the FINs, in every
state in which no queue pair holds more than `tx_queue_len` reads.

A process that reads has sent no FIN, so that what waits are reads and the FINs it received, at
most one for a connection; the reads are limited by `maxReads`.  A process that does not read has
no read outstanding, and at most two FINs wait for a connection, one each way.  `CqFits` compares
the two sums with the size of the queue. -/
theorem cqWaiting_le (n : Network) (p : Party) (tr : List ReadEvent) (s : Sys)
    (hsetup : ServerSetUp n) (hfits : CqFits n p) (hrun : SysRun n tr s)
    (hqps : QueuePairsHold n s) : cqWaiting n s p ≤ (n.opts p).cqe := by
  have hok := sysOk_run hrun
  have hrecvd := @List.countP_le_length _ (fun i => (s.recvd p (n.index p i)).unpolled)
    (List.range (n.ctx p).numConns)
  have hsent := @List.countP_le_length _ (fun i => (s.sent p (n.index p i)).unpolled)
    (List.range (n.ctx p).numConns)
  rw [List.length_range] at hrecvd hsent
  rw [cqWaiting]
  by_cases hreads : ∃ r, s.procs p = .reads r
  · obtain ⟨r, hp⟩ := hreads
    obtain ⟨rfl, tr', hread⟩ := (hok.procs p).reads r hp
    have hle := pending_le_maxReads hread ?_ fun hrc c => ?_
    · have hroom := hfits.reads rfl
      rw [unpolled_eq_zero hok hp, hp]
      simp only [Proc.readsOut]
      omega
    · intro hdc hconns
      obtain ⟨o, fuel, t, hserver, hopts, hr⟩ := hsetup
      rw [hopts, inForce_transport] at hdc
      exact setup_pool hserver hdc hr hconns
    · have hhold := hqps hrc c
      rwa [hp] at hhold
  · have hroom := hfits.fins
    rw [readsOut_eq_nil fun r hr => hreads ⟨r, hr⟩, List.length_nil]
    omega

/-- The steps of a read phase are steps of the system. -/
lemma exists_sysRun_of_reads {r₀ r : ReadSys}
    (hrun : Runs.Run (nextRead (n.opts .server)) (fun _ c => c.Plain) r₀ tr r)
    (hp : s.procs .server = .reads r₀) :
    ∃ s', Runs.Run (nextSys n) Runs.always s tr s' ∧ s'.procs .server = .reads r := by
  induction hrun with
  | start => exact ⟨s, Runs.Run.start, hp⟩
  | @step tr r r' c es _ hplain hnext ih =>
      obtain ⟨s', hrun', hp'⟩ := ih
      have hstep : nextSys n s' (.reads c) = some (s'.setProc .server (.reads r'), es) := by
        simp only [nextSys, hp', if_pos hplain, hnext]
      exact ⟨_, hrun'.step trivial hstep, setProc_self _ _ _⟩

end Cq

/-! ## A server and clients with one connection each -/

/-- A server with these options and this context, and a client for each of its connections. -/
def serverAlone (o : Options) (ctx : TestContext) (hconns : ctx.numConns < 2 ^ 32)
    (hfin : ctx.numFinRecvd = 0) : Network where
  opts
    | .server => o
    | .client _ => gOptions
  ctx
    | .server => ctx
    | .client c => if c < ctx.numConns then oneConnContext else {}
  numClients := ctx.numConns
  conn c _ := c
  conn_lt c i hi := by
    dsimp only at hi ⊢
    by_contra hc
    rw [if_neg hc] at hi
    exact absurd hi (Nat.not_lt_zero i)
  conn_inj c i c' j hi hj hc := by
    have hone : ∀ c i, i < (if c < ctx.numConns then oneConnContext else {}).numConns → i = 0 := by
      intro c i hi
      split at hi
      · exact Nat.lt_one_iff.mp hi
      · exact absurd hi (Nat.not_lt_zero i)
    exact ⟨hc, (hone c i hi).trans (hone c' j hj).symm⟩
  numConns_lt
    | .server => hconns
    | .client c => by
        dsimp only
        split <;> decide
  numFinRecvd_eq
    | .server => hfin
    | .client c => by
        dsimp only
        split <;> rfl

/-- The options of `-n 3 -o 257 -r 4096`. -/
def manyReads : Options := { gOptions with
  numConnections := 3
  maxOutstandingReads := 257
  maxReadSize := 4096
  numConnections_lt := by decide
  maxOutstandingReads_lt := by decide
  maxReadSize_lt := by decide }

/-- The reads of a device that accepts `k` of them before it completes one. -/
def postsOnly (k : ℕ) : List ReadChoice :=
  .tick :: (List.replicate k [.tick, .post 0, .pollEmpty]).flatten

/-- The reads start from the context of the setup phase, with any device. -/
lemma exists_reading {o : Options} {ctx : TestContext} {hconns : ctx.numConns < 2 ^ 32}
    {hfin : ctx.numFinRecvd = 0} {tr : List ReadEvent} {r : ReadSys}
    (hrun : Runs.Run (nextRead o) (fun _ c => c.Plain) (ReadSys.start ctx) tr r) :
    ∃ s, SysRun (serverAlone o ctx hconns hfin) tr s ∧ s.procs .server = .reads r := by
  have hstart : nextSys (serverAlone o ctx hconns hfin)
      (Sys.start (serverAlone o ctx hconns hfin)) (.start .server)
      = some ((Sys.start (serverAlone o ctx hconns hfin)).setProc .server
          (.reads (ReadSys.start ctx)), []) := rfl
  obtain ⟨s, hrun', hp⟩ := exists_sysRun_of_reads (n := serverAlone o ctx hconns hfin) hrun
    (setProc_self _ _ _)
  exact ⟨s, (Runs.Run.single hstart).append hrun', hp⟩

/-- A server with one connection, and a read under way. -/
theorem cqWaiting_le_oneConnection : ∃ n tr s, ServerSetUp n ∧ SysRun n tr s ∧
    (s.procs .server).readsOut.length = 1 ∧ cqWaiting n s .server ≤ (n.opts .server).cqe := by
  obtain ⟨t, ⟨ret, ctx⟩, hr, htest⟩ := exists_of_play obliging
    [eventFor .connectRequest 2, eventFor .established 2] ((setup gOptions 4).run {})
    (fun _ r => decide (r.1 = 0) && (decide (r.2.numConns = 1 ∧ r.2.numFinRecvd = 0) &&
      (Runs.play (fun s c => if ReadChoice.Plain c then nextRead gOptions.inForce s c else none)
        (ReadSys.start r.2) (postsOnly 1)).any fun (r' : ReadSys × List ReadEvent) =>
          decide (r'.1.pending.length = 1)))
    (by decide +kernel)
  simp only [Bool.and_eq_true, decide_eq_true_eq] at htest
  obtain ⟨rfl, ⟨hone, hfin⟩, hreads⟩ := htest
  obtain ⟨tr, r, hrun, hpending⟩ := Runs.Run.exists_of_play _ _ _ _ hreads
  simp only [decide_eq_true_eq] at hpending
  obtain ⟨s, hsys, hp⟩ := @exists_reading _ _ (by rw [hone]; decide) hfin _ _ hrun.of_guarded
  have hlength : (s.procs .server).readsOut.length = 1 := by
    rw [hp]
    exact hpending
  refine ⟨_, tr, s, ⟨gOptions, 4, t, by decide, rfl, hr⟩, hsys, hlength,
    cqWaiting_le _ _ tr s ⟨gOptions, 4, t, by decide, rfl, hr⟩ ⟨?_, fun _ => ?_⟩ hsys ?_⟩
  · show 2 * ctx.numConns ≤ gOptions.inForce.cqe
    rw [hone]
    decide
  · show maxReads gOptions.inForce ctx.numConns + ctx.numConns ≤ gOptions.inForce.cqe
    rw [hone]
    decide
  · intro _ c
    have hroom : 1 ≤ gOptions.inForce.txQueueLen := by decide
    exact (List.countP_le_length.trans hlength.le).trans hroom

/-- Three queue pairs take more reads than the completion queue has room for: 257 are outstanding,
fewer than `tx_queue_len` on each. -/
theorem manyReads_overrun : Accepted manyReads ∧ ∃ n tr s, ServerSetUp n ∧
    n.opts .server = manyReads.inForce ∧ SysRun n tr s ∧ QueuePairsHold n s ∧
    (n.opts .server).cqe < cqWaiting n s .server := by
  refine ⟨⟨none, [.n ['3'], .o ['2', '5', '7'], .r ['4', '0', '9', '6']], rfl⟩, ?_⟩
  obtain ⟨t, ⟨ret, ctx⟩, hr, htest⟩ := exists_of_play obliging
    [eventFor .connectRequest 2, eventFor .connectRequest 3, eventFor .connectRequest 4,
      eventFor .established 2, eventFor .established 3, eventFor .established 4]
    ((setup manyReads 8).run {})
    (fun _ r => decide (r.1 = 0) && (decide (r.2.numConns = 3 ∧ r.2.numFinRecvd = 0) &&
      (Runs.play (fun s c => if ReadChoice.Plain c then nextRead manyReads.inForce s c else none)
        (ReadSys.start r.2) (postsOnly 257)).any fun (r' : ReadSys × List ReadEvent) =>
          decide (r'.1.pending.length = 257) &&
            decide (∀ c ∈ List.range 3, (r'.1.pending.countP fun x => x.conn = c) ≤ 128)))
    (by decide +kernel)
  simp only [Bool.and_eq_true, decide_eq_true_eq] at htest
  obtain ⟨rfl, ⟨hthree, hfin⟩, hreads⟩ := htest
  obtain ⟨tr, r, hrun, hpending⟩ := Runs.Run.exists_of_play _ _ _ _ hreads
  simp only [Bool.and_eq_true, decide_eq_true_eq] at hpending
  obtain ⟨s, hsys, hp⟩ := @exists_reading _ _ (by rw [hthree]; decide) hfin _ _ hrun.of_guarded
  refine ⟨_, tr, s, ⟨manyReads, 8, t, by decide, rfl, hr⟩, rfl, hsys, fun _ c => ?_, ?_⟩
  · rw [hp]
    by_cases hc : c < 3
    · exact hpending.2 c (List.mem_range.mpr hc)
    · have hnone : (r.pending.countP fun r => r.conn = c) = 0 := by
        rw [List.countP_eq_zero]
        intro r' hr'
        have hlt := (readsOut_run (hrun.of_guarded.weaken fun _ _ _ => trivial)).conn_lt r' hr'
        simp only [decide_eq_true_eq]
        omega
      exact hnone.le.trans (Nat.zero_le _)
  · rw [cqWaiting, hp]
    show (256 : ℕ) < _
    simp only [Proc.readsOut]
    omega

end RdmaFc
