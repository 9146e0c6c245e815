import RdmaExamples.RdmaFc.PostedReceives
import RdmaExamples.RdmaFc.ReadyToRead
import RdmaExamples.RdmaFc.Teardown

/-!
# The queues of control messages

Before it listens, `run_server` makes the queues "large enough to send/recv control messages on all
connections without extra CQ polling".  `run_client` sends and receives the same messages and leaves
the queues as they are, 128 long.

* The sends: `rand` may pick the same DCI for every FIN, so over DC all of them have to fit one send
  queue (`sendFins_ok_iff`).
* The receives: they are posted once, and each peer sends one FIN (`receives_of_returns`).

`QueuesSuffice` collects what the comment in the code promises: no assertion of `send_control`
fails whatever `rand` picks, all receives are posted by the time the connections are there, they
lie next to each other inside the buffer, and there are at least as many as connections.  `hcm` is
what rdma_cm is relied on for: nothing is established before `init_transport` has run.
-/

namespace RdmaFc

open MachineWords Programs

/-! ## The options in force -/

/-- The queue lengths `parse_opts` starts from. -/
def SameQueues (o o' : Options) : Prop :=
  o'.rxQueueLen = o.rxQueueLen ∧ o'.txQueueLen = o.txQueueLen

lemma parseOpt_queues {o o' : Options} {opt : Opt} (h : parseOpt o opt = .options o') :
    SameQueues o o' := by
  cases opt <;> simp only [parseOpt, Parsed.options.injEq, reduceCtorEq] at h
  case x a =>
    split at h
    · cases h
      exact ⟨rfl, rfl⟩
    · split at h <;> cases h
      exact ⟨rfl, rfl⟩
  all_goals
    subst h
    exact ⟨rfl, rfl⟩

/-- No option sets a queue length. -/
lemma parseOpts_queues {dest : Option CString} {o' : Options} : ∀ {opts : List Opt} {o : Options},
    parseOpts o dest opts = .options o' → SameQueues o o'
  | [], o, h => by
      cases dest <;> cases h <;> exact ⟨rfl, rfl⟩
  | opt :: opts, o, h => by
      rw [parseOpts] at h
      cases hopt : parseOpt o opt with
      | options o₁ =>
          rw [hopt] at h
          obtain ⟨hrx, htx⟩ := parseOpts_queues h
          obtain ⟨hrx', htx'⟩ := parseOpt_queues hopt
          exact ⟨hrx.trans hrx', htx.trans htx'⟩
      | invalid => simp [hopt] at h
      | exit => simp [hopt] at h

lemma Accepted.rxQueueLen {o : Options} (h : Accepted o) :
    o.inForce.rxQueueLen
      = if o.isClient then 128 else max 128 (o.numConnections * 2 % 2 ^ 32) := by
  obtain ⟨dest, opts, hparse⟩ := h
  have hrx : o.rxQueueLen = 128 := (parseOpts_queues hparse).1
  rw [Options.inForce]
  split
  · exact hrx
  · rw [Options.raiseQueueLens, hrx]

lemma Accepted.txQueueLen {o : Options} (h : Accepted o) :
    o.inForce.txQueueLen = if o.isClient then 128 else max 128 o.numConnections := by
  obtain ⟨dest, opts, hparse⟩ := h
  have htx : o.txQueueLen = 128 := (parseOpts_queues hparse).2
  rw [Options.inForce]
  split
  · exact htx
  · rw [Options.raiseQueueLens, htx]

lemma Accepted.rxQueueLen_lt {o : Options} (h : Accepted o) : o.inForce.rxQueueLen < 2 ^ 32 := by
  rw [h.rxQueueLen]
  split <;> omega

/-! ## The sends

Over RC each connection has a queue of its own and sends one FIN.  Over DC the initiators are
picked at random, and the assertion of `send_control` is on the one that was picked. -/

/-- The loop of `disconnect` that sends the FINs, from connection `i` on, for what `rand` and the
posts answer.  No completion is polled in between. -/
def sendFins (o : Options) : TestContext → ℕ → List (Fin numDci × Int) → Proc
  | ctx, i, [] => .sendFin ctx i
  | ctx, i, (rand, ret) :: answers =>
      match (sendFin o ctx i rand fun _ => ret).1 with
      | .sendFin ctx' i' => sendFins o ctx' i' answers
      | proc => proc

section Sends

variable {o : Options} {ctx : TestContext}

/-- One more FIN is under way, on one DCI at most. -/
structure FinSent (ctx ctx' : TestContext) : Prop where
  numConns : ctx'.numConns = ctx.numConns
  dcis : ctx'.dcis = ctx.dcis
  outstanding : ∀ d, ctx'.dciOutstanding d ≤ ctx.dciOutstanding d + 1

/-- **All `send_control` can do**, whatever the post answers. -/
inductive ControlCase (o : Options) (ctx : TestContext) (rand : Fin numDci) : Controlled → Prop
  | failed (ret : Int) (hret : ret ≠ 0) : ControlCase o ctx rand (.done ret none ctx)
  | sent (wr : ControlWr) (ctx' : TestContext) (h : FinSent ctx ctx') :
      ControlCase o ctx rand (.done 0 (some wr) ctx')
  | undefined : ControlCase o ctx rand (.stopped .undefined)
  | full (hdc : o.transport = .dc) (hfull : o.txQueueLen ≤ ctx.dciOutstanding rand) :
      ControlCase o ctx rand (.stopped .assertFailed)

lemma sendControl_case (o : Options) (ctx : TestContext) (conn type connIndex : ℕ)
    (rand : Fin numDci) (f : ControlWr → Int) :
    ControlCase o ctx rand (sendControl o ctx conn type connIndex rand f) := by
  rw [sendControl]
  cases hx : o.transport with
  | rc =>
      dsimp only
      split
      · exact ControlCase.failed (-1) (by decide)
      · exact ControlCase.sent _ ctx ⟨rfl, rfl, fun d => Nat.le_succ _⟩
  | dc =>
      dsimp only
      split
      · cases ctx.dcis rand with
        | none => exact ControlCase.undefined
        | some qp =>
            dsimp only
            split
            · exact ControlCase.failed (-1) (by decide)
            · refine ControlCase.sent _ _ ⟨rfl, rfl, fun d => ?_⟩
              dsimp only
              by_cases hd : d = rand
              · subst hd
                rw [Function.update_self]
                exact Nat.mod_le _ _
              · rw [Function.update_of_ne hd]
                exact Nat.le_succ _
      · rename_i hfull
        exact ControlCase.full hx (not_lt.mp hfull)

/-- **The sends fit** if a send queue has room for all of them. -/
theorem sendFins_ne_assertFailed : ∀ {answers : List (Fin numDci × Int)} {ctx : TestContext}
    {i : ℕ}, (o.transport = .dc → ctx.numConns ≤ o.txQueueLen) →
    (o.transport = .dc → i < ctx.numConns → ∀ d, ctx.dciOutstanding d ≤ i) →
    ∀ ctx', sendFins o ctx i answers ≠ .stopped ctx' .assertFailed
  | [], ctx, i, _, _, ctx' => by
      rw [sendFins]
      exact fun h => by cases h
  | (rand, ret) :: answers, ctx, i, hroom, hout, ctx' => by
      have hcase := sendControl_case o ctx i packetFin i rand fun _ => ret
      rw [sendFins, sendFin]
      by_cases hi : i < ctx.numConns
      · rw [if_pos hi]
        generalize sendControl o ctx i packetFin i rand (fun _ => ret) = result at hcase ⊢
        cases hcase with
        | failed r hr =>
            simp only [ne_eq, hr, not_false_eq_true, if_true]
            exact fun h => by cases h
        | sent wr ctx₁ hsent =>
            simp only [ne_eq, not_true_eq_false, if_false]
            refine sendFins_ne_assertFailed (fun hdc => ?_) (fun hdc _ d => ?_) ctx'
            · rw [hsent.numConns]
              exact hroom hdc
            · exact (hsent.outstanding d).trans (Nat.succ_le_succ (hout hdc hi d))
        | undefined => exact fun h => by cases h
        | full hdc hfull =>
            have := hroom hdc
            have := hout hdc hi rand
            omega
      · rw [if_neg hi]
        exact fun h => by cases h

/-- All FINs on one DCI: where they do not fit, the assertion fails. -/
lemma sendFins_one_dci (hdc : o.transport = .dc) {d : Fin numDci} {qp : Qp} :
    ∀ (left : ℕ) (ctx : TestContext) (i : ℕ), ctx.dcis d = some qp →
    ctx.dciOutstanding d + left = o.txQueueLen → o.txQueueLen < 2 ^ 32 → i + left < ctx.numConns →
    ∃ ctx', sendFins o ctx i (List.replicate (left + 1) (d, 0)) = .stopped ctx' .assertFailed
  | 0, ctx, i, hqp, hfull, htx, hi => by
      refine ⟨ctx, ?_⟩
      rw [List.replicate_succ, sendFins, sendFin, if_pos (by omega), sendControl, hdc]
      simp [show ¬ ctx.dciOutstanding d < o.txQueueLen by omega]
  | left + 1, ctx, i, hqp, hleft, htx, hi => by
      rw [List.replicate_succ, sendFins, sendFin, if_pos (by omega), sendControl, hdc]
      simp only [show ctx.dciOutstanding d < o.txQueueLen by omega, if_true, hqp, ne_eq,
        not_true_eq_false, if_false]
      refine sendFins_one_dci hdc left _ _ hqp ?_ htx ?_
      · dsimp only
        rw [Function.update_self, incr_of_lt (by omega)]
        omega
      · dsimp only
        omega

/-- **When the FINs fit**: over DC, from idle initiators, whatever `rand` picks, exactly if one
send queue has room for a FIN of every connection.  The worst case is the one in which `rand` picks
the first initiator every time. -/
theorem sendFins_ok_iff (hdc : o.transport = .dc) (htx : o.txQueueLen < 2 ^ 32)
    (hready : ctx.dcPool.Ready) :
    (∀ answers ctx', sendFins o ctx 0 answers ≠ .stopped ctx' .assertFailed) ↔
      ctx.numConns ≤ o.txQueueLen := by
  constructor
  · intro hok
    by_contra hlt
    obtain ⟨qp, hqp⟩ := Option.isSome_iff_exists.mp (hready.dcis 0)
    obtain ⟨ctx', hstop⟩ := sendFins_one_dci hdc o.txQueueLen ctx 0 hqp
      (by rw [show ctx.dciOutstanding 0 = 0 from hready.idle 0, Nat.zero_add]) htx (by omega)
    exact hok _ _ hstop
  · intro hroom answers ctx'
    exact sendFins_ne_assertFailed (fun _ => hroom) (fun _ _ d => (hready.idle d).le) ctx'

end Sends

/-! ## The result -/

/-- The contexts a process comes to `disconnect` with: a client with what its setup phase left, a
server with what its reads left. -/
inductive Disconnecting (o : Options) (ctx : TestContext) : TestContext → Prop
  | client (hclient : o.isClient) : Disconnecting o ctx ctx
  | server (hserver : ¬ o.isClient) (tr : List ReadEvent) (s : ReadSys)
      (hrun : ReadRun o.inForce ctx tr s) (hret : s.code.pc = .stopped (.ret 0)) :
      Disconnecting o ctx s.code.ctx

/-- The queues are large enough for the control messages of a process that set up `ctx` in `t`.
`sends` is about the send queue, where the code itself asserts that there was room; the other
clauses are about the receives, which lie inside the buffer, apart from each other, and are at
least as many as the connections. -/
structure QueuesSuffice (o : Options) (t : Trace) (ctx : TestContext) : Prop where
  sends : ∀ start, Disconnecting o ctx start → ∀ answers ctx',
    sendFins o.inForce start 0 answers ≠ .stopped ctx' .assertFailed
  inAll : (∃ ev ∈ cmEvents t, InitsTransport ev) → (receives t).length = o.inForce.rxQueueLen
  disjoint : (receives t).Pairwise fun a b => a + packetSize ≤ b
  inside : ∀ a ∈ receives t, ∃ size, Obtained t ctx.recvBuf.ptr size ∧
    ctx.recvBuf.ptr ≤ a ∧ a + packetSize ≤ ctx.recvBuf.ptr + size
  enough : ctx.numConns ≤ (receives t).length

section Result

variable {o : Options} {fuel : ℕ} {t : Trace} {ctx start : TestContext}

/-- Without an event that adds a connection there is none. -/
lemma numConns_of_none {evs : List CmEvent} {r : Roster} (h : ∀ ev ∈ evs, ¬ Adds o ev) :
    (evs.foldl (Roster.after o) r).numConns = r.numConns := by
  induction evs generalizing r with
  | nil => rfl
  | cons ev evs ih =>
      rw [List.foldl_cons, ih fun ev' hev => h ev' (List.mem_cons_of_mem _ hev)]
      have hev := h ev List.mem_cons_self
      rw [Roster.after]
      split
      · rename_i hty
        exact absurd (adds_connectRequest hty) hev
      · rename_i hty
        rw [if_neg fun hclient => hev (adds_established hty hclient)]
        rfl
      · rfl
      · rfl

/-- A process has a connection only once `init_transport` ran, if rdma_cm reports none as
established before. -/
lemma inits_of_numConns (h : Returns ((setup o fuel).run {}) t (0, ctx))
    (hcm : (∃ ev ∈ cmEvents t, ev.type = .established) → ∃ ev ∈ cmEvents t, InitsTransport ev)
    (hconns : ctx.numConns ≠ 0) : ∃ ev ∈ cmEvents t, InitsTransport ev := by
  by_contra hnone
  refine hconns ?_
  have hadds : ∀ ev ∈ cmEvents t, ¬ Adds o ev := by
    rintro ev hev (hty | ⟨hty, -⟩)
    · exact hnone ⟨ev, hev, Or.inl hty⟩
    · exact hnone (hcm ⟨ev, hev, hty⟩)
  have hroster : ctx.roster = _ := (setup_returns h).2.2.1
  exact (congrArg Roster.numConns hroster).trans (numConns_of_none hadds)

/-- A process comes to `disconnect` with all its connections. -/
lemma Disconnecting.numConns (hstart : Disconnecting o ctx start) :
    start.numConns = ctx.numConns := by
  cases hstart with
  | client hclient => rfl
  | server hserver tr s hrun hret => exact (between_of_return hrun hret).1.setup.numConns

/-- Over DC it comes there with idle initiators. -/
lemma Disconnecting.idle (h : Returns ((setup o fuel).run {}) t (0, ctx))
    (hinit : ∃ ev ∈ cmEvents t, InitsTransport ev) (hdc : o.transport = .dc)
    (hstart : Disconnecting o ctx start) (d : Fin numDci) : start.dciOutstanding d = 0 := by
  have hready := setup_ready hdc h hinit
  cases hstart with
  | client hclient => exact hready.idle d
  | server hserver tr s hrun hret =>
      have hsum := (poolInv_run (by rw [inForce_transport, hdc]) hready hrun).total
      rw [(between_of_return hrun hret).1.outstanding] at hsum
      exact (Finset.sum_eq_zero_iff.mp hsum.symm) d (Finset.mem_univ d)

/-- A send queue is as long as a receive queue, or has room for all connections. -/
lemma Accepted.numConns_le_txQueueLen (ho : Accepted o) (hconns : ctx.numConns ≤ o.numConnections)
    (hroom : ctx.numConns ≤ o.inForce.rxQueueLen) : ctx.numConns ≤ o.inForce.txQueueLen := by
  rw [ho.rxQueueLen] at hroom
  rw [ho.txQueueLen]
  split
  · rename_i hclient
    rwa [if_pos hclient] at hroom
  · omega

/-- **When the queues are large enough**: 128 connections on a client; on a server any number below
`2 ^ 31`, where the doubling does not wrap around.

What a client has are the 128 of the defaults, and nothing on its way raises them.  A server
doubles `num_connections` in 32 bits where that is more.  The receives that are posted are then as
many as `rx_queue_len`, once and for all (`receives_of_returns`), and one peer sends one FIN; of
the sends, all may fall on one initiator over DC.  So each condition comes down to the same
comparison. -/
theorem queuesSuffice_iff (o : Options) (fuel : ℕ) (t : Trace) (ctx : TestContext)
    (ho : Accepted o) (h : Returns ((setup o fuel).run {}) t (0, ctx))
    (hconns : ctx.numConns ≤ o.numConnections)
    (hcm : (∃ ev ∈ cmEvents t, ev.type = .established) → ∃ ev ∈ cmEvents t, InitsTransport ev) :
    QueuesSuffice o t ctx ↔
      ctx.numConns ≤ if o.isClient then 128 else max 128 (o.numConnections * 2 % 2 ^ 32) := by
  rw [← ho.rxQueueLen]
  have hmod := Nat.mod_eq_of_lt ho.rxQueueLen_lt
  obtain ⟨k, hreceives, hobtained, hall⟩ := receives_of_returns h
  rw [hmod] at hall
  have hlength : (receives t).length = k := by rw [hreceives, length_recvSlots]
  constructor
  · intro hok
    by_cases hzero : ctx.numConns = 0
    · omega
    · rw [← hok.inAll (inits_of_numConns h hcm hzero)]
      exact hok.enough
  · intro hroom
    exact {
      sends := by
        intro start hstart answers ctx'
        refine sendFins_ne_assertFailed (fun _ => ?_) (fun hdc hpos d => ?_) ctx'
        · rw [hstart.numConns]
          exact ho.numConns_le_txQueueLen hconns hroom
        · rw [hstart.numConns] at hpos
          rw [inForce_transport] at hdc
          exact (hstart.idle h (inits_of_numConns h hcm hpos.ne') hdc d).le
      inAll := fun hev => hlength.trans (hall hev)
      disjoint := by
        rw [hreceives]
        exact recvSlots_pairwise _ _
      inside := by
        intro a ha
        rw [hreceives] at ha
        have hk : k ≠ 0 := by
          rintro rfl
          rw [recvSlots_zero] at ha
          cases ha
        obtain ⟨size, hget, hle⟩ := hobtained hk
        obtain ⟨hlow, hhigh⟩ := recvSlots_inside ha
        exact ⟨size, hget, hlow, hhigh.trans (Nat.add_le_add_left hle _)⟩
      enough := by
        by_cases hzero : ctx.numConns = 0
        · rw [hzero]
          exact Nat.zero_le _
        · rw [hlength, hall (inits_of_numConns h hcm hzero)]
          exact hroom }

/-- A server with one connection. -/
theorem queuesSuffice_iff_oneConnection :
    ∃ t ctx, Returns ((setup gOptions 4).run {}) t (0, ctx) ∧ ctx.numConns = 1 ∧
      QueuesSuffice gOptions t ctx := by
  obtain ⟨t, ⟨ret, ctx⟩, hr, htest⟩ := exists_of_play obliging
    [eventFor .connectRequest 2, eventFor .established 2] ((setup gOptions 4).run {})
    (fun t r => decide (r.1 = 0) && (decide (r.2.numConns = 1) &&
      decide (∃ ev ∈ cmEvents t, InitsTransport ev))) (by decide +kernel)
  simp only [Bool.and_eq_true, decide_eq_true_eq] at htest
  obtain ⟨rfl, hone, hinit⟩ := htest
  refine ⟨t, ctx, hr, hone, (queuesSuffice_iff gOptions 4 t ctx ⟨none, [], rfl⟩ hr ?_
    fun _ => hinit).mpr ?_⟩
  · rw [hone]
    decide
  · rw [hone]
    decide

/-- A client that is started with `-x dc -n 129`. -/
def manyConnections : Options := { gOptions with
  destAddress := ['h']
  transport := .dc
  numConnections := 129
  numConnections_lt := by decide }

/-- Its 129 connections, one step of each after the other. -/
def manyEvents : List CmEvent :=
  List.replicate 129 (eventFor .addrResolved 2) ++ List.replicate 129 (eventFor .routeResolved 2) ++
    List.replicate 129 (eventFor .established 2)

/-- The client has 129 connections and 128 receives, and the assertion fails in the 129th send if
`rand` picks the same initiator each time. -/
theorem manyConnections_notSuffice : Accepted manyConnections ∧
    ∃ t ctx, Returns ((setup manyConnections 388).run {}) t (0, ctx) ∧
      ctx.numConns = manyConnections.numConnections ∧ (receives t).length = 128 ∧
      (∃ ctx', sendFins manyConnections.inForce ctx 0 (List.replicate 129 (0, 0))
        = .stopped ctx' .assertFailed) ∧
      ¬ QueuesSuffice manyConnections t ctx := by
  have haccepted : Accepted manyConnections :=
    ⟨some ['h'], [.x ['d', 'c'], .n ['1', '2', '9']], rfl⟩
  obtain ⟨t, ⟨ret, ctx⟩, hr, htest⟩ := exists_of_play obliging manyEvents
    ((setup manyConnections 388).run {})
    (fun t r => decide (r.1 = 0) && (decide (r.2.numConns = 129) &&
      decide (∃ ev ∈ cmEvents t, InitsTransport ev))) (by decide +kernel)
  simp only [Bool.and_eq_true, decide_eq_true_eq] at htest
  obtain ⟨rfl, hconns, hinit⟩ := htest
  have hready := setup_ready rfl hr hinit
  obtain ⟨qp, hqp⟩ := Option.isSome_iff_exists.mp (hready.dcis 0)
  have hstop : ∃ ctx', sendFins manyConnections.inForce ctx 0 (List.replicate 129 (0, 0))
      = .stopped ctx' .assertFailed := by
    refine sendFins_one_dci rfl 128 ctx 0 hqp ?_ (by decide) (by rw [hconns]; decide)
    rw [show ctx.dciOutstanding 0 = 0 from hready.idle 0]
    rfl
  refine ⟨haccepted, t, ctx, hr, hconns, ?_, hstop, fun hok => ?_⟩
  · obtain ⟨k, hreceives, -, hall⟩ := receives_of_returns hr
    rw [hreceives, length_recvSlots, hall hinit]
    rfl
  · obtain ⟨ctx', hctx⟩ := hstop
    exact hok.sends ctx (Disconnecting.client rfl) _ ctx' hctx

end Result

end RdmaFc
