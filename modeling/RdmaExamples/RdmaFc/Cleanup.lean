import RdmaExamples.RdmaFc.ControlQueues

/-!
# `cleanup_test`

What a run of `main` creates, and what `cleanup_test` releases at its end, from `rdma_fc.c`.

The calls of a run say what was created and what uses what (`created`, `uses`).  `cleanup_test`
looks only at the context, so `cleanupTest` is a function of it: a list, in the order of the
release.  A run (`RoleRun`) comes to it when the setup phase fails, when the reads fail, or when
`disconnect` returns.  The reads and `disconnect` create nothing and leave alone what is released,
so what counts is the end of the setup phase (`RoleRun.stages`).

`Resource` names what is created by the handle that the call returned, the queue pair of a
connection by the id that it hangs on, and the memory of a buffer by its address.  A release is a
list of resources, so that "once" and "before" are statements about a list.  `cleanup_test` drops
the return values of the calls that destroy, so that the list is the same whatever they answer.
-/

namespace RdmaFc

open MachineWords Programs

/-! ## Objects -/

/-- What a run creates and `cleanup_test` releases; `connQp` is the queue pair that `rdma_create_qp`
hangs on an id. -/
inductive Resource
  | eventChannel (h : Handle)
  | conns
  | cmId (id : Handle)
  | connQp (id : Handle)
  | qp (h : Handle)
  | ah (h : Handle)
  | dct (h : Handle)
  | srq (h : Handle)
  | cq (h : Handle)
  | mr (h : Handle)
  | buffer (ptr : ℕ)
  deriving DecidableEq

/-- What a call creates.  A request for a connection comes with the id of the new connection. -/
def created : Event Verb Reply → List Resource
  | ⟨.createEventChannel, r⟩ => r.toList.map .eventChannel
  | ⟨.callocConns _, r⟩ => r.toList.map fun _ => .conns
  | ⟨.createId _, r⟩ => if r.1 = 0 then [.cmId r.2] else []
  | ⟨.getCmEvent, r⟩ => if r.1 = 0 ∧ r.2.type = .connectRequest then [.cmId r.2.id] else []
  | ⟨.createCq .., r⟩ => r.toList.map .cq
  | ⟨.createSrq .., r⟩ => r.toList.map .srq
  | ⟨.memalign .., ptr⟩ => if ptr ≠ 0 then [.buffer ptr] else []
  | ⟨.regMr .., r⟩ => r.toList.map fun mr => .mr mr.handle
  | ⟨.createQp id _, ret⟩ => if ret = 0 then [.connQp id] else []
  | ⟨.createDct .., r⟩ => r.toList.map fun dct => .dct dct.handle
  | ⟨.expCreateQp .., r⟩ => r.toList.map fun qp => .qp qp.handle
  | ⟨.createAh .., r⟩ => r.toList.map .ah
  | _ => []

/-- The queues that an object is created with, each with the object that uses it. -/
def onQueues (user : Resource) (cq srq : Option Handle) : List (Resource × Resource) :=
  (cq.toList.map fun h => (user, .cq h)) ++ srq.toList.map fun h => (user, .srq h)

/-- What the objects that a call creates use, in pairs of the user and what it uses. -/
def uses : Event Verb Reply → List (Resource × Resource)
  | ⟨.regMr _ ptr _, r⟩ => r.toList.map fun mr => (.mr mr.handle, .buffer ptr)
  | ⟨.createQp id attr, ret⟩ =>
      if ret = 0 then (.connQp id, .cmId id) :: onQueues (.connQp id) attr.cq attr.srq else []
  | ⟨.createDct _ attr, r⟩ =>
      r.toList.flatMap fun dct => onQueues (.dct dct.handle) attr.cq attr.srq
  | ⟨.expCreateQp _ attr, r⟩ =>
      r.toList.flatMap fun qp => onQueues (.qp qp.handle) attr.cq attr.srq
  | _ => []

/-! ## `cleanup_test` -/

/-- `cleanup_buffer`. -/
def cleanupBuffer (buf : Buffer) : List Resource :=
  (if buf.ptr ≠ 0 then [.buffer buf.ptr] else []) ++ buf.mr.toList.map fun mr => .mr mr.handle

/-- The body of the loop over the connections. -/
def cleanupConn (c : Connection) : List Resource :=
  c.dcAh.toList.map .ah ++ if c.rdmaId ≠ 0 then [.cmId c.rdmaId] else []

/-- `cleanup_test` up to the buffers: the connections, the DCIs and the two queues. -/
def cleanupQueues (ctx : TestContext) : List Resource :=
  let conns : List Resource := (List.range ctx.numConns).flatMap fun i => cleanupConn (ctx.conns i)
  let dcis : List Resource := (List.finRange numDci).flatMap fun i =>
    (ctx.dcis i).toList.map fun qp => .qp qp.handle
  let srq : List Resource := ctx.srq.toList.map .srq
  let cq : List Resource := ctx.cq.toList.map .cq
  conns ++ (dcis ++ (srq ++ cq))

/-- `cleanup_test`: what it releases, in order. -/
def cleanupTest (ctx : TestContext) : List Resource :=
  let listen : List Resource := ctx.listenCmId.toList.map .cmId
  let eventCh : List Resource := ctx.eventCh.toList.map .eventChannel
  cleanupQueues ctx ++ (cleanupBuffer ctx.rdmaBuf ++ (cleanupBuffer ctx.recvBuf ++
    (listen ++ (.conns :: eventCh))))

/-- Where an object is released, its users were released before. -/
def InOrder (t : Trace) (released : List Resource) : Prop :=
  ∀ e ∈ t, ∀ p ∈ uses e, ∀ l₁ l₂, released = l₁ ++ p.2 :: l₂ → p.1 ∈ l₁

/-- `cleanup_test` releases what the run created, each object once, and in order. -/
structure Released (t : Trace) (ctx : TestContext) : Prop where
  once : (t.flatMap created).Perm (cleanupTest ctx)
  inOrder : InOrder t (cleanupTest ctx)

/-! ## Runs -/

/-- The mask `disconnect` waits with. -/
def disconnectMask : BitVec 64 := bit CmEventType.disconnected.number

/-- One step of `disconnect`; a call may return anything. -/
inductive DisconnectStep (o : Options) : Proc → Trace → Proc → Prop
  | sendFin (ctx : TestContext) (i : ℕ) (rand : Fin numDci) (ibvPostSend : ControlWr → Int) :
      DisconnectStep o (.sendFin ctx i) [] (sendFin o ctx i rand ibvPostSend).1
  | finTest (ctx : TestContext) : DisconnectStep o (.finTest ctx) [] (finTest o ctx)
  | finPoll (ctx : TestContext) (answer : Polled) :
      DisconnectStep o (.finPoll ctx) [] (finPoll o ctx answer)
  | rdmaDisconnect (ctx : TestContext) (i : ℕ) (ret : Int) (hi : i < ctx.numConns) :
      DisconnectStep o (.disconnecting ctx i) []
        (if ret ≠ 0 then .failed ctx else .disconnecting ctx (i + 1))
  | disconnected (ctx : TestContext) (i : ℕ) (hi : ¬ i < ctx.numConns) :
      DisconnectStep o (.disconnecting ctx i) [] (.discTest ctx)
  | discTest (ctx : TestContext) : DisconnectStep o (.discTest ctx) [] (discTest ctx)
  | discEvent (ctx ctx' : TestContext) (t : Trace) (ret : Int)
      (h : Returns ((waitAndProcessOneEvent o disconnectMask).run ctx) t (ret, ctx')) :
      DisconnectStep o (.discEvent ctx) t (if ret ≠ 0 then .failed ctx' else .discTest ctx')

/-- A run of `disconnect`. -/
inductive Disconnects (o : Options) : Proc → Trace → Proc → Prop
  | refl (p : Proc) : Disconnects o p [] p
  | step {p p' p'' : Proc} {t t' : Trace} (h : DisconnectStep o p t p')
      (hrest : Disconnects o p' t' p'') : Disconnects o p (t ++ t') p''

/-- A first step that is known. -/
lemma Disconnects.head {o : Options} {p p' q r : Proc} {t t' : Trace}
    (h : DisconnectStep o p t p') (hp : p' = q) (hrest : Disconnects o q t' r) :
    Disconnects o p (t ++ t') r :=
  Disconnects.step h (hp ▸ hrest)

/-- A run of `main` that comes to `cleanup_test`, with the calls it made and the context it comes
with: the setup phase fails, the reads fail, or `disconnect` returns. -/
inductive RoleRun (o : Options) (fuel : ℕ) : Trace → TestContext → Prop
  | setupFails (t₁ t₂ : Trace) (s ctx : TestContext) (ret : Int)
      (hinit : Returns ((initTest o).run {}) t₁ (0, s))
      (hsetup : Returns ((roleSetup o fuel).run s) t₂ (ret, ctx)) (hret : ret ≠ 0) :
      RoleRun o fuel (t₁ ++ t₂) ctx
  | readsFail (t₁ t₂ : Trace) (s ctx : TestContext) (ret : Int) (tr : List ReadEvent) (r : ReadSys)
      (hinit : Returns ((initTest o).run {}) t₁ (0, s))
      (hsetup : Returns ((roleSetup o fuel).run s) t₂ (0, ctx)) (hserver : ¬ o.isClient)
      (hrun : ReadRun o.inForce ctx tr r) (hstop : r.code.pc = .stopped (.ret ret))
      (hret : ret ≠ 0) : RoleRun o fuel (t₁ ++ t₂) r.code.ctx
  | disconnects (t₁ t₂ t₃ : Trace) (s ctx start ctx' : TestContext) (p : Proc)
      (hinit : Returns ((initTest o).run {}) t₁ (0, s))
      (hsetup : Returns ((roleSetup o fuel).run s) t₂ (0, ctx)) (hstart : Disconnecting o ctx start)
      (hrun : Disconnects o.inForce (.sendFin start 0) t₃ p)
      (hend : p = .failed ctx' ∨ p = .cleanup ctx') : RoleRun o fuel (t₁ ++ (t₂ ++ t₃)) ctx'

/-- The call begins a connection: a client gets an id for it, or a request for one is taken. -/
def begins (o : Options) : Event Verb Reply → Bool
  | ⟨.createId _, r⟩ => o.isClient && decide (r.1 = 0)
  | ⟨.getCmEvent, r⟩ => decide (r.1 = 0) && decide (r.2.type = .connectRequest)
  | _ => false

/-! ## What the reads and `disconnect` leave alone

Both change offsets and counters, and which initiators are free.  None of that is looked at by
`cleanup_test`, so that its list is the same as at the end of the setup phase. -/

/-- What `cleanup_test` looks at. -/
def TestContext.objects (s : TestContext) : (ℕ → Handle × Option Handle) × ℕ ×
    (Fin numDci → Option Qp) × Option Handle × Option Handle × Buffer × Buffer × Option Handle ×
    Option Handle :=
  (fun i => ((s.conns i).rdmaId, (s.conns i).dcAh), s.numConns, s.dcis, s.srq, s.cq, s.rdmaBuf,
    s.recvBuf, s.listenCmId, s.eventCh)

section Later

variable {o : Options} {s s' ctx ctx' : TestContext} {t : Trace} {p p' : Proc}

lemma cleanupTest_of_objects (h : s'.objects = s.objects) : cleanupTest s' = cleanupTest s := by
  simp only [TestContext.objects, Prod.mk.injEq] at h
  obtain ⟨hconns, hnum, hdcis, hsrq, hcq, hrdma, hrecv, hlisten, hch⟩ := h
  have hconn : ∀ i, cleanupConn (s'.conns i) = cleanupConn (s.conns i) := by
    intro i
    obtain ⟨hid, hah⟩ := Prod.mk.inj (congrFun hconns i)
    rw [cleanupConn, hid, hah, cleanupConn]
  simp only [cleanupTest, cleanupQueues, hconn, hnum, hdcis, hsrq, hcq, hrdma, hrecv, hlisten,
    hch]

lemma readPosted_objects (conn length : ℕ) :
    (ctx.readPosted conn length).objects = ctx.objects := by
  have hconns : (fun i => (((ctx.readPosted conn length).conns i).rdmaId,
      ((ctx.readPosted conn length).conns i).dcAh))
      = fun i => ((ctx.conns i).rdmaId, (ctx.conns i).dcAh) := by
    funext i
    by_cases hi : i = conn
    · subst hi
      simp [TestContext.readPosted, TestContext.setConn]
    · simp [TestContext.readPosted, TestContext.setConn, hi]
  rw [TestContext.objects, hconns]
  rfl

lemma resetOffsets_objects : ctx.resetOffsets.objects = ctx.objects := by
  have hconns : (fun i => ((ctx.resetOffsets.conns i).rdmaId, (ctx.resetOffsets.conns i).dcAh))
      = fun i => ((ctx.conns i).rdmaId, (ctx.conns i).dcAh) := by
    funext i
    simp only [TestContext.resetOffsets]
    split <;> rfl
  rw [TestContext.objects, hconns]
  rfl

lemma ReadStep.objects_eq {r r' : ReadSys} {es : List ReadEvent} (h : ReadStep o r es r') :
    r'.code.ctx.objects = r.code.ctx.objects := by
  cases h with
  | enter => exact resetOffsets_objects
  | post conn rest mr queue =>
      cases queue with
      | rc id => exact readPosted_objects _ _
      | dci d qpNum => exact readPosted_objects _ _
  | complete k r freed =>
      cases freed with
      | none => rfl
      | some d => rfl
  | _ => rfl

/-- **The reads** leave alone what is cleaned up. -/
theorem readRun_objects {tr : List ReadEvent} {r : ReadSys} (h : ReadRun o ctx tr r) :
    r.code.ctx.objects = ctx.objects :=
  h.invariant (I := fun _ r => r.code.ctx.objects = ctx.objects) rfl
    fun _ _ _ _ _ ih _ hs => (nextRead_step hs).objects_eq.trans ih

lemma Disconnecting.objects_eq {start : TestContext} (h : Disconnecting o ctx start) :
    start.objects = ctx.objects := by
  cases h with
  | client => rfl
  | server hserver tr s hrun => exact readRun_objects hrun

lemma sendControl_objects {conn type connIndex : ℕ} {rand : Fin numDci} {f : ControlWr → Int}
    {ret : Int} {wr : Option ControlWr}
    (h : sendControl o ctx conn type connIndex rand f = .done ret wr ctx') :
    ctx'.objects = ctx.objects := by
  rw [sendControl] at h
  cases hx : o.transport with
  | rc =>
      simp only [hx] at h
      split at h <;> (cases h; rfl)
  | dc =>
      simp only [hx] at h
      split at h
      · cases hqp : ctx.dcis rand with
        | none => simp [hqp] at h
        | some qp =>
            simp only [hqp] at h
            split at h <;> (cases h; rfl)
      · simp at h

lemma sendFin_objects (i : ℕ) (rand : Fin numDci) (f : ControlWr → Int) :
    (sendFin o ctx i rand f).1.ctx.objects = ctx.objects := by
  rw [sendFin]
  split
  · split
    · rfl
    · rename_i ret wr ctx' hdone
      split <;> exact sendControl_objects hdone
  · rfl

lemma dcSendCompletion_objects {wc : Wc} {ret : Int}
    (h : dcSendCompletion ctx wc = .done ret ctx') : ctx'.objects = ctx.objects := by
  obtain ⟨d, -, -, rfl⟩ := dcSendCompletion_cases h
  rfl

lemma finPoll_objects (answer : Polled) : (finPoll o ctx answer).ctx.objects = ctx.objects := by
  have hpoll : ∀ {ret : Int} {ctx' : TestContext}, pollCq o ctx answer = .done ret ctx' →
      ctx'.objects = ctx.objects := by
    intro ret ctx' h
    cases answer with
    | error n => cases h; rfl
    | empty => cases h; rfl
    | wc w =>
        simp only [pollCq, processWc] at h
        split at h
        · cases h
          rfl
        · split at h
          · split at h <;> (cases h; rfl)
          · split at h
            · exact (dcSendCompletion_objects h).trans rfl
            · cases h
              rfl
          · split at h
            · exact (dcSendCompletion_objects h).trans rfl
            · cases h
              rfl
          · cases h
            rfl
  rw [finPoll]
  split
  · rfl
  · rename_i ret ctx' hdone
    split <;> exact hpoll hdone

/-- A call of the event channel. -/
def ChannelCall : Verb → Prop
  | .getCmEvent => True
  | .ackCmEvent => True
  | _ => False

/-- An event that a process has done with its setup for is only counted. -/
lemma processEvent_counts {ev : CmEvent}
    (hty : ev.type = .disconnected ∨ ev.type = .established ∧ ¬ o.isClient) :
    Keeps TestContext.objects ChannelCall (processEvent o ev) := by
  rw [processEvent]
  rcases hty with hty | ⟨hty, hserver⟩
  · rw [hty]
    exact Keeps.bind (Keeps.modify fun _ => rfl) fun _ => Keeps.pure _
  · rw [hty]
    refine Keeps.bind ?_ fun ret => Keeps.pure _
    rw [handleEstablished, if_neg hserver]
    exact Keeps.bind (Keeps.modify fun _ => rfl) fun _ => Keeps.pure _

/-- A call of `wait_and_process_one_event` that can only count. -/
lemma waitAndProcessOneEvent_counts {mask : BitVec 64} {ret : Int}
    (hmask : ∀ ev ∈ cmEvents t, Admits mask ev.type →
      ev.type = .disconnected ∨ ev.type = .established ∧ ¬ o.isClient)
    (h : Returns ((waitAndProcessOneEvent o mask).run s) t (ret, s')) :
    s'.objects = s.objects ∧ ∀ e ∈ t, ChannelCall e.1 := by
  cases waitAndProcessOneEvent_oneEvent h with
  | none r => exact ⟨rfl, List.forall_mem_singleton.mpr trivial⟩
  | refused ev a =>
      exact ⟨rfl, List.forall_mem_cons.mpr ⟨trivial, List.forall_mem_singleton.mpr trivial⟩⟩
  | unacked ev t ret s' hadmits h =>
      have hkeeps := processEvent_counts (hmask ev (mem_cmEvents_taken ev t) hadmits)
      exact ⟨hkeeps.state _ _ _ _ h,
        List.forall_mem_cons.mpr ⟨trivial, hkeeps.calls _ _ h.canDo⟩⟩
  | acked ev t ret a s' hadmits h =>
      have hkeeps := processEvent_counts (hmask ev (mem_cmEvents_taken ev _) hadmits)
      refine ⟨hkeeps.state _ _ _ _ h, List.forall_mem_cons.mpr ⟨trivial, ?_⟩⟩
      exact List.forall_mem_append.mpr
        ⟨hkeeps.calls _ _ h.canDo, List.forall_mem_singleton.mpr trivial⟩

lemma admits_disconnectMask {e : CmEventType} : Admits disconnectMask e ↔ e = .disconnected := by
  cases e <;> decide

lemma DisconnectStep.objects_eq (h : DisconnectStep o p t p') :
    p'.ctx.objects = p.ctx.objects ∧ ∀ e ∈ t, ChannelCall e.1 := by
  cases h with
  | sendFin ctx i rand f => exact ⟨sendFin_objects i rand f, by simp⟩
  | finTest ctx =>
      refine ⟨?_, by simp⟩
      rw [RdmaFc.finTest]
      split
      · rfl
      · split <;> rfl
  | finPoll ctx answer => exact ⟨finPoll_objects answer, by simp⟩
  | rdmaDisconnect ctx i ret => exact ⟨by split <;> rfl, by simp⟩
  | disconnected ctx i => exact ⟨rfl, by simp⟩
  | discTest ctx =>
      refine ⟨?_, by simp⟩
      rw [RdmaFc.discTest]
      split <;> rfl
  | discEvent ctx ctx' t ret h =>
      obtain ⟨hobjects, hcalls⟩ := waitAndProcessOneEvent_counts
        (fun ev _ hadmits => Or.inl (admits_disconnectMask.mp hadmits)) h
      exact ⟨by split <;> exact hobjects, hcalls⟩

/-- **`disconnect`** leaves alone what is cleaned up, and only waits for events. -/
theorem Disconnects.objects_eq (h : Disconnects o p t p') :
    p'.ctx.objects = p.ctx.objects ∧ ∀ e ∈ t, ChannelCall e.1 := by
  induction h with
  | refl p => exact ⟨rfl, by simp⟩
  | step h _ ih =>
      obtain ⟨hobjects, hcalls⟩ := h.objects_eq
      exact ⟨ih.1.trans hobjects, List.forall_mem_append.mpr ⟨hcalls, ih.2⟩⟩

/-- What a run comes to `cleanup_test` with was there at the end of its setup phase, and no more was
created than with the requests it turned away. -/
structure RoleStages (o : Options) (fuel : ℕ) (t : Trace) (ctx : TestContext) (t₁ t₂ t₃ : Trace)
    (s ctx₀ : TestContext) (ret : Int) : Prop where
  trace : t = t₁ ++ (t₂ ++ t₃)
  init : Returns ((initTest o).run {}) t₁ (0, s)
  setup : Returns ((roleSetup o fuel).run s) t₂ (ret, ctx₀)
  objects : ctx.objects = ctx₀.objects
  later : ∀ e ∈ t₃, ChannelCall e.1

theorem RoleRun.stages {fuel : ℕ} (h : RoleRun o fuel t ctx) :
    ∃ t₁ t₂ t₃ s ctx₀ ret, RoleStages o fuel t ctx t₁ t₂ t₃ s ctx₀ ret := by
  cases h with
  | setupFails t₁ t₂ s _ ret hinit hsetup =>
      exact ⟨t₁, t₂, [], s, ctx, ret, by simp, hinit, hsetup, rfl, by simp⟩
  | readsFail t₁ t₂ s ctx₀ ret tr r hinit hsetup _ hrun =>
      exact ⟨t₁, t₂, [], s, ctx₀, 0, by simp, hinit, hsetup, readRun_objects hrun, by simp⟩
  | disconnects t₁ t₂ t₃ s ctx₀ start _ p hinit hsetup hstart hrun hend =>
      obtain ⟨hobjects, hcalls⟩ := hrun.objects_eq
      refine ⟨t₁, t₂, t₃, s, ctx₀, 0, rfl, hinit, hsetup, ?_, hcalls⟩
      rw [← hstart.objects_eq]
      rcases hend with rfl | rfl <;> exact hobjects

end Later

end RdmaFc
