import RdmaExamples.Library.Runs
import RdmaExamples.Library.Tiling
import RdmaExamples.RdmaFc.Context

/-!
# The read phase

`post_rdma_read`, `dc_send_completion`, `poll_cq` and `do_rdma_reads`, from `rdma_fc.c`, and the
device they run against.

The functions are translated one by one.  What a verbs call answers is an argument: the return
value of `ibv_post_send`, the result of `ibv_poll_cq`.  `do_rdma_reads` is cut at its loop tests
and its two calls (`ReadPc`), so that the device can act in between.

`ReadSys` adds the device: the reads it has accepted and not yet reported.  It reports them in any
order, each exactly once, refuses any post it likes, and mixes in received packets.  `ReadEvent`
is what happens on the wire: a read is posted, a read completes.

`ReadStep` lists what a choice can do, one constructor for each part of the loop, and
`nextRead_step` says that the list is complete.  The invariants of the read phase are case analyses
over it and never unfold the loop.  A step that stops the phase is one constructor for all the ways
in which that happens, since the invariants ask nothing of a phase that stopped short.

The counters wrap as in C.  Where an invariant bounds one, the lemmas of `MachineWords` give plain
addition back.
-/

namespace RdmaFc

open MachineWords

/-! ## Calls and their answers -/

/-- How a function of the read phase ends the process or the phase: it returns, an `assert` fails,
or it does what C leaves undefined. -/
inductive Stop
  | ret (r : Int)
  | assertFailed
  | undefined
  deriving DecidableEq

/-- The queue pair a work request is posted on: the connection's own, or a DCI. -/
inductive SendQueue
  | rc (rdmaId : Handle)
  | dci (index : Fin numDci) (qpNum : ℕ)

/-- The work request of an RDMA read, as `post_rdma_read` fills it in. -/
structure SendWr where
  queue : SendQueue
  wrId : ℕ
  addr : ℕ
  length : ℕ
  lkey : ℕ
  remoteAddr : ℕ
  rkey : ℕ
  dcAh : Option Handle
  dctNumber : ℕ

/-- The result of a function that may stop the process: its return value and the new context, with
the work request it handed over, if it did. -/
inductive Posted
  | done (ret : Int) (wr : Option SendWr) (ctx : TestContext)
  | stopped (s : Stop)

/-- `wc.opcode`, with the packet a receive points to. -/
inductive WcOpcode
  | recv (packet : Packet)
  | send
  | rdmaRead
  | other
  deriving DecidableEq

/-- `struct ibv_wc`. -/
structure Wc where
  success : Bool := true
  opcode : WcOpcode
  wrId : ℕ := 0
  qpNum : ℕ := 0

/-- What `ibv_poll_cq(cq, 1, &wc)` answers: a negative value, nothing, or one completion. -/
inductive Polled
  | error (n : ℕ)
  | empty
  | wc (w : Wc)

/-- The result of `poll_cq`. -/
inductive PollResult
  | done (ret : Int) (ctx : TestContext)
  | stopped (s : Stop)

/-! ## `post_rdma_read` -/

/-- The work request, for a queue and a `wr_id`. -/
def readWr (ctx : TestContext) (mr : Mr) (conn offset length : ℕ) (queue : SendQueue)
    (wrId : ℕ) : SendWr where
  queue := queue
  wrId := wrId
  addr := (ctx.rdmaBuf.ptr + offset) % 2 ^ 64
  length := length % 2 ^ 32
  lkey := mr.lkey
  remoteAddr := ((ctx.conns conn).remoteAddr + offset) % 2 ^ 64
  rkey := (ctx.conns conn).rkey
  dcAh := (ctx.conns conn).dcAh
  dctNumber := (ctx.conns conn).remoteDctn

/-- `post_rdma_read`.  A work request in the result stands for `*posted = 1`. -/
def postRdmaRead (o : Options) (ctx : TestContext) (conn offset length : ℕ)
    (ibvPostSend : SendWr → Int) : Posted :=
  match ctx.rdmaBuf.mr with
  | none => .stopped .undefined
  | some mr =>
      match o.transport with
      | .rc =>
          let wr := readWr ctx mr conn offset length (.rc (ctx.conns conn).rdmaId) 0
          let ret := ibvPostSend wr
          if ret ≠ 0 then .done ret none ctx
          else .done 0 (some wr) (ctx.readPosted conn length)
      | .dc =>
          if ctx.freeDciBitmap = 0 then .done 0 none ctx
          else
            -- the assert reads dci_outstanding[dci], so an index past the array is undefined
            if h : ffsl ctx.freeDciBitmap - 1 < numDci then
              let dci : Fin numDci := ⟨ffsl ctx.freeDciBitmap - 1, h⟩
              if ctx.dciOutstanding dci ≠ 0 then .stopped .assertFailed
              else
                match ctx.dcis dci with
                | none => .stopped .undefined
                | some qp =>
                    let wr := readWr ctx mr conn offset length (.dci dci qp.qpNum) dci
                    let ret := ibvPostSend wr
                    if ret ≠ 0 then .done ret none ctx
                    else .done 0 (some wr) ((ctx.takeDci dci).readPosted conn length)
            else .stopped .undefined

/-- The context after a read is posted on `queue`. -/
def TestContext.afterPost (ctx : TestContext) (queue : SendQueue) (conn length : ℕ) : TestContext :=
  match queue with
  | .rc _ => ctx.readPosted conn length
  | .dci d _ => (ctx.takeDci d).readPosted conn length

section AfterPost

variable (ctx : TestContext) (queue : SendQueue) (conn length j : ℕ)

@[simp] lemma afterPost_numConns : (ctx.afterPost queue conn length).numConns = ctx.numConns := by
  cases queue <;> rfl
@[simp] lemma afterPost_rdmaBuf : (ctx.afterPost queue conn length).rdmaBuf = ctx.rdmaBuf := by
  cases queue <;> rfl
@[simp] lemma afterPost_dcis : (ctx.afterPost queue conn length).dcis = ctx.dcis := by
  cases queue <;> rfl
@[simp] lemma afterPost_numOutstandingReads :
    (ctx.afterPost queue conn length).numOutstandingReads = incr 64 ctx.numOutstandingReads := by
  cases queue <;> rfl
@[simp] lemma afterPost_remoteAddr :
    ((ctx.afterPost queue conn length).conns j).remoteAddr = (ctx.conns j).remoteAddr := by
  cases queue <;> simp [TestContext.afterPost]
lemma afterPost_readOffset : ((ctx.afterPost queue conn length).conns j).readOffset
    = if j = conn then ((ctx.conns conn).readOffset + length) % 2 ^ 64
      else (ctx.conns j).readOffset := by
  cases queue <;> simp [TestContext.afterPost, TestContext.readPosted_readOffset]

end AfterPost

/-- The queue and the `wr_id` are the ones `post_rdma_read` picks in `ctx`: the connection's own
queue pair, or the lowest DCI whose bit is set, which has nothing outstanding. -/
def QueueFor (o : Options) (ctx : TestContext) : SendQueue → ℕ → Prop
  | .rc _, wrId => o.transport = .rc ∧ wrId = 0
  | .dci d qpNum, wrId => o.transport = .dc ∧ wrId = d ∧ ffsl ctx.freeDciBitmap = d + 1 ∧
      ctx.dciOutstanding d = 0 ∧ ∃ qp, ctx.dcis d = some qp ∧ qp.qpNum = qpNum

/-- **All `post_rdma_read` can do** when it returns: nothing, or hand over one work request for
exactly the segment it was given and count it. -/
theorem postRdmaRead_cases {o : Options} {ctx ctx' : TestContext} {conn offset length : ℕ}
    {f : SendWr → Int} {ret : Int} {wr : Option SendWr}
    (h : postRdmaRead o ctx conn offset length f = .done ret wr ctx') :
    (wr = none ∧ ctx' = ctx) ∨
    (ret = 0 ∧ ∃ mr queue wrId, QueueFor o ctx queue wrId ∧
      wr = some (readWr ctx mr conn offset length queue wrId) ∧
      ctx' = ctx.afterPost queue conn length) := by
  rw [postRdmaRead] at h
  split at h
  · exact absurd h (by simp)
  · rename_i mr _
    split at h
    case h_1 hx =>
      dsimp only at h
      split at h
      · simp only [Posted.done.injEq] at h
        exact Or.inl ⟨h.2.1.symm, h.2.2.symm⟩
      · simp only [Posted.done.injEq] at h
        refine Or.inr ⟨h.1.symm, mr, _, _, ?_, h.2.1.symm, h.2.2.symm⟩
        exact ⟨hx, rfl⟩
    case h_2 hx =>
      split at h
      · simp only [Posted.done.injEq] at h
        exact Or.inl ⟨h.2.1.symm, h.2.2.symm⟩
      · rename_i hmap
        obtain ⟨d, hd⟩ := exists_ffsl hmap
        split at h
        · dsimp only at h
          split at h
          · exact absurd h (by simp)
          · rename_i hfree
            split at h
            · exact absurd h (by simp)
            · rename_i qp hqp
              split at h
              · simp only [Posted.done.injEq] at h
                exact Or.inl ⟨h.2.1.symm, h.2.2.symm⟩
              · simp only [Posted.done.injEq] at h
                refine Or.inr ⟨h.1.symm, mr, _, _, ?_, h.2.1.symm, h.2.2.symm⟩
                refine ⟨hx, rfl, ?_, not_not.mp hfree, qp, hqp, rfl⟩
                simp only [hd, Nat.add_sub_cancel]
        · exact absurd h (by simp)

/-! ## `poll_cq` -/

/-- `dc_send_completion`. -/
def dcSendCompletion (ctx : TestContext) (wc : Wc) : PollResult :=
  if h : wc.wrId < numDci then
    match ctx.dcis ⟨wc.wrId, h⟩ with
    | none => .stopped .undefined
    | some qp =>
        if wc.qpNum ≠ qp.qpNum then .stopped .assertFailed
        else .done 0 (ctx.releaseDci ⟨wc.wrId, h⟩)
  else .stopped .undefined

/-- The part of `poll_cq` after a successful `ibv_poll_cq`. -/
def processWc (o : Options) (ctx : TestContext) (wc : Wc) : PollResult :=
  if wc.success = false then .done (-1) ctx
  else
    match wc.opcode with
    | .recv packet =>
        if packet.type = packetFin then
          .done 0 { ctx with numFinRecvd := incr 32 ctx.numFinRecvd }
        else .done 0 ctx
    | .send =>
        match o.transport with
        | .dc => dcSendCompletion ctx wc
        | .rc => .done 0 ctx
    | .rdmaRead =>
        let ctx' := { ctx with numOutstandingReads := decr 64 ctx.numOutstandingReads }
        match o.transport with
        | .dc => dcSendCompletion ctx' wc
        | .rc => .done 0 ctx'
    | .other => .done (-1) ctx

/-- `poll_cq`. -/
def pollCq (o : Options) (ctx : TestContext) : Polled → PollResult
  | .error n => .done (-(n + 1 : ℕ)) ctx
  | .empty => .done 0 ctx
  | .wc w => processWc o ctx w

/-- What `dc_send_completion` leaves alone. -/
theorem dcSendCompletion_cases {ctx ctx' : TestContext} {wc : Wc} {ret : Int}
    (h : dcSendCompletion ctx wc = .done ret ctx') :
    ∃ d : Fin numDci, (d : ℕ) = wc.wrId ∧ ret = 0 ∧ ctx' = ctx.releaseDci d := by
  rw [dcSendCompletion] at h
  split at h
  · split at h
    · exact absurd h (by simp)
    · split at h
      · exact absurd h (by simp)
      · simp only [PollResult.done.injEq] at h
        exact ⟨⟨wc.wrId, _⟩, rfl, h.1.symm, h.2.symm⟩
  · exact absurd h (by simp)

/-! ## `do_rdma_reads` -/

/-- Where `do_rdma_reads` stands: at the test of the outer loop, at the test of the inner one,
before the part that may post, before `poll_cq`, or stopped. -/
inductive ReadPc
  | forTest
  | whileTest
  | post
  | poll
  | stopped (s : Stop)
  deriving DecidableEq

/-- The local variables of `do_rdma_reads`, with the context; `sched` is the schedule list. -/
structure ReadState where
  ctx : TestContext
  sched : List ℕ
  iter : ℕ
  pc : ReadPc

/-- The start: `LIST_HEAD(sched)`, no read outstanding. -/
def startReads (ctx : TestContext) : ReadState where
  ctx := { ctx with numOutstandingReads := 0 }
  sched := []
  iter := 0
  pc := .forTest

/-- The test of the outer loop, with the loop that fills the schedule list or, past the last
iteration, with the check that everything was read. -/
def forTest (o : Options) (s : ReadState) : ReadState :=
  if s.iter < o.numIterations then
    { s with
      ctx := s.ctx.resetOffsets
      sched := s.sched ++ List.range s.ctx.numConns
      pc := .whileTest }
  else if ∀ i < s.ctx.numConns, (s.ctx.conns i).readOffset = o.rdmaReadSize then
    { s with pc := .stopped (.ret 0) }
  else { s with pc := .stopped .assertFailed }

/-- The test of the inner loop. -/
def whileTest (s : ReadState) : ReadState :=
  if s.ctx.numOutstandingReads ≠ 0 ∨ s.sched ≠ [] then { s with pc := .post }
  else { s with iter := incr 32 s.iter, pc := .forTest }

/-- How many bytes the next read of a connection asks for:
`MIN(max_read_size, rdma_read_size - read_offset)`. -/
def nextSize (o : Options) (ctx : TestContext) (conn : ℕ) : ℕ :=
  min o.maxReadSize (subWrap 64 o.rdmaReadSize (ctx.conns conn).readOffset)

/-- The first half of the inner loop's body: take the head of the schedule list, post its next
segment, and put it back at the tail, at the head, or not at all. -/
def postPart (o : Options) (s : ReadState) (ibvPostSend : SendWr → Int) :
    ReadState × Option (ℕ × ℕ × SendWr) :=
  match s.sched with
  | [] => ({ s with pc := .poll }, none)
  | conn :: rest =>
      if s.ctx.numOutstandingReads < o.maxOutstandingReads then
        let offset := (s.ctx.conns conn).readOffset
        let size := nextSize o s.ctx conn
        if size = 0 then ({ s with sched := rest, pc := .stopped .assertFailed }, none)
        else
          match postRdmaRead o s.ctx conn offset size ibvPostSend with
          | .stopped r => ({ s with sched := rest, pc := .stopped r }, none)
          | .done ret wr ctx' =>
              if ret < 0 then
                ({ s with ctx := ctx', sched := rest, pc := .stopped (.ret ret) }, none)
              else
                match wr with
                | some wr =>
                    ({ s with
                        ctx := ctx'
                        sched := if (ctx'.conns conn).readOffset < o.rdmaReadSize
                          then rest ++ [conn] else rest
                        pc := .poll }, some (conn, offset, wr))
                | none => ({ s with ctx := ctx', sched := conn :: rest, pc := .poll }, none)
      else ({ s with pc := .poll }, none)

/-- The second half of the body: `poll_cq`. -/
def pollPart (o : Options) (s : ReadState) (answer : Polled) : ReadState :=
  match pollCq o s.ctx answer with
  | .stopped r => { s with pc := .stopped r }
  | .done ret ctx' =>
      if ret ≠ 0 then { s with ctx := ctx', pc := .stopped (.ret ret) }
      else { s with ctx := ctx', pc := .whileTest }

/-! ## The device

A read that was posted is pending until it completes, in any order; and a choice says whether a
post is taken.  That is all that is assumed of the device. -/

/-- A read the device accepted: the iteration, the connection and the offset it was posted for,
the work request, and a number that tells it from every other read. -/
structure PostedRead where
  id : ℕ
  iter : ℕ
  conn : ℕ
  offset : ℕ
  wr : SendWr

/-- What happens on the wire. -/
inductive ReadEvent
  | posted (r : PostedRead)
  | completed (r : PostedRead)

/-- The read phase with its device. -/
structure ReadSys where
  code : ReadState
  pending : List PostedRead
  nextId : ℕ

/-- What the device decides: the return value of a post, and what a poll finds. -/
inductive ReadChoice
  | tick
  | post (ret : Int)
  | pollError (n : ℕ)
  | pollEmpty
  | pollFailed (opcode : WcOpcode)
  | pollRecv (packet : Packet)
  | pollRead (k : ℕ)
  deriving DecidableEq

/-- The completion of a read: it carries the `wr_id` and the queue pair the read was posted with. -/
def readWc (r : PostedRead) : Wc where
  opcode := .rdmaRead
  wrId := r.wr.wrId
  qpNum := match r.wr.queue with
    | .rc _ => 0
    | .dci _ qpNum => qpNum

/-- Let the code run on from the part that may post. -/
def ReadSys.afterPost (o : Options) (s : ReadSys) (ret : Int) : ReadSys × List ReadEvent :=
  match postPart o s.code (fun _ => ret) with
  | (code, none) => ({ s with code := code }, [])
  | (code, some (conn, offset, wr)) =>
      let r : PostedRead := ⟨s.nextId, s.code.iter, conn, offset, wr⟩
      ({ code := code, pending := s.pending ++ [r], nextId := s.nextId + 1 }, [.posted r])

/-- One step of the read phase. -/
def nextRead (o : Options) (s : ReadSys) (c : ReadChoice) : Option (ReadSys × List ReadEvent) :=
  match s.code.pc, c with
  | .forTest, .tick => some ({ s with code := forTest o s.code }, [])
  | .whileTest, .tick => some ({ s with code := whileTest s.code }, [])
  | .post, .post ret => some (s.afterPost o ret)
  | .poll, .pollError n => some ({ s with code := pollPart o s.code (.error n) }, [])
  | .poll, .pollEmpty => some ({ s with code := pollPart o s.code .empty }, [])
  | .poll, .pollFailed opcode =>
      some ({ s with code := pollPart o s.code (.wc { success := false, opcode := opcode }) }, [])
  | .poll, .pollRecv packet =>
      some ({ s with code := pollPart o s.code (.wc { opcode := .recv packet }) }, [])
  | .poll, .pollRead k =>
      match s.pending[k]? with
      | none => none
      | some r =>
          some ({ s with
            code := pollPart o s.code (.wc (readWc r))
            pending := s.pending.eraseIdx k }, [.completed r])
  | _, _ => none

/-- The context after a read completes; over DC its DCI is given back. -/
def TestContext.readDone (ctx : TestContext) (freed : Option (Fin numDci)) : TestContext :=
  let ctx' := { ctx with numOutstandingReads := decr 64 ctx.numOutstandingReads }
  match freed with
  | none => ctx'
  | some d => ctx'.releaseDci d

section ReadDone

variable (ctx : TestContext) (freed : Option (Fin numDci))

@[simp] lemma readDone_numConns : (ctx.readDone freed).numConns = ctx.numConns := by
  cases freed <;> simp [TestContext.readDone]
@[simp] lemma readDone_rdmaBuf : (ctx.readDone freed).rdmaBuf = ctx.rdmaBuf := by
  cases freed <;> simp [TestContext.readDone]
@[simp] lemma readDone_conns : (ctx.readDone freed).conns = ctx.conns := by
  cases freed <;> simp [TestContext.readDone]
@[simp] lemma readDone_dcis : (ctx.readDone freed).dcis = ctx.dcis := by
  cases freed <;> simp [TestContext.readDone]
@[simp] lemma readDone_numOutstandingReads :
    (ctx.readDone freed).numOutstandingReads = decr 64 ctx.numOutstandingReads := by
  cases freed <;> simp [TestContext.readDone]

end ReadDone

/-- The DCI that the completion `wc` gives back. -/
def FreedBy (o : Options) (wc : Wc) : Option (Fin numDci) → Prop
  | none => o.transport = .rc
  | some d => o.transport = .dc ∧ (d : ℕ) = wc.wrId

/-- **All a step of the read phase can do**, guards included. -/
inductive ReadStep (o : Options) (s : ReadSys) : List ReadEvent → ReadSys → Prop
  /-- The next iteration starts. -/
  | enter (hpc : s.code.pc = .forTest) (hiter : s.code.iter < o.numIterations) :
      ReadStep o s [] { s with code := { s.code with
        ctx := s.code.ctx.resetOffsets
        sched := s.code.sched ++ List.range s.code.ctx.numConns
        pc := .whileTest } }
  /-- All iterations are done, and everything was read. -/
  | finish (hpc : s.code.pc = .forTest) (hiter : ¬ s.code.iter < o.numIterations) :
      ReadStep o s [] { s with code := { s.code with pc := .stopped (.ret 0) } }
  /-- The inner loop goes on. -/
  | again (hpc : s.code.pc = .whileTest)
      (hmore : s.code.ctx.numOutstandingReads ≠ 0 ∨ s.code.sched ≠ []) :
      ReadStep o s [] { s with code := { s.code with pc := .post } }
  /-- The inner loop ends. -/
  | leave (hpc : s.code.pc = .whileTest) (hnone : s.code.ctx.numOutstandingReads = 0)
      (hempty : s.code.sched = []) :
      ReadStep o s [] { s with code := { s.code with
        iter := incr 32 s.code.iter
        pc := .forTest } }
  /-- Nothing is posted: nothing to post, the limit is reached, no DCI is free, or the post is
  refused. -/
  | skip (hpc : s.code.pc = .post) :
      ReadStep o s [] { s with code := { s.code with pc := .poll } }
  /-- The next segment of the first connection is posted. -/
  | post (conn : ℕ) (rest : List ℕ) (mr : Mr) (queue : SendQueue) (wrId : ℕ)
      (hpc : s.code.pc = .post) (hsched : s.code.sched = conn :: rest)
      (hlimit : s.code.ctx.numOutstandingReads < o.maxOutstandingReads)
      (hsize : nextSize o s.code.ctx conn ≠ 0) (hqueue : QueueFor o s.code.ctx queue wrId) :
      ReadStep o s
        [.posted ⟨s.nextId, s.code.iter, conn, (s.code.ctx.conns conn).readOffset,
          readWr s.code.ctx mr conn (s.code.ctx.conns conn).readOffset
            (nextSize o s.code.ctx conn) queue wrId⟩]
        { code := { s.code with
            ctx := s.code.ctx.afterPost queue conn (nextSize o s.code.ctx conn)
            sched := if ((s.code.ctx.afterPost queue conn
                (nextSize o s.code.ctx conn)).conns conn).readOffset < o.rdmaReadSize
              then rest ++ [conn] else rest
            pc := .poll }
          pending := s.pending ++ [⟨s.nextId, s.code.iter, conn,
            (s.code.ctx.conns conn).readOffset,
            readWr s.code.ctx mr conn (s.code.ctx.conns conn).readOffset
              (nextSize o s.code.ctx conn) queue wrId⟩]
          nextId := s.nextId + 1 }
  /-- A poll finds nothing, or a packet. -/
  | poll (finRecvd : ℕ) (hpc : s.code.pc = .poll) :
      ReadStep o s [] { s with code := { s.code with
        ctx := { s.code.ctx with numFinRecvd := finRecvd }
        pc := .whileTest } }
  /-- A poll finds the completion of a read. -/
  | complete (k : ℕ) (r : PostedRead) (freed : Option (Fin numDci)) (hpc : s.code.pc = .poll)
      (hk : s.pending[k]? = some r) (hfreed : FreedBy o (readWc r) freed) :
      ReadStep o s [.completed r] { s with
        code := { s.code with ctx := s.code.ctx.readDone freed, pc := .whileTest }
        pending := s.pending.eraseIdx k }
  /-- The phase stops short, with the context as it was. -/
  | stop (r : Stop) (sched' : List ℕ) (hr : r ≠ .ret 0) :
      ReadStep o s [] { s with code := { s.code with sched := sched', pc := .stopped r } }
  /-- `dc_send_completion` stops the process at the completion of a read. -/
  | abort (k : ℕ) (r : PostedRead) (stop : Stop) (hpc : s.code.pc = .poll)
      (hk : s.pending[k]? = some r) (hdc : o.transport = .dc)
      (hstop : dcSendCompletion { s.code.ctx with
        numOutstandingReads := decr 64 s.code.ctx.numOutstandingReads } (readWc r)
          = .stopped stop) :
      ReadStep o s [.completed r] { s with
        code := { s.code with pc := .stopped stop }
        pending := s.pending.eraseIdx k }

/-- `post_rdma_read` stops the process by an `assert` or in undefined behaviour only. -/
lemma postRdmaRead_stopped {o : Options} {ctx : TestContext} {conn offset length : ℕ}
    {f : SendWr → Int} {r : Stop} (h : postRdmaRead o ctx conn offset length f = .stopped r) :
    r ≠ .ret 0 := by
  rintro rfl
  simp only [postRdmaRead] at h
  repeat' split at h
  all_goals simp at h

lemma dcSendCompletion_stopped {ctx : TestContext} {wc : Wc} {r : Stop}
    (h : dcSendCompletion ctx wc = .stopped r) : r ≠ .ret 0 := by
  rintro rfl
  simp only [dcSendCompletion] at h
  repeat' split at h
  all_goals simp at h

lemma forTest_step (o : Options) (s : ReadSys) (hpc : s.code.pc = .forTest) :
    ReadStep o s [] { s with code := forTest o s.code } := by
  rw [forTest]
  split
  · rename_i hiter
    exact ReadStep.enter hpc hiter
  · rename_i hiter
    split
    · exact ReadStep.finish hpc hiter
    · exact ReadStep.stop .assertFailed s.code.sched (by simp)

lemma whileTest_step (o : Options) (s : ReadSys) (hpc : s.code.pc = .whileTest) :
    ReadStep o s [] { s with code := whileTest s.code } := by
  rw [whileTest]
  split
  · rename_i hmore
    exact ReadStep.again hpc hmore
  · rename_i hmore
    rw [not_or, not_not, not_not] at hmore
    exact ReadStep.leave hpc hmore.1 hmore.2

lemma afterPost_step (o : Options) (s : ReadSys) (ret : Int) (hpc : s.code.pc = .post) :
    ReadStep o s (s.afterPost o ret).2 (s.afterPost o ret).1 := by
  have hsame : ∀ sched', s.code.sched = sched' →
      ({ s.code with ctx := s.code.ctx, sched := sched', pc := .poll } : ReadState)
        = { s.code with pc := .poll } := by
    rintro _ rfl
    rfl
  rw [ReadSys.afterPost, postPart]
  split
  · -- the first component carries no work request
    rename_i code hcode
    split at hcode
    · simp only [Prod.mk.injEq, and_true] at hcode
      subst hcode
      exact ReadStep.skip hpc
    · rename_i conn rest hsched
      split at hcode
      · dsimp only at hcode
        split at hcode
        · simp only [Prod.mk.injEq, and_true] at hcode
          subst hcode
          exact ReadStep.stop .assertFailed rest (by simp)
        · split at hcode
          · rename_i r hpost
            simp only [Prod.mk.injEq, and_true] at hcode
            subst hcode
            exact ReadStep.stop r rest (postRdmaRead_stopped hpost)
          · rename_i ret' wr ctx' hpost
            rcases postRdmaRead_cases hpost with ⟨rfl, rfl⟩ | ⟨rfl, mr, queue, wrId, _, rfl, rfl⟩
            · split at hcode
              · rename_i hneg
                simp only [Prod.mk.injEq, and_true] at hcode
                subst hcode
                exact ReadStep.stop (.ret ret') rest (by rintro ⟨⟩; exact absurd hneg (by simp))
              · simp only [Prod.mk.injEq, and_true] at hcode
                rw [hsame _ hsched] at hcode
                subst hcode
                exact ReadStep.skip hpc
            · simp at hcode
      · simp only [Prod.mk.injEq, and_true] at hcode
        subst hcode
        exact ReadStep.skip hpc
  · rename_i code conn offset wr hcode
    split at hcode
    · simp at hcode
    · rename_i conn' rest hsched
      split at hcode
      · rename_i hlimit
        dsimp only at hcode
        split at hcode
        · simp at hcode
        · rename_i hsize
          split at hcode
          · simp at hcode
          · rename_i ret' wr' ctx' hpost
            rcases postRdmaRead_cases hpost with ⟨rfl, rfl⟩ |
              ⟨rfl, mr, queue, wrId, hqueue, rfl, rfl⟩
            · split at hcode <;> simp at hcode
            · simp only [lt_self_iff_false, if_false, Prod.mk.injEq, Option.some.injEq] at hcode
              obtain ⟨rfl, rfl, rfl, rfl⟩ := hcode
              exact ReadStep.post conn' rest mr queue wrId hpc hsched hlimit hsize hqueue
      · simp at hcode

lemma processWc_recv (o : Options) (ctx : TestContext) (packet : Packet) :
    processWc o ctx { opcode := .recv packet } = .done 0 { ctx with
      numFinRecvd := if packet.type = packetFin then incr 32 ctx.numFinRecvd
        else ctx.numFinRecvd } := by
  simp only [processWc, Bool.true_eq_false, if_false]
  split <;> rfl

lemma processWc_read (o : Options) (ctx : TestContext) (r : PostedRead) :
    processWc o ctx (readWc r) = match o.transport with
      | .dc => dcSendCompletion { ctx with
          numOutstandingReads := decr 64 ctx.numOutstandingReads } (readWc r)
      | .rc => .done 0 { ctx with
          numOutstandingReads := decr 64 ctx.numOutstandingReads } := rfl

lemma pollRecv_step (o : Options) (s : ReadSys) (packet : Packet) (hpc : s.code.pc = .poll) :
    ReadStep o s [] { s with code := pollPart o s.code (.wc { opcode := .recv packet }) } := by
  rw [pollPart, pollCq, processWc_recv]
  exact ReadStep.poll _ hpc

lemma pollRead_step (o : Options) (s : ReadSys) (k : ℕ) (r : PostedRead) (hpc : s.code.pc = .poll)
    (hk : s.pending[k]? = some r) :
    ReadStep o s [.completed r] { s with
      code := pollPart o s.code (.wc (readWc r))
      pending := s.pending.eraseIdx k } := by
  rw [pollPart, pollCq, processWc_read]
  cases hx : o.transport with
  | rc => exact ReadStep.complete k r none hpc hk hx
  | dc =>
      dsimp only
      split
      · rename_i stop hstop
        exact ReadStep.abort k r stop hpc hk hx hstop
      · rename_i ret ctx' hdone
        obtain ⟨d, hd, rfl, rfl⟩ := dcSendCompletion_cases hdone
        exact ReadStep.complete k r (some d) hpc hk ⟨hx, hd⟩

/-- Every step is one of those. -/
theorem nextRead_step {o : Options} {s s' : ReadSys} {c : ReadChoice} {es : List ReadEvent}
    (h : nextRead o s c = some (s', es)) : ReadStep o s es s' := by
  unfold nextRead at h
  split at h
  case h_1 _ _ hpc =>
    simp only [Option.some.injEq, Prod.mk.injEq] at h
    obtain ⟨rfl, rfl⟩ := h
    exact forTest_step o s hpc
  case h_2 _ _ hpc =>
    simp only [Option.some.injEq, Prod.mk.injEq] at h
    obtain ⟨rfl, rfl⟩ := h
    exact whileTest_step o s hpc
  case h_3 _ _ ret hpc =>
    have hs := afterPost_step o s ret hpc
    simp only [Option.some.injEq] at h
    rwa [h] at hs
  case h_4 _ _ n hpc =>
    simp only [Option.some.injEq, Prod.mk.injEq] at h
    obtain ⟨rfl, rfl⟩ := h
    rw [pollPart, pollCq]
    dsimp only
    rw [if_pos (by omega)]
    exact ReadStep.stop _ s.code.sched (by simp; omega)
  case h_5 _ _ hpc =>
    simp only [Option.some.injEq, Prod.mk.injEq] at h
    obtain ⟨rfl, rfl⟩ := h
    exact ReadStep.poll s.code.ctx.numFinRecvd hpc
  case h_6 _ _ opcode hpc =>
    simp only [Option.some.injEq, Prod.mk.injEq] at h
    obtain ⟨rfl, rfl⟩ := h
    exact ReadStep.stop (.ret (-1)) s.code.sched (by simp)
  case h_7 _ _ packet hpc =>
    simp only [Option.some.injEq, Prod.mk.injEq] at h
    obtain ⟨rfl, rfl⟩ := h
    exact pollRecv_step o s packet hpc
  case h_8 _ _ k hpc =>
    split at h
    · exact absurd h (by simp)
    · rename_i r hk
      simp only [Option.some.injEq, Prod.mk.injEq] at h
      obtain ⟨rfl, rfl⟩ := h
      exact pollRead_step o s k r hpc hk
  case h_9 => exact absurd h (by simp)

/-- `do_rdma_reads` called in the context `ctx`. -/
def ReadSys.start (ctx : TestContext) : ReadSys where
  code := startReads ctx
  pending := []
  nextId := 0

/-- A run of the read phase. -/
abbrev ReadRun (o : Options) (ctx : TestContext) : List ReadEvent → ReadSys → Prop :=
  Runs.Run (nextRead o) Runs.always (ReadSys.start ctx)

end RdmaFc
