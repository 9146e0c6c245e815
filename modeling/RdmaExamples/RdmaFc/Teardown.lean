import RdmaExamples.RdmaFc.ReadTiling

/-!
# A server and its clients

`send_control` and `disconnect`, from `rdma_fc.c`, and the system they run in: one server, any
number of clients, and the network between them.

A process (`Proc`) stands at a loop test or before a call, and holds its test context.  The server
runs `do_rdma_reads` before `disconnect`; a client goes from its setup phase to `disconnect` at
once.  Connections are numbered as the server numbers them; `Network.conn` says which of them are
whose.

The network delivers a FIN to its receiver's completion queue (`waiting`), and later reports the
send to its sender (`completed`).  Tearing a queue pair down flushes the sends on it that have not
completed.  No call fails.
-/

namespace RdmaFc

open MachineWords

/-- A process: the server, or a client. -/
inductive Party
  | server
  | client (c : ℕ)
  deriving DecidableEq

/-! ## `send_control` -/

/-- The work request of a control message, as `send_control` fills it in. -/
structure ControlWr where
  queue : SendQueue
  wrId : ℕ
  packet : Packet
  dcAh : Option Handle
  dctNumber : ℕ

/-- The result of `send_control`. -/
inductive Controlled
  | done (ret : Int) (wr : Option ControlWr) (ctx : TestContext)
  | stopped (s : Stop)

/-- `send_control`; `rand` is the DCI that `rand() % NUM_DCI` picks. -/
def sendControl (o : Options) (ctx : TestContext) (conn type connIndex : ℕ) (rand : Fin numDci)
    (ibvPostSend : ControlWr → Int) : Controlled :=
  let wr (queue : SendQueue) (wrId : ℕ) : ControlWr := {
    queue := queue
    wrId := wrId
    packet := ⟨type, connIndex⟩
    dcAh := (ctx.conns conn).dcAh
    dctNumber := (ctx.conns conn).remoteDctn }
  match o.transport with
  | .dc =>
      if ctx.dciOutstanding rand < o.txQueueLen then
        match ctx.dcis rand with
        | none => .stopped .undefined
        | some qp =>
            if ibvPostSend (wr (.dci rand qp.qpNum) rand) ≠ 0 then .done (-1) none ctx
            else .done 0 (some (wr (.dci rand qp.qpNum) rand)) { ctx with
              dciOutstanding :=
                Function.update ctx.dciOutstanding rand (incr 32 (ctx.dciOutstanding rand)) }
      else .stopped .assertFailed
  | .rc =>
      if ibvPostSend (wr (.rc (ctx.conns conn).rdmaId) 0) ≠ 0 then .done (-1) none ctx
      else .done 0 (some (wr (.rc (ctx.conns conn).rdmaId) 0)) ctx

/-- The completion of a control message. -/
def sendWc (wr : ControlWr) : Wc where
  opcode := .send
  wrId := wr.wrId
  qpNum := match wr.queue with
    | .rc _ => 0
    | .dci _ qpNum => qpNum

/-! ## `disconnect` -/

/-- Where a process stands: in its setup phase, in `do_rdma_reads`, in `disconnect` (sending the
FIN of connection `i`, at the test of the FIN loop, before its `poll_cq`, before `rdma_disconnect`
on connection `i`, at the test of the last loop, before its `wait_and_process_one_event`), in
`cleanup_test` after all went well, or at an end that it should not come to. -/
inductive Proc
  | setup (ctx : TestContext)
  | reads (r : ReadSys)
  | sendFin (ctx : TestContext) (i : ℕ)
  | finTest (ctx : TestContext)
  | finPoll (ctx : TestContext)
  | disconnecting (ctx : TestContext) (i : ℕ)
  | discTest (ctx : TestContext)
  | discEvent (ctx : TestContext)
  | cleanup (ctx : TestContext)
  | failed (ctx : TestContext)
  | stopped (ctx : TestContext) (s : Stop)

/-- The test context of a process. -/
def Proc.ctx : Proc → TestContext
  | .setup ctx => ctx
  | .reads r => r.code.ctx
  | .sendFin ctx _ => ctx
  | .finTest ctx => ctx
  | .finPoll ctx => ctx
  | .disconnecting ctx _ => ctx
  | .discTest ctx => ctx
  | .discEvent ctx => ctx
  | .cleanup ctx => ctx
  | .failed ctx => ctx
  | .stopped ctx _ => ctx

/-- The loop that sends a FIN on every connection. -/
def sendFin (o : Options) (ctx : TestContext) (i : ℕ) (rand : Fin numDci)
    (ibvPostSend : ControlWr → Int) : Proc × Option ControlWr :=
  if i < ctx.numConns then
    match sendControl o ctx i packetFin i rand ibvPostSend with
    | .stopped s => (.stopped ctx s, none)
    | .done ret wr ctx' => if ret ≠ 0 then (.failed ctx', wr) else (.sendFin ctx' (i + 1), wr)
  else (.finTest ctx, none)

/-- The test of the FIN loop, and what follows it. -/
def finTest (o : Options) (ctx : TestContext) : Proc :=
  if ctx.numFinRecvd < ctx.numConns then .finPoll ctx
  else
    match o.transport with
    | .rc => .disconnecting ctx 0
    | .dc => .cleanup ctx

/-- The body of the FIN loop. -/
def finPoll (o : Options) (ctx : TestContext) (answer : Polled) : Proc :=
  match pollCq o ctx answer with
  | .stopped s => .stopped ctx s
  | .done ret ctx' => if ret ≠ 0 then .failed ctx' else .finTest ctx'

/-- The test of the last loop. -/
def discTest (ctx : TestContext) : Proc :=
  if ctx.numDisconnect < ctx.numConns then .discEvent ctx else .cleanup ctx

/-! ## The system

A choice names who moves.  A choice that cannot be made in a state is refused, and a run has no
such step; so "in every run" means in whatever order the processes, the network and the reads move.
-/

/-- The processes, as their setup phases leave them, and whose connections are whose: connection
`i` of client `c` is connection `conn c i` of the server. -/
structure Network where
  opts : Party → Options
  ctx : Party → TestContext
  numClients : ℕ
  conn : ℕ → ℕ → ℕ
  conn_lt : ∀ c i, i < (ctx (.client c)).numConns → conn c i < (ctx .server).numConns
  conn_inj : ∀ c i c' j, i < (ctx (.client c)).numConns → j < (ctx (.client c')).numConns →
    conn c i = conn c' j → c = c' ∧ i = j
  numConns_lt : ∀ p, (ctx p).numConns < 2 ^ 32
  numFinRecvd_eq : ∀ p, (ctx p).numFinRecvd = 0

/-- The server's number for connection `i` of a process. -/
def Network.index (n : Network) : Party → ℕ → ℕ
  | .server, i => i
  | .client c, i => n.conn c i

/-- The processes there are. -/
def Network.Present (n : Network) : Party → Prop
  | .server => True
  | .client c => c < n.numClients

instance (n : Network) (p : Party) : Decidable (n.Present p) := by
  cases p <;> unfold Network.Present <;> infer_instance

/-- What became of a FIN, for its sender. -/
inductive SendStatus
  | unsent
  | inFlight (wr : ControlWr)
  | delivered (wr : ControlWr)
  | completed (wr : ControlWr)
  | reaped
  | flushed

/-- The send has completed. -/
def SendStatus.Done : SendStatus → Prop
  | .completed _ => True
  | .reaped => True
  | _ => False

/-- What becomes of a send when its queue pair is torn down. -/
def SendStatus.flush : SendStatus → SendStatus
  | .inFlight _ => .flushed
  | .delivered _ => .flushed
  | st => st

/-- What became of a FIN, for its receiver. -/
inductive RecvStatus
  | none
  | waiting (packet : Packet)
  | counted

/-- The FIN was counted. -/
def RecvStatus.isCounted : RecvStatus → Bool
  | .counted => true
  | _ => false

/-- The processes and the network.  `sent p k` is the FIN of `p` on connection `k`, `recvd p k` the
FIN for `p` on it; `torn` are the queue pairs torn down, `notified` the DISCONNECTED events
delivered. -/
structure Sys where
  procs : Party → Proc
  sent : Party → ℕ → SendStatus
  recvd : Party → ℕ → RecvStatus
  torn : Party → ℕ → Bool
  notified : Party → ℕ → Bool

/-- One entry of a table changes. -/
def put {α : Type} (f : Party → ℕ → α) (p : Party) (k : ℕ) (v : α) : Party → ℕ → α :=
  fun q j => if q = p ∧ j = k then v else f q j

/-- A process goes on. -/
def Sys.setProc (s : Sys) (p : Party) (proc : Proc) : Sys :=
  { s with procs := Function.update s.procs p proc }

/-- The queue pair of `p` on connection `k` is torn down. -/
def Sys.tear (s : Sys) (p : Party) (k : ℕ) : Sys :=
  { s with sent := put s.sent p k (s.sent p k).flush, torn := put s.torn p k true }

/-- `cleanup_test` destroys the queue pairs that `p` still has. -/
def Sys.tearAll (n : Network) (s : Sys) (p : Party) : ℕ → Sys
  | 0 => s
  | i + 1 => (tearAll n s p i).tear p (n.index p i)

/-- The start: every process is in its setup phase. -/
def Sys.start (n : Network) : Sys where
  procs p := .setup (n.ctx p)
  sent _ _ := .unsent
  recvd _ _ := .none
  torn _ _ := false
  notified _ _ := false

/-- Who moves, and how. -/
inductive SysChoice
  | start (p : Party)
  | reads (c : ReadChoice)
  | readsFin (k : ℕ)
  | leaveReads
  | sendFin (p : Party) (rand : Fin numDci)
  | finTest (p : Party)
  | pollEmpty (p : Party)
  | pollFin (p : Party) (k : ℕ)
  | pollSend (p : Party) (k : ℕ)
  | rdmaDisconnect (p : Party)
  | discTest (p : Party)
  | discEvent (p : Party) (k : ℕ)
  | deliver (c i : ℕ) (toServer : Bool)
  | complete (p : Party) (k : ℕ)
  deriving DecidableEq

/-- A choice of the read phase that is no failure and no packet. -/
def ReadChoice.Plain : ReadChoice → Prop
  | .tick => True
  | .post ret => 0 ≤ ret
  | .pollEmpty => True
  | .pollRead _ => True
  | _ => False

instance (c : ReadChoice) : Decidable c.Plain := by
  cases c <;> unfold ReadChoice.Plain <;> infer_instance

/-- Where `disconnect` is entered. -/
def enter (p : Party) (ctx : TestContext) : Proc :=
  match p with
  | .server => .reads (ReadSys.start ctx)
  | .client _ => .sendFin ctx 0

/-- The process after the FIN loop's test; over DC it goes on to `cleanup_test` at once. -/
def Sys.afterFinTest (n : Network) (s : Sys) (p : Party) (ctx : TestContext) : Sys :=
  let s' := s.setProc p (finTest (n.opts p) ctx)
  match finTest (n.opts p) ctx with
  | .cleanup _ => s'.tearAll n p ctx.numConns
  | _ => s'

/-- The sender and the receiver of a FIN between client `c` and the server. -/
def sender (c : ℕ) (toServer : Bool) : Party := if toServer then .client c else .server

/-- The receiver. -/
def receiver (c : ℕ) (toServer : Bool) : Party := if toServer then .server else .client c

/-- One step of the system. -/
def nextSys (n : Network) (s : Sys) : SysChoice → Option (Sys × List ReadEvent)
  | .start p =>
      match s.procs p with
      | .setup ctx => if n.Present p then some (s.setProc p (enter p ctx), []) else none
      | _ => none
  | .reads c =>
      match s.procs .server with
      | .reads r =>
          if c.Plain then
            match nextRead (n.opts .server) r c with
            | some (r', es) => some (s.setProc .server (.reads r'), es)
            | none => none
          else none
      | _ => none
  | .readsFin k =>
      match s.procs .server, s.recvd .server k with
      | .reads r, .waiting packet =>
          match nextRead (n.opts .server) r (.pollRecv packet) with
          | some (r', es) =>
              some ({ s.setProc .server (.reads r') with
                recvd := put s.recvd .server k .counted }, es)
          | none => none
      | _, _ => none
  | .leaveReads =>
      match s.procs .server with
      | .reads r =>
          if r.code.pc = .stopped (.ret 0) then
            some (s.setProc .server (.sendFin r.code.ctx 0), [])
          else none
      | _ => none
  | .sendFin p rand =>
      match s.procs p with
      | .sendFin ctx i =>
          match sendFin (n.opts p) ctx i rand (fun _ => 0) with
          | (proc, some wr) =>
              some ({ s.setProc p proc with
                sent := put s.sent p (n.index p i) (.inFlight wr) }, [])
          | (proc, none) => some (s.setProc p proc, [])
      | _ => none
  | .finTest p =>
      match s.procs p with
      | .finTest ctx => some (s.afterFinTest n p ctx, [])
      | _ => none
  | .pollEmpty p =>
      match s.procs p with
      | .finPoll ctx => some (s.setProc p (finPoll (n.opts p) ctx .empty), [])
      | _ => none
  | .pollFin p k =>
      match s.procs p, s.recvd p k with
      | .finPoll ctx, .waiting packet =>
          some ({ s.setProc p (finPoll (n.opts p) ctx (.wc { opcode := .recv packet })) with
            recvd := put s.recvd p k .counted }, [])
      | _, _ => none
  | .pollSend p k =>
      match s.procs p, s.sent p k with
      | .finPoll ctx, .completed wr =>
          some ({ s.setProc p (finPoll (n.opts p) ctx (.wc (sendWc wr))) with
            sent := put s.sent p k .reaped }, [])
      | _, _ => none
  | .rdmaDisconnect p =>
      match s.procs p with
      | .disconnecting ctx i =>
          if i < ctx.numConns then
            some ((s.setProc p (.disconnecting ctx (i + 1))).tear p (n.index p i), [])
          else some (s.setProc p (.discTest ctx), [])
      | _ => none
  | .discTest p =>
      match s.procs p with
      | .discTest ctx => some (s.setProc p (discTest ctx), [])
      | _ => none
  | .discEvent p k =>
      match s.procs p with
      | .discEvent ctx =>
          if s.torn p k = true ∧ s.notified p k = false then
            some ({ s.setProc p (.discTest { ctx with
                numDisconnect := incr 32 ctx.numDisconnect }) with
              notified := put s.notified p k true }, [])
          else none
      | _ => none
  | .deliver c i toServer =>
      match s.sent (sender c toServer) (n.conn c i) with
      | .inFlight wr =>
          if c < n.numClients ∧ i < (n.ctx (.client c)).numConns ∧
              s.torn (receiver c toServer) (n.conn c i) = false then
            some ({ s with
              sent := put s.sent (sender c toServer) (n.conn c i) (.delivered wr)
              recvd := put s.recvd (receiver c toServer) (n.conn c i) (.waiting wr.packet) }, [])
          else none
      | _ => none
  | .complete p k =>
      match s.sent p k with
      | .delivered wr => some ({ s with sent := put s.sent p k (.completed wr) }, [])
      | _ => none

/-! ## All a step can do

`SysStep` has one constructor for each thing that can happen, and says what it needs.  The
invariants of the system are case analyses over it; that the list is complete is shown choice by
choice, and `nextSys_step` puts these together. -/

/-- What a process keeps while it sends and waits for FINs. -/
structure SameCounts (ctx ctx' : TestContext) : Prop where
  numConns : ctx'.numConns = ctx.numConns
  numFinRecvd : ctx'.numFinRecvd = ctx.numFinRecvd
  numOutstandingReads : ctx'.numOutstandingReads = ctx.numOutstandingReads

lemma SameCounts.refl (ctx : TestContext) : SameCounts ctx ctx := ⟨rfl, rfl, rfl⟩

/-- **All a step of the system can do**, guards included. -/
inductive SysStep (n : Network) (s : Sys) (choice : SysChoice) : List ReadEvent → Sys → Prop
  | start (p : Party) (ctx : TestContext) (hp : s.procs p = .setup ctx) (hpresent : n.Present p) :
      SysStep n s choice [] (s.setProc p (enter p ctx))
  | reads (r r' : ReadSys) (c : ReadChoice) (es : List ReadEvent)
      (hp : s.procs .server = .reads r) (hplain : c.Plain)
      (hread : nextRead (n.opts .server) r c = some (r', es)) :
      SysStep n s choice es (s.setProc .server (.reads r'))
  | readsFin (r r' : ReadSys) (k : ℕ) (packet : Packet) (es : List ReadEvent)
      (hchoice : choice = .readsFin k) (hp : s.procs .server = .reads r)
      (hw : s.recvd .server k = .waiting packet)
      (hread : nextRead (n.opts .server) r (.pollRecv packet) = some (r', es)) :
      SysStep n s choice es { s.setProc .server (.reads r') with
        recvd := put s.recvd .server k .counted }
  | leaveReads (r : ReadSys) (hp : s.procs .server = .reads r)
      (hret : r.code.pc = .stopped (.ret 0)) :
      SysStep n s choice [] (s.setProc .server (.sendFin r.code.ctx 0))
  | sendFin (p : Party) (ctx ctx' : TestContext) (i : ℕ) (wr : ControlWr)
      (hp : s.procs p = .sendFin ctx i) (hi : i < ctx.numConns) (hsame : SameCounts ctx ctx')
      (htype : wr.packet.type = packetFin) :
      SysStep n s choice [] { s.setProc p (.sendFin ctx' (i + 1)) with
        sent := put s.sent p (n.index p i) (.inFlight wr) }
  | finsSent (p : Party) (ctx : TestContext) (i : ℕ) (hp : s.procs p = .sendFin ctx i)
      (hi : ¬ i < ctx.numConns) : SysStep n s choice [] (s.setProc p (.finTest ctx))
  | abort (p : Party) (ctx : TestContext) (stop : Stop)
      (hp : (∃ i, s.procs p = .sendFin ctx i) ∨ s.procs p = .finPoll ctx) (s' : Sys)
      (hs : s' = s.setProc p (.stopped ctx stop) ∨ ∃ k wr, s.sent p k = .completed wr ∧
        s' = { s.setProc p (.stopped ctx stop) with sent := put s.sent p k .reaped }) :
      SysStep n s choice [] s'
  | wait (p : Party) (ctx : TestContext) (hp : s.procs p = .finTest ctx)
      (hlt : ctx.numFinRecvd < ctx.numConns) : SysStep n s choice [] (s.setProc p (.finPoll ctx))
  | leave (p : Party) (ctx : TestContext) (hchoice : choice = .finTest p)
      (hp : s.procs p = .finTest ctx)
      (hge : ¬ ctx.numFinRecvd < ctx.numConns) (hrc : (n.opts p).transport = .rc) :
      SysStep n s choice [] (s.setProc p (.disconnecting ctx 0))
  | leaveDc (p : Party) (ctx : TestContext) (hchoice : choice = .finTest p)
      (hp : s.procs p = .finTest ctx)
      (hge : ¬ ctx.numFinRecvd < ctx.numConns) (hdc : (n.opts p).transport = .dc) :
      SysStep n s choice [] ((s.setProc p (.cleanup ctx)).tearAll n p ctx.numConns)
  | pollEmpty (p : Party) (ctx : TestContext) (hp : s.procs p = .finPoll ctx) :
      SysStep n s choice [] (s.setProc p (.finTest ctx))
  | pollFin (p : Party) (ctx : TestContext) (k : ℕ) (packet : Packet)
      (hchoice : choice = .pollFin p k) (hp : s.procs p = .finPoll ctx)
      (hw : s.recvd p k = .waiting packet) :
      SysStep n s choice [] { s.setProc p (.finTest { ctx with
          numFinRecvd := if packet.type = packetFin then incr 32 ctx.numFinRecvd
            else ctx.numFinRecvd }) with
        recvd := put s.recvd p k .counted }
  | pollSend (p : Party) (ctx ctx' : TestContext) (k : ℕ) (wr : ControlWr)
      (hp : s.procs p = .finPoll ctx) (hc : s.sent p k = .completed wr)
      (hsame : SameCounts ctx ctx') :
      SysStep n s choice [] { s.setProc p (.finTest ctx') with sent := put s.sent p k .reaped }
  | disconnect (p : Party) (ctx : TestContext) (i : ℕ) (hp : s.procs p = .disconnecting ctx i)
      (hi : i < ctx.numConns) :
      SysStep n s choice [] ((s.setProc p (.disconnecting ctx (i + 1))).tear p (n.index p i))
  | disconnected (p : Party) (ctx : TestContext) (i : ℕ) (hp : s.procs p = .disconnecting ctx i)
      (hi : ¬ i < ctx.numConns) : SysStep n s choice [] (s.setProc p (.discTest ctx))
  | waitDisc (p : Party) (ctx : TestContext) (hp : s.procs p = .discTest ctx)
      (hlt : ctx.numDisconnect < ctx.numConns) :
      SysStep n s choice [] (s.setProc p (.discEvent ctx))
  | leaveDisc (p : Party) (ctx : TestContext) (hp : s.procs p = .discTest ctx)
      (hge : ¬ ctx.numDisconnect < ctx.numConns) :
      SysStep n s choice [] (s.setProc p (.cleanup ctx))
  | discEvent (p : Party) (ctx : TestContext) (k : ℕ) (hp : s.procs p = .discEvent ctx) :
      SysStep n s choice [] { s.setProc p (.discTest { ctx with
          numDisconnect := incr 32 ctx.numDisconnect }) with
        notified := put s.notified p k true }
  | deliver (c i : ℕ) (toServer : Bool) (wr : ControlWr)
      (hsent : s.sent (sender c toServer) (n.conn c i) = .inFlight wr)
      (hi : i < (n.ctx (.client c)).numConns) :
      SysStep n s choice [] { s with
        sent := put s.sent (sender c toServer) (n.conn c i) (.delivered wr)
        recvd := put s.recvd (receiver c toServer) (n.conn c i) (.waiting wr.packet) }
  | complete (p : Party) (k : ℕ) (wr : ControlWr) (hchoice : choice = .complete p k)
      (hsent : s.sent p k = .delivered wr) :
      SysStep n s choice [] { s with sent := put s.sent p k (.completed wr) }

/-- What `send_control` does when no call fails. -/
lemma sendControl_cases (o : Options) (ctx : TestContext) (conn connIndex : ℕ)
    (rand : Fin numDci) :
    (∃ wr ctx', sendControl o ctx conn packetFin connIndex rand (fun _ => 0)
      = .done 0 (some wr) ctx' ∧ SameCounts ctx ctx' ∧ wr.packet.type = packetFin) ∨
    ∃ stop, sendControl o ctx conn packetFin connIndex rand (fun _ => 0) = .stopped stop := by
  rw [sendControl]
  cases o.transport with
  | rc => exact Or.inl ⟨_, _, rfl, SameCounts.refl ctx, rfl⟩
  | dc =>
      dsimp only
      split
      · cases ctx.dcis rand with
        | none => exact Or.inr ⟨_, rfl⟩
        | some qp => exact Or.inl ⟨_, _, rfl, ⟨rfl, rfl, rfl⟩, rfl⟩
      · exact Or.inr ⟨_, rfl⟩

lemma processWc_send (o : Options) (ctx : TestContext) (wr : ControlWr) :
    processWc o ctx (sendWc wr) = match o.transport with
      | .dc => dcSendCompletion ctx (sendWc wr)
      | .rc => .done 0 ctx := rfl

/-- What a poll that finds a completed send does. -/
lemma finPoll_send (o : Options) (ctx : TestContext) (wr : ControlWr) :
    (∃ ctx', finPoll o ctx (.wc (sendWc wr)) = .finTest ctx' ∧ SameCounts ctx ctx') ∨
    ∃ stop, finPoll o ctx (.wc (sendWc wr)) = .stopped ctx stop := by
  rw [finPoll, pollCq, processWc_send]
  cases o.transport with
  | rc => exact Or.inl ⟨ctx, rfl, SameCounts.refl ctx⟩
  | dc =>
      dsimp only
      split
      · exact Or.inr ⟨_, rfl⟩
      · rename_i ret ctx' hdone
        obtain ⟨d, -, rfl, rfl⟩ := dcSendCompletion_cases hdone
        exact Or.inl ⟨_, rfl, ⟨rfl, rfl, rfl⟩⟩

lemma afterFinTest_step (n : Network) (s : Sys) (p : Party) (ctx : TestContext)
    (hp : s.procs p = .finTest ctx) :
    SysStep n s (.finTest p) [] (s.afterFinTest n p ctx) := by
  rw [Sys.afterFinTest, finTest]
  by_cases hlt : ctx.numFinRecvd < ctx.numConns
  · simp only [if_pos hlt]
    exact SysStep.wait p ctx hp hlt
  · simp only [if_neg hlt]
    cases hx : (n.opts p).transport with
    | rc => exact SysStep.leave p ctx rfl hp hlt hx
    | dc => exact SysStep.leaveDc p ctx rfl hp hlt hx

/-! One lemma for each choice: what the process stands at when the choice is taken, and what becomes
of it. -/

section Choices

variable {n : Network} {s s' : Sys} {es : List ReadEvent} {p : Party} {k : ℕ}

lemma start_step (h : nextSys n s (.start p) = some (s', es)) : SysStep n s (.start p) es s' := by
  simp only [nextSys] at h
  split at h
  · rename_i ctx hp
    split at h
    · rename_i hpresent
      simp only [Option.some.injEq, Prod.mk.injEq] at h
      obtain ⟨rfl, rfl⟩ := h
      exact SysStep.start p ctx hp hpresent
    · exact absurd h (by simp)
  · exact absurd h (by simp)

lemma reads_step {c : ReadChoice} (h : nextSys n s (.reads c) = some (s', es)) :
    SysStep n s (.reads c) es s' := by
  simp only [nextSys] at h
  split at h
  · rename_i r hp
    split at h
    · rename_i hplain
      split at h
      · rename_i r' es' hread
        simp only [Option.some.injEq, Prod.mk.injEq] at h
        obtain ⟨rfl, rfl⟩ := h
        exact SysStep.reads r r' c es' hp hplain hread
      · exact absurd h (by simp)
    · exact absurd h (by simp)
  · exact absurd h (by simp)

/-- The server takes a FIN off its queue while it reads. -/
lemma readsFin_cases (h : nextSys n s (.readsFin k) = some (s', es)) :
    ∃ r r' packet, s.procs .server = .reads r ∧ s.recvd .server k = .waiting packet ∧
      nextRead (n.opts .server) r (.pollRecv packet) = some (r', es) ∧
      s' = { s.setProc .server (.reads r') with recvd := put s.recvd .server k .counted } := by
  simp only [nextSys] at h
  split at h
  · rename_i r packet hp hw
    split at h
    · rename_i r' es' hread
      simp only [Option.some.injEq, Prod.mk.injEq] at h
      obtain ⟨rfl, rfl⟩ := h
      exact ⟨r, r', packet, hp, hw, hread, rfl⟩
    · exact absurd h (by simp)
  · exact absurd h (by simp)

lemma readsFin_step (h : nextSys n s (.readsFin k) = some (s', es)) :
    SysStep n s (.readsFin k) es s' := by
  obtain ⟨r, r', packet, hp, hw, hread, rfl⟩ := readsFin_cases h
  exact SysStep.readsFin r r' k packet es rfl hp hw hread

lemma leaveReads_step (h : nextSys n s .leaveReads = some (s', es)) :
    SysStep n s .leaveReads es s' := by
  simp only [nextSys] at h
  split at h
  · rename_i r hp
    split at h
    · rename_i hret
      simp only [Option.some.injEq, Prod.mk.injEq] at h
      obtain ⟨rfl, rfl⟩ := h
      exact SysStep.leaveReads r hp hret
    · exact absurd h (by simp)
  · exact absurd h (by simp)

lemma sendFin_step {rand : Fin numDci} (h : nextSys n s (.sendFin p rand) = some (s', es)) :
    SysStep n s (.sendFin p rand) es s' := by
  simp only [nextSys] at h
  split at h
  · rename_i ctx i hp
    rw [sendFin] at h
    by_cases hi : i < ctx.numConns
    · rw [if_pos hi] at h
      rcases sendControl_cases (n.opts p) ctx i i rand with
        ⟨wr, ctx', hdone, hsame, htype⟩ | ⟨stop, hstop⟩
      · simp only [hdone, ne_eq, not_true_eq_false, if_false, Option.some.injEq,
          Prod.mk.injEq] at h
        obtain ⟨rfl, rfl⟩ := h
        exact SysStep.sendFin p ctx ctx' i wr hp hi hsame htype
      · simp only [hstop, Option.some.injEq, Prod.mk.injEq] at h
        obtain ⟨rfl, rfl⟩ := h
        exact SysStep.abort p ctx stop (Or.inl ⟨i, hp⟩) _ (Or.inl rfl)
    · simp only [if_neg hi, Option.some.injEq, Prod.mk.injEq] at h
      obtain ⟨rfl, rfl⟩ := h
      exact SysStep.finsSent p ctx i hp hi
  · exact absurd h (by simp)

lemma finTest_step (h : nextSys n s (.finTest p) = some (s', es)) :
    SysStep n s (.finTest p) es s' := by
  simp only [nextSys] at h
  split at h
  · rename_i ctx hp
    simp only [Option.some.injEq, Prod.mk.injEq] at h
    obtain ⟨rfl, rfl⟩ := h
    exact afterFinTest_step n s p ctx hp
  · exact absurd h (by simp)

lemma pollEmpty_step (h : nextSys n s (.pollEmpty p) = some (s', es)) :
    SysStep n s (.pollEmpty p) es s' := by
  simp only [nextSys] at h
  split at h
  · rename_i ctx hp
    simp only [Option.some.injEq, Prod.mk.injEq] at h
    obtain ⟨rfl, rfl⟩ := h
    exact SysStep.pollEmpty p ctx hp
  · exact absurd h (by simp)

/-- A process takes a FIN off its queue while it waits for FINs. -/
lemma pollFin_cases (h : nextSys n s (.pollFin p k) = some (s', es)) :
    ∃ ctx packet, s.procs p = .finPoll ctx ∧ s.recvd p k = .waiting packet ∧ es = [] ∧
      s' = { s.setProc p (.finTest { ctx with
          numFinRecvd := if packet.type = packetFin then incr 32 ctx.numFinRecvd
            else ctx.numFinRecvd }) with
        recvd := put s.recvd p k .counted } := by
  simp only [nextSys] at h
  split at h
  · rename_i ctx packet hp hw
    simp only [finPoll, pollCq, processWc_recv, Option.some.injEq, Prod.mk.injEq] at h
    obtain ⟨rfl, rfl⟩ := h
    exact ⟨ctx, packet, hp, hw, rfl, rfl⟩
  · exact absurd h (by simp)

lemma pollFin_step (h : nextSys n s (.pollFin p k) = some (s', es)) :
    SysStep n s (.pollFin p k) es s' := by
  obtain ⟨ctx, packet, hp, hw, rfl, rfl⟩ := pollFin_cases h
  exact SysStep.pollFin p ctx k packet rfl hp hw

lemma pollSend_step (h : nextSys n s (.pollSend p k) = some (s', es)) :
    SysStep n s (.pollSend p k) es s' := by
  simp only [nextSys] at h
  split at h
  · rename_i ctx wr hp hc
    simp only [Option.some.injEq, Prod.mk.injEq] at h
    obtain ⟨rfl, rfl⟩ := h
    rcases finPoll_send (n.opts p) ctx wr with ⟨ctx', hdone, hsame⟩ | ⟨stop, hstop⟩
    · rw [hdone]
      exact SysStep.pollSend p ctx ctx' k wr hp hc hsame
    · rw [hstop]
      exact SysStep.abort p ctx stop (Or.inr hp) _ (Or.inr ⟨k, wr, hc, rfl⟩)
  · exact absurd h (by simp)

lemma rdmaDisconnect_step (h : nextSys n s (.rdmaDisconnect p) = some (s', es)) :
    SysStep n s (.rdmaDisconnect p) es s' := by
  simp only [nextSys] at h
  split at h
  · rename_i ctx i hp
    split at h
    · rename_i hi
      simp only [Option.some.injEq, Prod.mk.injEq] at h
      obtain ⟨rfl, rfl⟩ := h
      exact SysStep.disconnect p ctx i hp hi
    · rename_i hi
      simp only [Option.some.injEq, Prod.mk.injEq] at h
      obtain ⟨rfl, rfl⟩ := h
      exact SysStep.disconnected p ctx i hp hi
  · exact absurd h (by simp)

lemma discTest_step (h : nextSys n s (.discTest p) = some (s', es)) :
    SysStep n s (.discTest p) es s' := by
  simp only [nextSys] at h
  split at h
  · rename_i ctx hp
    simp only [Option.some.injEq, Prod.mk.injEq] at h
    obtain ⟨rfl, rfl⟩ := h
    rw [discTest]
    split
    · rename_i hlt
      exact SysStep.waitDisc p ctx hp hlt
    · rename_i hge
      exact SysStep.leaveDisc p ctx hp hge
  · exact absurd h (by simp)

lemma discEvent_step (h : nextSys n s (.discEvent p k) = some (s', es)) :
    SysStep n s (.discEvent p k) es s' := by
  simp only [nextSys] at h
  split at h
  · rename_i ctx hp
    split at h
    · simp only [Option.some.injEq, Prod.mk.injEq] at h
      obtain ⟨rfl, rfl⟩ := h
      exact SysStep.discEvent p ctx k hp
    · exact absurd h (by simp)
  · exact absurd h (by simp)

lemma deliver_step {c i : ℕ} {toServer : Bool}
    (h : nextSys n s (.deliver c i toServer) = some (s', es)) :
    SysStep n s (.deliver c i toServer) es s' := by
  simp only [nextSys] at h
  split at h
  · rename_i wr hsent
    split at h
    · rename_i hi
      simp only [Option.some.injEq, Prod.mk.injEq] at h
      obtain ⟨rfl, rfl⟩ := h
      exact SysStep.deliver c i toServer wr hsent hi.2.1
    · exact absurd h (by simp)
  · exact absurd h (by simp)

/-- A send that was delivered is reported to its sender. -/
lemma complete_cases (h : nextSys n s (.complete p k) = some (s', es)) :
    ∃ wr, s.sent p k = .delivered wr ∧ es = [] ∧
      s' = { s with sent := put s.sent p k (.completed wr) } := by
  simp only [nextSys] at h
  split at h
  · rename_i wr hsent
    simp only [Option.some.injEq, Prod.mk.injEq] at h
    obtain ⟨rfl, rfl⟩ := h
    exact ⟨wr, hsent, rfl, rfl⟩
  · exact absurd h (by simp)

lemma complete_step (h : nextSys n s (.complete p k) = some (s', es)) :
    SysStep n s (.complete p k) es s' := by
  obtain ⟨wr, hsent, rfl, rfl⟩ := complete_cases h
  exact SysStep.complete p k wr rfl hsent

/-- **Every step is one of those.** -/
theorem nextSys_step {c : SysChoice} (h : nextSys n s c = some (s', es)) :
    SysStep n s c es s' := by
  cases c with
  | start p => exact start_step h
  | reads c => exact reads_step h
  | readsFin k => exact readsFin_step h
  | leaveReads => exact leaveReads_step h
  | sendFin p rand => exact sendFin_step h
  | finTest p => exact finTest_step h
  | pollEmpty p => exact pollEmpty_step h
  | pollFin p k => exact pollFin_step h
  | pollSend p k => exact pollSend_step h
  | rdmaDisconnect p => exact rdmaDisconnect_step h
  | discTest p => exact discTest_step h
  | discEvent p k => exact discEvent_step h
  | deliver c i toServer => exact deliver_step h
  | complete p k => exact complete_step h

end Choices

/-- A run of the system. -/
abbrev SysRun (n : Network) : List ReadEvent → Sys → Prop :=
  Runs.Run (nextSys n) Runs.always (Sys.start n)

end RdmaFc
