import RdmaExamples.Library.Programs
import RdmaExamples.RdmaFc.Context

/-!
# The setup phase

What both roles do before the first RDMA read, from `rdma_fc.c`: `init_test`, the handlers of
rdma_cm events, and the loops of `run_server` and `run_client` that wait for them.

Each function is a program over the test context.  A call to a library is a `Verb`, its answer a
`Reply`: a program's runs are what the function does for every answer, so rdma_cm may deliver any
event at any time.  `storeConn i` is no call but the write to `conns[i]`: the one access to memory
whose bounds are in question is visible in the run.

What the program does with `conns` in this phase is the reason for the design.  An index past the
allocation is no error of the model: the write goes through, as it would, and shows in the run.
Whether it happens is a question about runs, which `ConnectionSlots` answers.
-/

namespace RdmaFc

open MachineWords Programs

/-! ## Events -/

/-- `enum rdma_cm_event_type`. -/
inductive CmEventType
  | addrResolved
  | addrError
  | routeResolved
  | routeError
  | connectRequest
  | connectResponse
  | connectError
  | unreachable
  | rejected
  | established
  | disconnected
  | deviceRemoval
  | multicastJoin
  | multicastError
  | addrChange
  | timewaitExit
  deriving DecidableEq, Repr

/-- The number of an event in the enumeration. -/
def CmEventType.number : CmEventType → ℕ
  | .addrResolved => 0
  | .addrError => 1
  | .routeResolved => 2
  | .routeError => 3
  | .connectRequest => 4
  | .connectResponse => 5
  | .connectError => 6
  | .unreachable => 7
  | .rejected => 8
  | .established => 9
  | .disconnected => 10
  | .deviceRemoval => 11
  | .multicastJoin => 12
  | .multicastError => 13
  | .addrChange => 14
  | .timewaitExit => 15

/-- `struct rdma_cm_event`: the connection it is about, and the peer's private data. -/
structure CmEvent where
  type : CmEventType
  id : Handle
  priv : ConnPriv

/-- The mask `run_client` waits with. -/
def clientMask : BitVec 64 :=
  bit CmEventType.addrResolved.number ||| bit CmEventType.routeResolved.number |||
    bit CmEventType.established.number

/-- The mask `run_server` waits with. -/
def serverMask : BitVec 64 :=
  bit CmEventType.connectRequest.number ||| bit CmEventType.established.number |||
    bit CmEventType.disconnected.number

/-- `BIT(event->event) & event_mask`. -/
def Admits (mask : BitVec 64) (e : CmEventType) : Prop := bit e.number &&& mask ≠ 0

instance (mask : BitVec 64) (e : CmEventType) : Decidable (Admits mask e) :=
  inferInstanceAs (Decidable (_ ≠ _))

theorem admits_clientMask {e : CmEventType} :
    Admits clientMask e ↔ e = .addrResolved ∨ e = .routeResolved ∨ e = .established := by
  cases e <;> decide

theorem admits_serverMask {e : CmEventType} :
    Admits serverMask e ↔ e = .connectRequest ∨ e = .established ∨ e = .disconnected := by
  cases e <;> decide

/-! ## Calls -/

/-- `struct rdma_conn_param`. -/
structure ConnParam where
  priv : ConnPriv
  responderResources : ℕ
  initiatorDepth : ℕ
  retryCount : ℕ
  rnrRetryCount : ℕ

/-- `enum ibv_qp_state`, as far as the DCIs go through it. -/
inductive QpState
  | init
  | rtr
  | rts

/-- `struct ibv_port_attr`. -/
structure PortAttr where
  ethernet : Bool
  activeMtu : ℕ

/-- `struct ibv_exp_dct_init_attr`, less the objects of the connection. -/
structure DctAttr where
  cq : Option Handle
  srq : Option Handle
  mtu : ℕ
  minRnrTimer : ℕ
  tclass : ℕ
  hopLimit : ℕ
  gidIndex : ℕ

/-- The attributes of a queue pair that the options decide. -/
structure QpAttr where
  cq : Option Handle
  srq : Option Handle
  maxSendWr : ℕ
  maxRecvWr : ℕ
  maxSendSge : ℕ
  maxRecvSge : ℕ
  maxInlineData : ℕ

/-- `struct ibv_ah_attr`. -/
structure AhAttr where
  dgid : ℕ
  sgidIndex : ℕ
  hopLimit : ℕ
  trafficClass : ℕ
  sl : ℕ

/-- A call to a library, with its arguments; `id` stands for the device and the protection domain
of the connection it belongs to. -/
inductive Verb
  | createEventChannel
  | callocConns (n : ℕ)
  | gethostbyname (name : CString)
  | createId (tcp : Bool)
  | resolveAddr (id : Handle) (timeoutMs : Int)
  | bindAddr (id : Handle) (port : ℕ)
  | listen (id : Handle) (backlog : ℕ)
  | getCmEvent
  | ackCmEvent
  | resolveRoute (id : Handle) (timeoutMs : Int)
  | connect (id : Handle) (param : ConnParam)
  | accept (id : Handle) (param : ConnParam)
  | createCq (id : Handle) (cqe : Int)
  | createSrq (id : Handle) (maxWr maxSge : ℕ)
  | memalign (alignment size : ℕ)
  | regMr (id : Handle) (ptr size : ℕ)
  | postSrqRecv (srq : Option Handle) (addr length lkey : ℕ)
  | createQp (id : Handle) (attr : QpAttr)
  | queryPort (id : Handle)
  | createDct (id : Handle) (attr : DctAttr)
  | expCreateQp (id : Handle) (attr : QpAttr)
  | expModifyQp (qp : Qp) (state : QpState)
  | queryGid (id : Handle) (index : ℕ)
  | createAh (id : Handle) (attr : AhAttr)
  | storeConn (i : ℕ)

/-- What a call answers.  A function that returns `NULL` on failure answers `none`, one that
returns a number answers the number, with what it writes through its last argument. -/
abbrev Reply : Verb → Type
  | .createEventChannel => Option Handle
  | .callocConns _ => Option Handle
  | .gethostbyname _ => Bool
  | .createId _ => Int × Handle
  | .getCmEvent => Int × CmEvent
  | .createCq .. => Option Handle
  | .createSrq .. => Option Handle
  | .memalign .. => ℕ
  | .regMr .. => Option Mr
  | .queryPort _ => Int × PortAttr
  | .createDct .. => Option Dct
  | .expCreateQp .. => Option Qp
  | .queryGid .. => Int × ℕ
  | .createAh .. => Option Handle
  | .storeConn _ => Unit
  | _ => Int

/-- A function of the setup phase. -/
abbrev Setup := StateProg Verb Reply TestContext

/-- One call of the setup phase. -/
abbrev verb (v : Verb) : Setup (Reply v) := perform v

/-- `sizeof(packet_t)`. -/
def packetSize : ℕ := 8

/-! ## Buffers and queues -/

/-- `init_buffer`, for the buffer that `buf` reads from the context and `set` writes there. -/
def initBuffer (id : Handle) (size : ℕ) (buf : TestContext → Buffer)
    (set : Buffer → TestContext → TestContext) : Setup Int := do
  let ctx ← get
  if (buf ctx).ptr ≠ 0 then return 0
  let ptr ← verb (.memalign 4096 size)
  modify (set { buf ctx with ptr := ptr })
  if ptr = 0 then return -1
  let mr ← verb (.regMr id ptr size)
  modify (set { ptr := ptr, mr := mr })
  if mr.isNone then return -1
  return 0

/-- The loop of `post_receives`, from the index `i` on. -/
def postReceivesFrom (ptr lkey : ℕ) : ℕ → ℕ → Setup Int
  | _, 0 => return 0
  | i, left + 1 => do
      let ctx ← get
      let ret ← verb (.postSrqRecv ctx.srq (ptr + i * packetSize) packetSize lkey)
      if ret ≠ 0 then return ret
      postReceivesFrom ptr lkey (i + 1) left

/-- `post_receives`. -/
def postReceives : Setup Int := do
  let ctx ← get
  match ctx.recvBuf.mr with
  | none => StateProg.halt
  | some mr => do
      let ret ← postReceivesFrom ctx.recvBuf.ptr mr.lkey 0 ctx.recvAvailable
      if ret ≠ 0 then return ret
      modify fun ctx => { ctx with recvAvailable := 0 }
      return 0

/-- The attributes of the queue pairs, with the inline data they can carry. -/
def qpAttr (o : Options) (ctx : TestContext) (maxInlineData : ℕ) : QpAttr where
  cq := ctx.cq
  srq := ctx.srq
  maxSendWr := o.txQueueLen % 2 ^ 32
  maxRecvWr := o.rxQueueLen % 2 ^ 32
  maxSendSge := o.maxSendSge
  maxRecvSge := o.maxRecvSge
  maxInlineData := maxInlineData

/-- The loop of `init_dc_qps`, over the DCIs still to create. -/
def initDcis (o : Options) (id : Handle) : List (Fin numDci) → Setup Int
  | [] => do
      modify fun ctx => { ctx with freeDciBitmap := BitVec.allOnes 64 }
      return 0
  | i :: is => do
      let ctx ← get
      let qp ← verb (.expCreateQp id (qpAttr o ctx packetSize))
      modify fun ctx => { ctx with dcis := Function.update ctx.dcis i qp }
      match qp with
      | none => return -1
      | some qp => do
          let ret ← verb (.expModifyQp qp .init)
          if ret ≠ 0 then return -1
          let ret ← verb (.expModifyQp qp .rtr)
          if ret ≠ 0 then return -1
          let ret ← verb (.expModifyQp qp .rts)
          if ret ≠ 0 then return -1
          modify fun ctx => { ctx with dciOutstanding := Function.update ctx.dciOutstanding i 0 }
          initDcis o id is

/-- The attributes of the DCT. -/
def dctAttr (o : Options) (ctx : TestContext) (port : PortAttr) : DctAttr where
  cq := ctx.cq
  srq := ctx.srq
  mtu := port.activeMtu
  minRnrTimer := o.minRnrTimer
  tclass := o.trafficClass
  hopLimit := o.hopLimit
  gidIndex := o.gidIndex

/-- `init_dc_qps`. -/
def initDcQps (o : Options) (id : Handle) : Setup Int := do
  let ctx ← get
  if ctx.dct.isSome then return 0
  let (ret, port) ← verb (.queryPort id)
  if ret ≠ 0 then return ret
  if port.ethernet = false then return -1
  let dct ← verb (.createDct id (dctAttr o ctx port))
  modify fun ctx => { ctx with dct := dct }
  if dct.isNone then return -1
  initDcis o id (List.finRange numDci)

/-- The completion queue, created with the first connection. -/
def createCq (o : Options) (id : Handle) : Setup Int := do
  let ctx ← get
  if ctx.cq.isSome then return 0
  let cq ← verb (.createCq id (toInt32 (o.txQueueLen + o.rxQueueLen)))
  modify fun ctx => { ctx with cq := cq }
  if cq.isNone then return -1
  return 0

/-- The shared receive queue, created with the first connection. -/
def createSrq (o : Options) (id : Handle) : Setup Int := do
  let ctx ← get
  if ctx.srq.isSome then return 0
  let srq ← verb (.createSrq id (o.rxQueueLen % 2 ^ 32) (o.maxRecvSge % 2 ^ 32))
  modify fun ctx => { ctx with srq := srq }
  if srq.isNone then return -1
  modify fun ctx => { ctx with recvAvailable := o.rxQueueLen % 2 ^ 32 }
  return 0

/-- The end of `init_transport`: the queue pair of the connection, or the DC objects. -/
def createQps (o : Options) (id : Handle) : Setup Int := do
  match o.transport with
  | .rc => do
      let ctx ← get
      verb (.createQp id (qpAttr o ctx 0))
  | .dc => initDcQps o id

/-- `init_transport`. -/
def initTransport (o : Options) (event : CmEvent) : Setup Int := do
  let ret ← createCq o event.id
  if ret ≠ 0 then return ret
  let ret ← createSrq o event.id
  if ret ≠ 0 then return ret
  let ret ← initBuffer event.id (o.rxQueueLen * packetSize) TestContext.recvBuf
    fun buf ctx => { ctx with recvBuf := buf }
  if ret ≠ 0 then return ret
  let ret ← initBuffer event.id (o.numConnections * o.rdmaReadSize) TestContext.rdmaBuf
    fun buf ctx => { ctx with rdmaBuf := buf }
  if ret ≠ 0 then return ret
  let ret ← postReceives
  if ret ≠ 0 then return ret
  createQps o event.id

/-! ## Connections -/

/-- `get_conn_param`: the parameters, or the value it fails with. -/
def getConnParam (o : Options) (id : Handle) (connIndex : ℕ) : Setup (Except Int ConnParam) := do
  let ctx ← get
  match ctx.rdmaBuf.mr with
  | none => StateProg.halt
  | some mr =>
      let priv : ConnPriv := {
        connIndex := connIndex
        rkey := mr.rkey
        virtAddr := (ctx.rdmaBuf.ptr + connIndex * o.rdmaReadSize) % 2 ^ 64 }
      let param (priv : ConnPriv) : ConnParam := {
        priv := priv
        responderResources := o.maxRdAtomic % 2 ^ 8
        initiatorDepth := o.maxRdAtomic % 2 ^ 8
        retryCount := o.xportRetryCnt % 2 ^ 8
        rnrRetryCount := o.rnrRetry % 2 ^ 8 }
      match o.transport with
      | .rc => return .ok (param priv)
      | .dc =>
          match ctx.dct with
          | none => StateProg.halt
          | some dct => do
              let (ret, gid) ← verb (.queryGid id o.gidIndex)
              if ret ≠ 0 then return .error ret
              return .ok (param { priv with dctNum := dct.dctNum, gid := gid })

/-- `set_conn_param`, for `conns[i]`. -/
def setConnParam (o : Options) (i : ℕ) (event : CmEvent) : Setup Int := do
  modify fun ctx => ctx.setConn i fun c =>
    { c with remoteAddr := event.priv.virtAddr, rkey := event.priv.rkey }
  match o.transport with
  | .rc => return 0
  | .dc => do
      let ah ← verb (.createAh event.id
        { dgid := event.priv.gid
          sgidIndex := o.gidIndex
          hopLimit := o.hopLimit
          trafficClass := o.trafficClass
          sl := o.sl })
      modify fun ctx => ctx.setConn i fun c => { c with dcAh := ah }
      if ah.isNone then return -1
      modify fun ctx => ctx.setConn i fun c => { c with remoteDctn := event.priv.dctNum }
      return 0

/-- `add_connection`: the index of the new connection, or `none` for `NULL`. -/
def addConnection (o : Options) (event : CmEvent) : Setup (Option ℕ) := do
  let ctx ← get
  let i := ctx.numConns
  verb (.storeConn i)
  modify fun ctx => ctx.setConn i fun c => { c with rdmaId := event.id }
  let ret ← setConnParam o i event
  if ret ≠ 0 then return none
  modify fun ctx => { ctx with numConns := incr 32 ctx.numConns }
  return some i

/-- `++g_test.num_established`. -/
def countEstablished : Setup Unit :=
  modify fun ctx => { ctx with numEstablished := incr 32 ctx.numEstablished }

/-- The end of `handle_connect_request`, for the connection `conns[i]`. -/
def acceptConnection (o : Options) (event : CmEvent) (i : ℕ) : Setup Int := do
  match ← getConnParam o event.id i with
  | .error ret => return ret
  | .ok param => do
      let ret ← verb (.accept event.id param)
      if ret ≠ 0 then return -1
      match o.transport with
      | .rc => return 0
      | .dc => do
          countEstablished
          return 0

/-- `handle_connect_request`. -/
def handleConnectRequest (o : Options) (event : CmEvent) : Setup Int := do
  let ret ← initTransport o event
  if ret ≠ 0 then return ret
  match ← addConnection o event with
  | none => return -1
  | some i => acceptConnection o event i

/-- `handle_established`. -/
def handleEstablished (o : Options) (event : CmEvent) : Setup Int := do
  if o.isClient then
    match ← addConnection o event with
    | none => return -1
    | some _ => do
        countEstablished
        return 0
  else do
    countEstablished
    return 0

/-- The case of `RDMA_CM_EVENT_ROUTE_RESOLVED`.  Where it fails after `init_transport` it returns
without acknowledging the event; the flag says whether the event is acknowledged. -/
def handleRouteResolved (o : Options) (event : CmEvent) : Setup (Int × Bool) := do
  let ret ← initTransport o event
  if ret ≠ 0 then return (ret, true)
  match ← getConnParam o event.id 0 with
  | .error ret => return (ret, false)
  | .ok param => do
      let ret ← verb (.connect event.id param)
      if ret ≠ 0 then return (-1, false)
      return (0, true)

/-- The `switch` of `wait_and_process_one_event`, with the same flag. -/
def processEvent (o : Options) (event : CmEvent) : Setup (Int × Bool) := do
  match event.type with
  | .addrResolved => do
      let ret ← verb (.resolveRoute event.id o.connTimeoutMs)
      return (ret, true)
  | .routeResolved => handleRouteResolved o event
  | .connectRequest => do
      let ret ← handleConnectRequest o event
      return (ret, true)
  | .established => do
      let ret ← handleEstablished o event
      return (ret, true)
  | .disconnected => do
      modify fun ctx => { ctx with numDisconnect := incr 32 ctx.numDisconnect }
      return (0, true)
  | _ => return (0, true)

/-- `wait_and_process_one_event`. -/
def waitAndProcessOneEvent (o : Options) (mask : BitVec 64) : Setup Int := do
  let (ret, event) ← verb .getCmEvent
  if ret ≠ 0 then return -1
  if ¬ Admits mask event.type then do
    let _ ← verb .ackCmEvent
    return -1
  else do
    let (ret, acked) ← processEvent o event
    if acked = false then return ret
    let ack ← verb .ackCmEvent
    if ret ≠ 0 then return ret
    return ack

/-! ## The two roles -/

/-- `init_test`. -/
def initTest (o : Options) : Setup Int := do
  let ch ← verb .createEventChannel
  modify fun ctx => { ctx with eventCh := ch }
  if ch.isNone then return -1
  let conns ← verb (.callocConns o.numConnections)
  if conns.isNone then return -1
  return 0

/-- `while (num_established < num_connections) wait_and_process_one_event(mask)`. -/
def waitConnections (o : Options) (mask : BitVec 64) : ℕ → Setup Int
  | 0 => StateProg.halt
  | fuel + 1 => do
      let ctx ← get
      if ctx.numEstablished < o.numConnections then do
        let ret ← waitAndProcessOneEvent o mask
        if ret ≠ 0 then return ret
        waitConnections o mask fuel
      else return 0

/-- `run_server` up to `do_rdma_reads`, with the queue lengths already raised. -/
def serverSetup (o : Options) (fuel : ℕ) : Setup Int := do
  let (ret, id) ← verb (.createId (o.transport = .rc))
  if ret ≠ 0 then return ret
  modify fun ctx => { ctx with listenCmId := some id }
  let ret ← verb (.bindAddr id o.portNum)
  if ret ≠ 0 then return ret
  let ret ← verb (.listen id o.connBacklog)
  if ret ≠ 0 then return ret
  waitConnections o serverMask fuel

/-- The loop of `run_client` that starts the connections. -/
def resolveAddrs (o : Options) : ℕ → Setup Int
  | 0 => return 0
  | left + 1 => do
      let (ret, id) ← verb (.createId (o.transport = .rc))
      if ret ≠ 0 then return ret
      let ret ← verb (.resolveAddr id o.connTimeoutMs)
      if ret ≠ 0 then return -1
      resolveAddrs o left

/-- `run_client` up to `disconnect`. -/
def clientSetup (o : Options) (fuel : ℕ) : Setup Int := do
  let found ← verb (.gethostbyname o.destAddress)
  if found = false then return -1
  let ret ← resolveAddrs o o.numConnections
  if ret ≠ 0 then return ret
  waitConnections o clientMask fuel

/-- The setup phase of `main`. -/
def setup (o : Options) (fuel : ℕ) : Setup Int := do
  let ret ← initTest o
  if ret ≠ 0 then return ret
  if o.isClient then clientSetup o fuel else serverSetup o.raiseQueueLens fuel

end RdmaFc
