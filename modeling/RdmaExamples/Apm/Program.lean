import RdmaExamples.Apm.Calls

/-!
# The program of apm

The functions of `apm.c`, from the checks on the options on.  `load_alt_path` has no `return` at its
end; it returns `0` here, as its header says.

A function that is left early in the source is one definition with the same order of calls; where a
`goto` or a `break` skips a part, the part is a definition of its own (`transfer`, `exchange`), so
that a result about it can be stated without what comes before.
-/

namespace Apm

open Programs

/-! ## The alternate path -/

/-- `htons`, as the two bytes that it leaves in memory. -/
def htons (x : UInt16) : List UInt8 := [UInt8.ofNat (x.toNat / 256), UInt8.ofNat (x.toNat % 256)]

/-- `ntohs`, of two bytes in memory. -/
def ntohs (hi lo : UInt8) : UInt16 := UInt16.ofNat (256 * hi.toNat + lo.toNat)

/-- `get_alt_dlid_from_private_data`. -/
def getAltDlidFromPrivateData (event : CmEvent) : Option UInt16 :=
  if event.privateData.length < 4 then none
  else some (ntohs (event.privateData.getD 0 0) (event.privateData.getD 1 0))

/-- The loop of `get_alt_port_details`, with as many ports to go as the first argument says. -/
def altPortLoop (qpAttr : QpAttr) : ℕ → ℕ → ApmM Int
  | 0, _ => return 0
  | n + 1, i => do
      match ← call (.queryPort i) with
      | .error e => return e.value
      | .ok portAttr =>
          if portAttr.state = .active then do
            modify fun ctx => { ctx with myAltDlid := portAttr.lid, altSrcport := UInt8.ofNat i }
            if qpAttr.portNum.toNat ≠ i then return 0
            altPortLoop qpAttr n (i + 1)
          else altPortLoop qpAttr n (i + 1)

/-- `get_alt_port_details`.  The flags are combined with `|`, so that the test is never true. -/
def getAltPortDetails : ApmM Int := do
  match ← call .queryDevice with
  | .error e => return e.value
  | .ok devAttr =>
      if devAttr.deviceCapFlags ||| autoPathMig = 0 then return -1
      match ← call .queryQp with
      | .error e => return e.value
      | .ok qpAttr => altPortLoop qpAttr devAttr.physPortCnt.toNat 1

/-- The alternate path that `load_alt_path` makes of the path in use. -/
def altPath (ctx : Context) (qpAttr : QpAttr) : AltPath where
  altPortNum := if ctx.altSrcport ≠ 0 then ctx.altSrcport else qpAttr.portNum
  altDlid := if ctx.altDlid ≠ 0 then ctx.altDlid else qpAttr.dlid
  altPkeyIndex := qpAttr.pkeyIndex
  altTimeout := qpAttr.timeout

/-- `load_alt_path`. -/
def loadAltPath : ApmM Int := do
  match ← call .queryQp with
  | .error e => return e.value
  | .ok qpAttr => do
      let ctx ← get
      call (.loadPath (altPath ctx qpAttr))

/-! ## The connection -/

/-- `reg_mem`. -/
def regMem : ApmM Int := do
  let ctx ← get
  let sendMr ← call (.regMsgs ctx.msgLength)
  modify fun ctx => { ctx with sendMr := sendMr }
  if sendMr = none then return -1
  let recvMr ← call (.regMsgs ctx.msgLength)
  modify fun ctx => { ctx with recvMr := recvMr }
  if recvMr = none then return -1
  return 0

/-- `getaddrinfo_and_create_ep`.  Where `rdma_create_ep` fails, the addresses are not freed. -/
def getaddrinfoAndCreateEp : ApmM Int := do
  let ctx ← get
  let ret ← call (.getaddrinfo ctx.serverName ctx.serverPort ctx.server)
  if ret ≠ 0 then return ret
  match ← call .createEp with
  | .error e => return e.value
  | .ok id => do
      modify fun ctx => { ctx with id := some id }
      call .freeaddrinfo
      return 0

/-- `get_connect_request`.  `rdma_get_request` writes `id` only where it succeeds. -/
def getConnectRequest : ApmM Int := do
  let ret ← call .listen
  if ret ≠ 0 then return ret
  modify fun ctx => { ctx with listenId := ctx.id }
  match ← call .getRequest with
  | .error e => return e.value
  | .ok request => do
      modify fun ctx => { ctx with id := some request.id }
      if request.event.event ≠ .connectRequest then return 0
      let ctx ← get
      if ctx.altDlid = 0 ∧ ctx.altSrcport = 0 then
        match getAltDlidFromPrivateData request.event with
        | none => return -1
        | some dlid => do
            modify fun ctx => { ctx with altDlid := dlid }
            return 0
      else return 0

/-- `establish_connection`, on the client, from `rdma_connect` on. -/
def connectClient (privateData : List UInt8) : ApmM Int := do
  match ← call (.connect privateData) with
  | .error e => return e.value
  | .ok event =>
      if event.event ≠ .established then return -1
      let ctx ← get
      if ctx.altDlid = 0 ∧ ctx.altSrcport = 0 then
        match getAltDlidFromPrivateData event with
        | none => return -1
        | some dlid => do
            modify fun ctx => { ctx with altDlid := dlid }
            return 0
      else return 0

/-- `establish_connection`.  The private data is as long as an `int`, and holds two bytes. -/
def establishConnection : ApmM Int := do
  let ctx ← get
  let ret ← call (.postRecv ctx.msgLength)
  if ret ≠ 0 then return ret
  let rest ← call .uninitialised
  let privateData := htons ctx.myAltDlid ++ [rest.1, rest.2]
  if ctx.server = true then call (.accept privateData)
  else connectClient privateData

/-! ## The messages -/

/-- `send_msg`.  What is tested is how many completions there were; the status in the completion is
not looked at. -/
def sendMsg : ApmM Int := do
  let ctx ← get
  let ret ← call (.postSend ctx.msgLength)
  if ret ≠ 0 then return ret
  let comp ← call .getSendComp
  if comp.ret < 0 then return comp.ret
  return 0

/-- `recv_msg`, which does not look at the status either. -/
def recvMsg : ApmM Int := do
  let ctx ← get
  let comp ← call .getRecvComp
  if comp.ret < 0 then return comp.ret
  let ret ← call (.postRecv ctx.msgLength)
  if ret ≠ 0 then return ret
  return 0

/-- The counters of `main`. -/
structure Counts where
  sendCnt : ℕ
  recvCnt : ℕ
  deriving DecidableEq

/-- How a part of the message loop ends: it goes on, with `break`, or with `goto out`. -/
inductive Flow
  | next
  | broke
  | out (ret : Int)
  deriving DecidableEq

/-- One part of the message loop after the other. -/
def andThen (m : ApmM (Flow × Counts)) (f : Counts → ApmM (Flow × Counts)) :
    ApmM (Flow × Counts) := do
  let (flow, counts) ← m
  if flow = .next then f counts else return (flow, counts)

/-- A part of the message loop that receives, if it is the server's or the client's turn. -/
def recvPart (turn : Bool) (counts : Counts) : ApmM (Flow × Counts) := do
  if turn = false then return (.next, counts)
  let ret ← recvMsg
  if ret ≠ 0 then return (.broke, counts)
  return (.next, { counts with recvCnt := counts.recvCnt + 1 })

/-- The part that waits and sends. -/
def sendPart (counts : Counts) : ApmM (Flow × Counts) := do
  call .nanosleep
  let ret ← sendMsg
  if ret ≠ 0 then return (.broke, counts)
  return (.next, { counts with sendCnt := counts.sendCnt + 1 })

/-- The part that migrates the path by hand. -/
def migratePart (ctx : Context) (i : Int) (counts : Counts) : ApmM (Flow × Counts) := do
  if ¬ (ctx.server = false ∧ i = ctx.migrateAfter) then return (.next, counts)
  let ret ← call .migrate
  if ret ≠ 0 then return (.out ret, counts)
  return (.next, counts)

/-- The body of the message loop. -/
def messageRound (ctx : Context) (i : Int) (counts : Counts) : ApmM (Flow × Counts) :=
  andThen (recvPart ctx.server counts) fun counts =>
    andThen (sendPart counts) fun counts =>
      andThen (recvPart (!ctx.server) counts) fun counts => migratePart ctx i counts

/-- The message loop, with as many rounds to go as the first argument says. -/
def messageLoop (ctx : Context) : ℕ → Int → Counts → ApmM (Flow × Counts)
  | 0, _, counts => return (.next, counts)
  | n + 1, i, counts => andThen (messageRound ctx i counts) (messageLoop ctx n (i + 1))

/-- The message loop of `main`, from its start. -/
def messages : ApmM (Flow × Counts) := do
  let ctx ← get
  messageLoop ctx ctx.msgCount.toNat 0 ⟨0, 0⟩

/-! ## The program -/

/-- The part of `main` that waits for the client. -/
def requestPart : ApmM Int := do
  let ctx ← get
  if ctx.server = true then getConnectRequest else return 0

/-- The part of `main` that looks for an alternate port. -/
def portPart : ApmM Int := do
  let ctx ← get
  if ctx.altDlid = 0 ∧ ctx.altSrcport = 0 then getAltPortDetails else return 0

/-- `main`, up to `reg_mem`: with a result other than `0` it goes to `out`. -/
def prepare : ApmM Int := do
  let ret ← getaddrinfoAndCreateEp
  if ret ≠ 0 then return ret
  let ret ← requestPart
  if ret ≠ 0 then return ret
  let ret ← portPart
  if ret ≠ 0 then return ret
  call .pthreadCreate
  regMem

/-- What a pointer names is released, if it is not `NULL`. -/
def release (c : ℕ → Call) : Option ℕ → ApmM Unit
  | none => return ()
  | some h => do
      let _ ← call (c h)
      return ()

/-- The end of `main`, from `out` on. -/
def cleanup : ApmM Unit := do
  let ctx ← get
  release .deregMr ctx.sendMr
  release .deregMr ctx.recvMr
  release .destroyEp ctx.id
  release .destroyEp ctx.listenId

/-- `main`, from `load_alt_path` to the end of the message loop. -/
def transfer : ApmM (Flow × Counts) := do
  let ret ← loadAltPath
  if ret ≠ 0 then return (.out ret, ⟨0, 0⟩)
  messages

/-- `main`, from `load_alt_path` up to `out`. -/
def exchange : ApmM Int := do
  let (flow, _) ← transfer
  match flow with
  | .out ret => return ret
  | _ => do
      call .disconnect
      return 0

/-- `main`, behind the checks on the options.  What `establish_connection` returns is lost. -/
def main : ApmM Int := do
  let ret ← prepare
  if ret ≠ 0 then do
    cleanup
    return ret
  let _ ← establishConnection
  let ret ← exchange
  cleanup
  return ret

end Apm
