import RdmaExamples.RdmaFc.Options

/-!
# The test context

`g_test` and what hangs off it, from `rdma_fc.c`: the connections, the two registered buffers, the
DC initiators with their bitmap, and the counters the event loop and the completion loop share.

A pointer to an object of the verbs library is a `Handle`; a field that may be `NULL` is an
`Option`.  `conns` is the memory from the array's first slot on, so it has a value at every index:
that an index is within the allocation is something to prove, not something the type grants.

Nothing here is specific to one function of the program.  The lemmas say which fields an update
leaves alone; they are simp lemmas, so that no later proof has to unfold an update.
-/

namespace RdmaFc

open MachineWords

/-- `NUM_DCI`. -/
abbrev numDci : ℕ := 8

/-- A pointer the verbs library handed out. -/
abbrev Handle := ℕ

/-- `struct ibv_mr`. -/
structure Mr where
  handle : Handle
  lkey : ℕ
  rkey : ℕ

/-- `buffer_t`; `ptr = 0` is `NULL`. -/
structure Buffer where
  ptr : ℕ := 0
  mr : Option Mr := none

/-- A queue pair. -/
structure Qp where
  handle : Handle
  qpNum : ℕ

/-- `struct ibv_exp_dct`. -/
structure Dct where
  handle : Handle
  dctNum : ℕ

/-- `connection_t`, less its list link: the schedule list is a list of indices. -/
structure Connection where
  rdmaId : Handle := 0
  dcAh : Option Handle := none
  remoteDctn : ℕ := 0
  rkey : ℕ := 0
  remoteAddr : ℕ := 0
  readOffset : ℕ := 0

/-- `packet_t`. -/
structure Packet where
  type : ℕ
  connIndex : ℕ
  deriving DecidableEq

/-- `PACKET_FIN`. -/
def packetFin : ℕ := 2

/-- `conn_priv_t`; `dctNum` and `gid` are for DC only. -/
structure ConnPriv where
  connIndex : ℕ
  dctNum : ℕ := 0
  rkey : ℕ
  virtAddr : ℕ
  gid : ℕ := 0

/-- `test_context_t`.  The defaults are `g_test` before `main` runs. -/
structure TestContext where
  eventCh : Option Handle := none
  listenCmId : Option Handle := none
  cq : Option Handle := none
  srq : Option Handle := none
  recvBuf : Buffer := {}
  rdmaBuf : Buffer := {}
  dct : Option Dct := none
  dcis : Fin numDci → Option Qp := fun _ => none
  dciOutstanding : Fin numDci → ℕ := fun _ => 0
  freeDciBitmap : BitVec 64 := 0
  conns : ℕ → Connection := fun _ => {}
  numConns : ℕ := 0
  numEstablished : ℕ := 0
  numDisconnect : ℕ := 0
  numFinRecvd : ℕ := 0
  recvAvailable : ℕ := 0
  numOutstandingReads : ℕ := 0

namespace TestContext

/-- `conns[i] = f(conns[i])`. -/
def setConn (ctx : TestContext) (i : ℕ) (f : Connection → Connection) : TestContext :=
  { ctx with conns := Function.update ctx.conns i (f (ctx.conns i)) }

/-- `conns[i].read_offset = 0` for every connection there is. -/
def resetOffsets (ctx : TestContext) : TestContext :=
  { ctx with conns := fun i =>
      if i < ctx.numConns then { ctx.conns i with readOffset := 0 } else ctx.conns i }

/-- The counter updates at the end of `post_rdma_read`. -/
def readPosted (ctx : TestContext) (i length : ℕ) : TestContext :=
  { ctx.setConn i fun c => { c with readOffset := (c.readOffset + length) % 2 ^ 64 } with
    numOutstandingReads := incr 64 ctx.numOutstandingReads }

/-- `++dci_outstanding[dci]; free_dci_bitmap &= ~BIT(dci)`. -/
def takeDci (ctx : TestContext) (dci : Fin numDci) : TestContext :=
  { ctx with
    dciOutstanding := Function.update ctx.dciOutstanding dci (incr 32 (ctx.dciOutstanding dci))
    freeDciBitmap := clearBit ctx.freeDciBitmap dci }

/-- `if (--dci_outstanding[dci] == 0) free_dci_bitmap |= BIT(dci)`. -/
def releaseDci (ctx : TestContext) (dci : Fin numDci) : TestContext :=
  let left := decr 32 (ctx.dciOutstanding dci)
  { ctx with
    dciOutstanding := Function.update ctx.dciOutstanding dci left
    freeDciBitmap := if left = 0 then setBit ctx.freeDciBitmap dci else ctx.freeDciBitmap }

section Fields

variable (ctx : TestContext) (i length : ℕ) (f : Connection → Connection) (dci : Fin numDci)

@[simp] lemma setConn_conns : (ctx.setConn i f).conns
    = Function.update ctx.conns i (f (ctx.conns i)) := rfl
@[simp] lemma setConn_numConns : (ctx.setConn i f).numConns = ctx.numConns := rfl
@[simp] lemma resetOffsets_numConns : ctx.resetOffsets.numConns = ctx.numConns := rfl
@[simp] lemma resetOffsets_rdmaBuf : ctx.resetOffsets.rdmaBuf = ctx.rdmaBuf := rfl
@[simp] lemma resetOffsets_numOutstandingReads :
    ctx.resetOffsets.numOutstandingReads = ctx.numOutstandingReads := rfl
@[simp] lemma resetOffsets_dciOutstanding :
    ctx.resetOffsets.dciOutstanding = ctx.dciOutstanding := rfl
@[simp] lemma resetOffsets_freeDciBitmap :
    ctx.resetOffsets.freeDciBitmap = ctx.freeDciBitmap := rfl
@[simp] lemma resetOffsets_dcis : ctx.resetOffsets.dcis = ctx.dcis := rfl
@[simp] lemma resetOffsets_remoteAddr (j : ℕ) :
    (ctx.resetOffsets.conns j).remoteAddr = (ctx.conns j).remoteAddr := by
  simp only [resetOffsets]
  split <;> rfl
@[simp] lemma readPosted_numConns : (ctx.readPosted i length).numConns = ctx.numConns := rfl
@[simp] lemma readPosted_rdmaBuf : (ctx.readPosted i length).rdmaBuf = ctx.rdmaBuf := rfl
@[simp] lemma readPosted_numOutstandingReads :
    (ctx.readPosted i length).numOutstandingReads = incr 64 ctx.numOutstandingReads := rfl
@[simp] lemma readPosted_dciOutstanding :
    (ctx.readPosted i length).dciOutstanding = ctx.dciOutstanding := rfl
@[simp] lemma readPosted_freeDciBitmap :
    (ctx.readPosted i length).freeDciBitmap = ctx.freeDciBitmap := rfl
@[simp] lemma readPosted_dcis : (ctx.readPosted i length).dcis = ctx.dcis := rfl
@[simp] lemma readPosted_remoteAddr (j : ℕ) :
    ((ctx.readPosted i length).conns j).remoteAddr = (ctx.conns j).remoteAddr := by
  simp only [readPosted, setConn, Function.update]
  split <;> simp_all
lemma readPosted_readOffset (j : ℕ) : ((ctx.readPosted i length).conns j).readOffset
    = if j = i then ((ctx.conns i).readOffset + length) % 2 ^ 64
      else (ctx.conns j).readOffset := by
  simp only [readPosted, setConn, Function.update]
  split <;> simp_all
@[simp] lemma takeDci_numConns : (ctx.takeDci dci).numConns = ctx.numConns := rfl
@[simp] lemma takeDci_rdmaBuf : (ctx.takeDci dci).rdmaBuf = ctx.rdmaBuf := rfl
@[simp] lemma takeDci_conns : (ctx.takeDci dci).conns = ctx.conns := rfl
@[simp] lemma takeDci_numOutstandingReads :
    (ctx.takeDci dci).numOutstandingReads = ctx.numOutstandingReads := rfl
@[simp] lemma takeDci_dcis : (ctx.takeDci dci).dcis = ctx.dcis := rfl
@[simp] lemma releaseDci_numConns : (ctx.releaseDci dci).numConns = ctx.numConns := rfl
@[simp] lemma releaseDci_rdmaBuf : (ctx.releaseDci dci).rdmaBuf = ctx.rdmaBuf := rfl
@[simp] lemma releaseDci_conns : (ctx.releaseDci dci).conns = ctx.conns := rfl
@[simp] lemma releaseDci_numOutstandingReads :
    (ctx.releaseDci dci).numOutstandingReads = ctx.numOutstandingReads := rfl
@[simp] lemma releaseDci_dcis : (ctx.releaseDci dci).dcis = ctx.dcis := rfl

end Fields

end TestContext

end RdmaFc
