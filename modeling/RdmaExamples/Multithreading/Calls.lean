import RdmaExamples.Library.ByteStrings
import RdmaExamples.Library.Programs

/-!
# The calls of the multithreading example

What `local.cc` and `remote.cc` call, and what the calls may answer.  Both programs keep one static
buffer to send from and one to receive into; the stores and loads there are calls as well, since the
devices read and write the same bytes.  So are the accesses to `local_mr`, which the threads of the
local program share.

What is printed, and the record `wc`, which is only printed, are left out.
-/

namespace Multithreading

open Programs

/-- `BUFFER_SIZE`. -/
def bufferSize : ℕ := 16

/-- The size of `buff_arr` and of `mr_arr`. -/
def arrSize : ℕ := 100

/-- `NUM_THREADS`. -/
def numThreads : ℕ := 2

/-- `enum COMM_CODE`. -/
inductive CommCode
  | begin
  | regMr
  | exit
  | test
  deriving DecidableEq

/-- The value of a code. -/
def CommCode.value : CommCode → ℕ
  | .begin => 0
  | .regMr => 1
  | .exit => 2
  | .test => 10

/-- The code that a byte stands for, if it stands for one. -/
def CommCode.ofByte (b : UInt8) : Option CommCode :=
  if b = 0 then some .begin
  else if b = 1 then some .regMr
  else if b = 2 then some .exit
  else if b = 10 then some .test
  else none

/-- `struct ibv_mr`. -/
structure Mr where
  addr : UInt64
  length : UInt64
  rkey : UInt32
  deriving DecidableEq

/-- What the remote side tells of a region. -/
structure Handle where
  rkey : UInt32
  addr : UInt64
  deriving DecidableEq

/-- The handle of a region. -/
def Mr.handle (mr : Mr) : Handle := ⟨mr.rkey, mr.addr⟩

/-- `IBV_ACCESS_LOCAL_WRITE`. -/
def accessLocalWrite : UInt32 := 1

/-- `IBV_ACCESS_REMOTE_WRITE`. -/
def accessRemoteWrite : UInt32 := 2

/-- `IBV_ACCESS_REMOTE_READ`. -/
def accessRemoteRead : UInt32 := 4

/-- A call, with its arguments. -/
inductive Call
  | storeSend (off : ℕ) (bytes : List UInt8)
  | clearRecv
  | loadRecv (off n : ℕ)
  | storeHandle (handle : Handle)
  | postSend
  | getSendComp
  | postRecv
  | getRecvComp
  | malloc (size : UInt64)
  | regMr (addr length : UInt64) (access : UInt32)
  | storeBuff (index : ℕ) (addr : UInt64)
  | storeMr (index : ℕ) (mr : Option Mr)
  | setLocalMr (mr : Option Mr)
  | getLocalMr
  | memset (addr : UInt64) (value : UInt8) (size : ℕ)
  | strcpy (addr : UInt64) (bytes : List UInt8)
  | load (addr : UInt64) (n : ℕ)
  | postWrite (addr length : UInt64) (mr : Option Mr) (remote : Handle)
  | postRead (addr length : UInt64) (mr : Option Mr) (remote : Handle)
  | pollCq
  | spawn (index : ℕ)
  | join (index : ℕ)
  | threadEnd
  | disconnect
  | deregMr (mr : Option Mr)
  | deregSendMsg
  | deregRecvMsg
  | destroyEp
  | destroyListenEp
  | freeaddrinfo
  | segfault
  | exit (status : Int)

/-- What a call answers. -/
abbrev Reply : Call → Type
  | .loadRecv _ _ => List UInt8
  | .load _ _ => List UInt8
  | .malloc _ => UInt64
  | .regMr _ _ _ => Option Mr
  | .getLocalMr => Option Mr
  | .postSend => Int
  | .getSendComp => Int
  | .postRecv => Int
  | .getRecvComp => Int
  | .postWrite _ _ _ _ => Int
  | .postRead _ _ _ _ => Int
  | .pollCq => Int
  | .deregMr _ => Int
  | _ => Unit

/-- The calls of a run, with their replies. -/
abbrev Trace := List (Event Call Reply)

/-- One call. -/
abbrev call {σ : Type} (c : Call) : StateProg Call Reply σ (Reply c) := perform c

/-- The calls with which a program goes down. -/
def Call.Teardown : Call → Prop
  | .disconnect => True
  | .deregMr _ => True
  | .deregSendMsg => True
  | .deregRecvMsg => True
  | .destroyEp => True
  | .destroyListenEp => True
  | .freeaddrinfo => True
  | .exit _ => True
  | _ => False

/-- The replies of verbs that do not fail, where a load finds `bytes`, `malloc` returns `addr` and
`local_mr` is `mr`. -/
def goodReply (bytes : List UInt8) (addr : UInt64) (mr : Option Mr) : (c : Call) → Reply c
  | .loadRecv _ _ => bytes
  | .load _ _ => bytes
  | .malloc _ => addr
  | .regMr addr length _ => some ⟨addr, length, 7⟩
  | .getLocalMr => mr
  | .postSend => (0 : Int)
  | .getSendComp => (1 : Int)
  | .postRecv => (0 : Int)
  | .getRecvComp => (1 : Int)
  | .postWrite _ _ _ _ => (0 : Int)
  | .postRead _ _ _ _ => (0 : Int)
  | .pollCq => (1 : Int)
  | .deregMr _ => (0 : Int)
  | .storeSend _ _ => ()
  | .clearRecv => ()
  | .storeHandle _ => ()
  | .storeBuff _ _ => ()
  | .storeMr _ _ => ()
  | .setLocalMr _ => ()
  | .memset _ _ _ => ()
  | .strcpy _ _ => ()
  | .spawn _ => ()
  | .join _ => ()
  | .threadEnd => ()
  | .disconnect => ()
  | .deregSendMsg => ()
  | .deregRecvMsg => ()
  | .destroyEp => ()
  | .destroyListenEp => ()
  | .freeaddrinfo => ()
  | .segfault => ()
  | .exit _ => ()

/-! ## What both programs do -/

/-- `while ((ret = rdma_get_send_comp(id, &wc)) == 0);` -/
def waitSendComp {σ : Type} : ℕ → StateProg Call Reply σ Int
  | 0 => StateProg.halt
  | fuel + 1 => do
      let ret ← call .getSendComp
      if ret = 0 then waitSendComp fuel else return ret

/-- `while ((ret = rdma_get_recv_comp(id, &wc)) == 0);` -/
def waitRecvComp {σ : Type} : ℕ → StateProg Call Reply σ Int
  | 0 => StateProg.halt
  | fuel + 1 => do
      let ret ← call .getRecvComp
      if ret = 0 then waitRecvComp fuel else return ret

/-- The `n` zeros of a `memset`. -/
def zeros (n : ℕ) : List UInt8 := List.replicate n 0

/-- A code, as the four bytes that it has in memory. -/
def codeBytes (code : CommCode) : List UInt8 := ByteStrings.toBytes 4 code.value

end Multithreading
