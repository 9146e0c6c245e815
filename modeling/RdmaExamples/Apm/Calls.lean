import RdmaExamples.Library.Programs

/-!
# The calls of apm

What `apm.c` calls, what the calls may answer, and the context that its functions share.  The two
hosts run the same program, as server and as client.

Endpoints and regions are numbers, which the calls that create them hand out; the calls that destroy
them name them.  Nothing says that two numbers are different: where a result needs that, it asks for
it.  The list of addresses is local to one function, and there is one of it, so it has no number.

`rdma_connect` and `rdma_get_request` leave an event in the id; its private data is as long as the
transport makes it.  The two bytes of the stack behind `private_data` are sent with it.  What is
printed, the asynchronous events, and the two buffers with the contents of the messages are left
out.

A send or a receive that completes comes with its status (`Completion`).  The program looks at the
return value only, so that a message that failed on the way is answered with a return value that
says nothing of it.
-/

namespace Apm

open Programs

/-- A return value other than `0`. -/
structure Failure where
  value : Int
  ne : value ≠ 0

/-- `enum ibv_port_state`. -/
inductive PortState
  | nop
  | down
  | init
  | armed
  | active
  | activeDefer
  deriving DecidableEq

/-- `struct ibv_port_attr`. -/
structure PortAttr where
  state : PortState
  lid : UInt16
  deriving DecidableEq

/-- `struct ibv_device_attr`. -/
structure DeviceAttr where
  deviceCapFlags : UInt32
  physPortCnt : UInt8

/-- `IBV_DEVICE_AUTO_PATH_MIG`. -/
def autoPathMig : UInt32 := 0x10

/-- `struct ibv_qp_attr`, for the path in use. -/
structure QpAttr where
  portNum : UInt8
  dlid : UInt16
  pkeyIndex : UInt16
  timeout : UInt8

/-- `struct ibv_qp_attr`, for the alternate path. -/
structure AltPath where
  altPortNum : UInt8
  altDlid : UInt16
  altPkeyIndex : UInt16
  altTimeout : UInt8
  deriving DecidableEq

/-- The events that apm knows. -/
inductive CmEventType
  | connectRequest
  | established
  | other
  deriving DecidableEq

/-- `struct rdma_cm_event`. -/
structure CmEvent where
  event : CmEventType
  privateData : List UInt8

/-- What `rdma_get_request` hands out: the endpoint of the connection, and the event in it. -/
structure ConnRequest where
  id : ℕ
  event : CmEvent

/-- What `rdma_get_send_comp` and `rdma_get_recv_comp` come back with: how many completions there
were, or `-1`, and whether the status in the completion is `IBV_WC_SUCCESS`. -/
structure Completion where
  ret : Int
  success : Bool
  deriving DecidableEq

/-- There is a completion, and it tells of success. -/
def Completion.good (comp : Completion) : Bool := decide (0 < comp.ret) && comp.success

/-- A call, with its arguments. -/
inductive Call
  | getaddrinfo (node : Option (List UInt8)) (service : List UInt8) (passive : Bool)
  | createEp
  | freeaddrinfo
  | listen
  | getRequest
  | queryDevice
  | queryQp
  | queryPort (port : ℕ)
  | pthreadCreate
  | regMsgs (length : Int)
  | postRecv (length : Int)
  | uninitialised
  | accept (privateData : List UInt8)
  | connect (privateData : List UInt8)
  | loadPath (path : AltPath)
  | migrate
  | postSend (length : Int)
  | getSendComp
  | getRecvComp
  | nanosleep
  | disconnect
  | deregMr (mr : ℕ)
  | destroyEp (id : ℕ)

/-- What a call answers. -/
abbrev Reply : Call → Type
  | .createEp => Except Failure ℕ
  | .getRequest => Except Failure ConnRequest
  | .connect _ => Except Failure CmEvent
  | .queryDevice => Except Failure DeviceAttr
  | .queryQp => Except Failure QpAttr
  | .queryPort _ => Except Failure PortAttr
  | .regMsgs _ => Option ℕ
  | .getSendComp => Completion
  | .getRecvComp => Completion
  | .uninitialised => UInt8 × UInt8
  | .freeaddrinfo => Unit
  | .pthreadCreate => Unit
  | .nanosleep => Unit
  | .disconnect => Unit
  | .deregMr _ => Unit
  | .destroyEp _ => Unit
  | _ => Int

/-- The calls of a run, with their replies. -/
abbrev Trace := List (Event Call Reply)

/-- `struct context`; a pointer is `NULL`, or names an endpoint or a region. -/
structure Context where
  server : Bool := false
  serverName : Option (List UInt8) := none
  serverPort : List UInt8 := [53, 49, 50, 49, 54]
  msgCount : Int := 100
  msgLength : Int := 1000000
  msecDelay : Int := 500
  altSrcport : UInt8 := 0
  altDlid : UInt16 := 0
  myAltDlid : UInt16 := 0
  migrateAfter : Int := -1
  id : Option ℕ := none
  listenId : Option ℕ := none
  sendMr : Option ℕ := none
  recvMr : Option ℕ := none
  deriving DecidableEq

/-- A function of apm. -/
abbrev ApmM := StateProg Call Reply Context

/-- One call. -/
abbrev call (c : Call) : ApmM (Reply c) := perform c

end Apm
