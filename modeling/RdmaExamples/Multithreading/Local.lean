import RdmaExamples.Library.Monitors
import RdmaExamples.Multithreading.Calls

/-!
# The local program

The functions of `local.cc`.  `request_run` stands for what `local_node_run` does before it starts
its threads, with any sequence of requests in place of the two calls of `reg_new_mr`.

Each thread is the same program, with the number of its own and what it was told of the remote
region.  A loop that waits goes round as often as its fuel says, and where that runs out the
program goes no further; the results are about any fuel.
-/

namespace Multithreading.Local

open Programs ByteStrings

/-- The globals that no function changes any more: `rm_size`, and whether `send_flags` is
`IBV_SEND_INLINE`. -/
structure Globals where
  rmSize : UInt64
  sendInline : Bool

/-- A function of the local program. -/
abbrev LocalM := StateProg Call Reply Globals

/-- `enum DISCONNECT_CODE`. -/
inductive DisconnectCode
  | disconnect
  | deregSend
  | deregRecv
  | destroyAcceptEp
  | destroyListenEp
  | freeAddrinfo

/-! ## `out_func` -/

/-- `out_free_addrinfo`. -/
def outFreeAddrinfo : LocalM Unit := call .freeaddrinfo

/-- `out_destroy_listen_ep`, and what it falls through to. -/
def outDestroyListenEp : LocalM Unit := do
  call .destroyListenEp
  outFreeAddrinfo

/-- `out_destroy_accept_ep`, and what it falls through to. -/
def outDestroyAcceptEp : LocalM Unit := do
  call .destroyEp
  outDestroyListenEp

/-- `out_dereg_recv`, and what it falls through to. -/
def outDeregRecv : LocalM Unit := do
  call .deregRecvMsg
  outDestroyAcceptEp

/-- `out_dereg_send`, and what it falls through to. -/
def outDeregSend : LocalM Unit := do
  let globals ← get
  if globals.sendInline = false then do
    call .deregSendMsg
    outDeregRecv
  else outDeregRecv

/-- `out_disconnect`, and what it falls through to. -/
def outDisconnect : LocalM Unit := do
  call .disconnect
  outDeregSend

/-- The case that `out_func` begins with. -/
def outCase : DisconnectCode → LocalM Unit
  | .disconnect => outDisconnect
  | .deregSend => outDeregSend
  | .deregRecv => outDeregRecv
  | .destroyAcceptEp => outDestroyAcceptEp
  | .destroyListenEp => outDestroyListenEp
  | .freeAddrinfo => outFreeAddrinfo

/-- `out_func`, which does not return. -/
def outFunc {α : Type} (code : DisconnectCode) : LocalM α := do
  outCase code
  call (.exit 1)
  StateProg.halt

section Teardown

open Monitors

variable {G α : Type} {mon : Monitor Call Reply G} {globals : Globals} {g : G}

lemma outDestroyAcceptEp_obeys (hok : Free mon Call.Teardown g) :
    Obeys mon (fun g' _ => g' = g) (outDestroyAcceptEp.run globals) g := by
  refine Obeys.free_bind hok trivial fun _ => ?_
  refine Obeys.free_bind hok trivial fun _ => ?_
  exact Obeys.free hok trivial fun _ => rfl

lemma outDeregSend_obeys (hok : Free mon Call.Teardown g) :
    Obeys mon (fun g' _ => g' = g) (outDeregSend.run globals) g := by
  refine Obeys.get_bind (Obeys.ite (fun _ => ?_) fun _ => ?_)
  · refine Obeys.free_bind hok trivial fun _ => ?_
    exact Obeys.free_bind hok trivial fun _ => outDestroyAcceptEp_obeys hok
  · exact Obeys.free_bind hok trivial fun _ => outDestroyAcceptEp_obeys hok

/-- A way out, where its calls are allowed. -/
lemma outFunc_obeys (hok : Free mon Call.Teardown g) (code : DisconnectCode)
    {Q : G → α × Globals → Prop} : Obeys mon Q ((outFunc code : LocalM α).run globals) g := by
  refine Obeys.bind (Q := fun g' _ => g' = g) ?_ ?_
  · cases code with
    | disconnect => exact Obeys.free_bind hok trivial fun _ => outDeregSend_obeys hok
    | deregSend => exact outDeregSend_obeys hok
    | deregRecv => exact Obeys.free_bind hok trivial fun _ => outDestroyAcceptEp_obeys hok
    | destroyAcceptEp => exact outDestroyAcceptEp_obeys hok
    | destroyListenEp =>
        refine Obeys.free_bind hok trivial fun _ => ?_
        exact Obeys.free hok trivial fun _ => rfl
    | freeAddrinfo => exact Obeys.free hok trivial fun _ => rfl
  · rintro _ _ _ rfl
    exact Obeys.free_bind hok trivial fun _ => Obeys.halt

end Teardown

/-! ## The requests -/

/-- `send_comm_code`. -/
def sendCommCode (fuel : ℕ) (code : CommCode) : LocalM Int := do
  call (.storeSend 0 (zeros bufferSize))
  call (.storeSend 0 (codeBytes code))
  let ret ← call .postSend
  if ret ≠ 0 then outFunc .disconnect
  else do
    let ret ← waitSendComp fuel
    if ret < 0 then return ret else return 0

/-- `reg_new_mr`, with what it stores in `rkey` and `remote_addr`. -/
def regNewMr (fuel : ℕ) : LocalM (Int × Handle) := do
  let _ ← sendCommCode fuel .regMr
  let ret ← call .postRecv
  if ret ≠ 0 then outFunc .deregSend
  else do
    let ret ← waitRecvComp fuel
    if ret < 0 then outFunc .disconnect
    else do
      let rkey ← call (.loadRecv 0 4)
      let addr ← call (.loadRecv 4 8)
      let handle := ⟨UInt32.ofNat (ofBytes rkey), UInt64.ofNat (ofBytes addr)⟩
      call (.storeHandle handle)
      return (ret, handle)

/-- A request to the remote side. -/
inductive Request
  | code (code : CommCode)
  | regNewMr

/-- One request after the other. -/
def requests (fuel : ℕ) : List Request → LocalM Unit
  | [] => return ()
  | .code code :: rest => do
      let _ ← sendCommCode fuel code
      requests fuel rest
  | .regNewMr :: rest => do
      let _ ← regNewMr fuel
      requests fuel rest

/-- The requests, with `EXIT` at their end. -/
def requestRun (fuel : ℕ) (rs : List Request) : LocalM Unit := do
  requests fuel rs
  let _ ← sendCommCode fuel .exit
  outFunc .disconnect

/-! ## The threads -/

/-- `do { ret = ibv_poll_cq(id->send_cq, 1, &wc); } while (ret == 0);` -/
def pollLoop : ℕ → LocalM Int
  | 0 => StateProg.halt
  | fuel + 1 => do
      let ret ← call .pollCq
      if ret = 0 then pollLoop fuel else return ret

/-- `std::to_string`, with the NUL at the end. -/
def decimal (i : ℕ) : List UInt8 :=
  ((Nat.toDigits 10 i).map fun c => UInt8.ofNat c.toNat) ++ [0]

/-- The second half of `thread_do`, which reads from the remote side. -/
def threadRead (fuel : ℕ) (rmSize buff : UInt64) (remote : Handle) : LocalM Unit := do
  call (.memset buff 0 8)
  let _ ← call (.load buff bufferSize)
  let mr ← call .getLocalMr
  let ret ← call (.postRead buff rmSize mr remote)
  if ret ≠ 0 then outFunc .disconnect
  else do
    let _ ← pollLoop fuel
    let _ ← call (.load buff 4)
    return ()

/-- The first half of `thread_do`, from `ibv_reg_mr` on: it writes to the remote side. -/
def threadWrite (fuel : ℕ) (rmSize buff : UInt64) (threadIdx : ℕ) (remote : Handle) :
    LocalM Unit := do
  let mr ← call (.regMr buff rmSize accessLocalWrite)
  call (.setLocalMr mr)
  call (.strcpy buff (decimal threadIdx))
  let mr ← call .getLocalMr
  let ret ← call (.postWrite buff rmSize mr remote)
  if ret ≠ 0 then outFunc .disconnect
  else do
    let _ ← pollLoop fuel
    threadRead fuel rmSize buff remote

/-- `thread_do`. -/
def threadDo (fuel : ℕ) (threadIdx : ℕ) (remote : Handle) : LocalM Unit := do
  let globals ← get
  let buff ← call (.malloc globals.rmSize)
  call (.memset buff 0 globals.rmSize.toNat)
  threadWrite fuel globals.rmSize buff threadIdx remote

/-- A thread, up to its end. -/
def thread (fuel : ℕ) (threadIdx : ℕ) (remote : Handle) : LocalM Unit := do
  threadDo fuel threadIdx remote
  call .threadEnd

/-- The loop that starts the threads, with as many to go as the first argument says. -/
def spawnLoop : ℕ → ℕ → LocalM Unit
  | 0, _ => return ()
  | n + 1, i => do
      call (.spawn i)
      spawnLoop n (i + 1)

/-- The loop that joins the threads. -/
def joinLoop : ℕ → ℕ → LocalM Unit
  | 0, _ => return ()
  | n + 1, i => do
      call (.join i)
      joinLoop n (i + 1)

/-- `local_node_run`, from the threads on. -/
def threadsRun (fuel n : ℕ) : LocalM Unit := do
  spawnLoop n 0
  joinLoop n 0
  let _ ← sendCommCode fuel .exit
  outFunc .disconnect

end Multithreading.Local
