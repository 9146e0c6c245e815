import RdmaExamples.Library.Monitors
import RdmaExamples.Multithreading.Calls

/-!
# The remote program

The functions of `remote.cc`, from the command loop on.  A store behind the end of `buff_arr` or
`mr_arr` is followed no further; nor is the program, where it looks into a region that is `NULL`.

The table is a function from the index, with the counter beside it.  The index of a store shows in
its call, so that a store behind the end can be seen although nothing follows it.
-/

namespace Multithreading.Remote

open Programs ByteStrings

/-- The globals: `rm_size`, whether `send_flags` is `IBV_SEND_INLINE`, `mr_arr` and
`next_empty_idx`. -/
structure Globals where
  rmSize : UInt64
  sendInline : Bool
  mrArr : ℕ → Option Mr := fun _ => none
  nextEmptyIdx : ℕ := 0

/-- A function of the remote program. -/
abbrev RemoteM := StateProg Call Reply Globals

/-- `enum DISCONNECT_CODE`. -/
inductive DisconnectCode
  | deregRdmaMr
  | disconnect
  | deregSend
  | deregRecv
  | destroyEp
  | freeAddrinfo
  | deregSendout

/-! ## The ways out -/

/-- `out_free_addrinfo`. -/
def outFreeAddrinfo : RemoteM Unit := call .freeaddrinfo

/-- `out_destroy_ep`, and what follows it. -/
def outDestroyEp : RemoteM Unit := do
  call .destroyEp
  outFreeAddrinfo

/-- `out_dereg_recv`, and what follows it. -/
def outDeregRecv : RemoteM Unit := do
  call .deregRecvMsg
  outDestroyEp

/-- `out_dereg_send`, and what follows it. -/
def outDeregSend : RemoteM Unit := do
  let globals ← get
  if globals.sendInline = false then do
    call .deregSendMsg
    outDeregRecv
  else outDeregRecv

/-- `out_disconnect`, and what follows it. -/
def outDisconnect : RemoteM Unit := do
  call .disconnect
  outDeregSend

/-- The loop of `out_func` that deregisters the regions, with as many to go as the first argument
says. -/
def deregUp : ℕ → ℕ → RemoteM Unit
  | 0, _ => return ()
  | n + 1, i => do
      let globals ← get
      let _ ← call (.deregMr (globals.mrArr i))
      deregUp n (i + 1)

/-- `out_dereg_rdma_mr` of `out_func`, and what it falls through to. -/
def outDeregRdmaMr : RemoteM Unit := do
  let globals ← get
  deregUp globals.nextEmptyIdx 0
  outDisconnect

/-- The case that `out_func` begins with. -/
def outCase : DisconnectCode → RemoteM Unit
  | .deregRdmaMr => outDeregRdmaMr
  | .disconnect => outDisconnect
  | .deregSend => outDeregSend
  | .deregRecv => outDeregRecv
  | .destroyEp => outDestroyEp
  | .freeAddrinfo => outFreeAddrinfo
  | .deregSendout => return ()

/-- `out_func`, which does not return. -/
def outFunc {α : Type} (code : DisconnectCode) : RemoteM α := do
  outCase code
  call (.exit 1)
  StateProg.halt

/-- The loop at the end of `remote_node_run`, from the last region down. -/
def deregDown : ℕ → Int → RemoteM Int
  | 0, ret => return ret
  | n + 1, _ => do
      let globals ← get
      let ret ← call (.deregMr (globals.mrArr n))
      deregDown n ret

section Teardown

open Monitors

variable {G α : Type} {mon : Monitor Call Reply G} {globals : Globals} {g : G}

lemma outDeregRecv_obeys (hok : Free mon Call.Teardown g) :
    Obeys mon (fun g' _ => g' = g) (outDeregRecv.run globals) g := by
  refine Obeys.free_bind hok trivial fun _ => ?_
  refine Obeys.free_bind hok trivial fun _ => ?_
  exact Obeys.free hok trivial fun _ => rfl

lemma outDeregSend_obeys (hok : Free mon Call.Teardown g) :
    Obeys mon (fun g' _ => g' = g) (outDeregSend.run globals) g := by
  refine Obeys.get_bind (Obeys.ite (fun _ => ?_) fun _ => outDeregRecv_obeys hok)
  exact Obeys.free_bind hok trivial fun _ => outDeregRecv_obeys hok

lemma outDisconnect_obeys (hok : Free mon Call.Teardown g) :
    Obeys mon (fun g' _ => g' = g) (outDisconnect.run globals) g :=
  Obeys.free_bind hok trivial fun _ => outDeregSend_obeys hok

lemma deregUp_obeys (hok : Free mon Call.Teardown g) : ∀ n i : ℕ,
    Obeys mon (fun g' _ => g' = g) ((deregUp n i).run globals) g
  | 0, _ => rfl
  | n + 1, i => Obeys.get_bind
      (Obeys.free_bind hok trivial fun _ => deregUp_obeys hok n (i + 1))

lemma deregDown_obeys (hok : Free mon Call.Teardown g) : ∀ (n : ℕ) (ret : Int),
    Obeys mon (fun g' _ => g' = g) ((deregDown n ret).run globals) g
  | 0, _ => rfl
  | n + 1, _ => Obeys.get_bind
      (Obeys.free_bind hok trivial fun _ => deregDown_obeys hok n _)

/-- A way out, where its calls are allowed. -/
lemma outFunc_obeys (hok : Free mon Call.Teardown g) (code : DisconnectCode)
    {Q : G → α × Globals → Prop} : Obeys mon Q ((outFunc code : RemoteM α).run globals) g := by
  refine Obeys.bind (Q := fun g' _ => g' = g) ?_ ?_
  · cases code with
    | deregRdmaMr =>
        refine Obeys.get_bind (Obeys.bind (deregUp_obeys hok _ _) ?_)
        rintro _ _ _ rfl
        exact outDisconnect_obeys hok
    | disconnect => exact outDisconnect_obeys hok
    | deregSend => exact outDeregSend_obeys hok
    | deregRecv => exact outDeregRecv_obeys hok
    | destroyEp =>
        refine Obeys.free_bind hok trivial fun _ => ?_
        exact Obeys.free hok trivial fun _ => rfl
    | freeAddrinfo => exact Obeys.free hok trivial fun _ => rfl
    | deregSendout => rfl
  · rintro _ _ _ rfl
    exact Obeys.free_bind hok trivial fun _ => Obeys.halt

end Teardown

/-! ## The commands -/

/-- `create_new_mr`, from `memcpy` on. -/
def sendMr (fuel : ℕ) (mr : Mr) : RemoteM Unit := do
  call (.storeSend 0 (toBytes 4 mr.rkey.toNat))
  call (.storeSend 4 (toBytes 8 mr.addr.toNat))
  let ret ← call .postSend
  if ret ≠ 0 then outFunc .deregRdmaMr
  else do
    let ret ← waitSendComp fuel
    if ret < 0 then outFunc .deregRdmaMr
    else modify fun globals => { globals with nextEmptyIdx := globals.nextEmptyIdx + 1 }

/-- `create_new_mr`.  It prints the address of the region before it looks whether there is one. -/
def createNewMr (fuel : ℕ) (length : UInt64) (access : UInt32) : RemoteM Unit := do
  let globals ← get
  let buff ← call (.malloc length)
  call (.storeBuff globals.nextEmptyIdx buff)
  if arrSize ≤ globals.nextEmptyIdx then StateProg.halt
  else do
    let mr ← call (.regMr buff length access)
    call (.storeMr globals.nextEmptyIdx mr)
    modify fun globals =>
      { globals with mrArr := Function.update globals.mrArr globals.nextEmptyIdx mr }
    match mr with
    | none => do
        call .segfault
        StateProg.halt
    | some mr => sendMr fuel mr

/-- `get_comm_code`, from the completion on. -/
def readCommCode : RemoteM (Option CommCode) := do
  let bytes ← call (.loadRecv 0 4)
  let code := CommCode.ofByte (bytes.getD 0 0)
  if code = some .regMr then do
    let bytes ← call (.loadRecv 4 8)
    modify fun globals => { globals with rmSize := UInt64.ofNat (ofBytes bytes) }
    return code
  else return code

/-- `get_comm_code`.  A failed completion is reported, and no more. -/
def getCommCode (fuel : ℕ) : RemoteM (Option CommCode) := do
  call .clearRecv
  let ret ← call .postRecv
  if ret ≠ 0 then outFunc .deregSend
  else do
    let _ ← waitRecvComp fuel
    readCommCode

/-- The body of the command loop. -/
def command (fuel : ℕ) (code : Option CommCode) : RemoteM Unit := do
  let globals ← get
  if code = some .regMr then
    createNewMr fuel globals.rmSize (accessLocalWrite ||| accessRemoteWrite ||| accessRemoteRead)
  else return ()

/-- The command loop of `remote_node_run`. -/
def commandLoop (fuel : ℕ) : ℕ → RemoteM Unit
  | 0 => StateProg.halt
  | rounds + 1 => do
      let code ← getCommCode fuel
      if code = some .exit then return ()
      else do
        command fuel code
        commandLoop fuel rounds

/-- `remote_node_run`, from the command loop on. -/
def remoteNodeRun (fuel rounds : ℕ) : RemoteM Int := do
  commandLoop fuel rounds
  let globals ← get
  let ret ← deregDown globals.nextEmptyIdx 0
  outDisconnect
  return ret

end Multithreading.Remote
