import RdmaExamples.Rcopy.Calls

/-!
# The server of rcopy

`server_open`, `server_close`, `server_write` and the loops `server_process` and `server_run` of
`rcopy.c`.  The part of a handler before its label `out` is a definition of its own, since every
way through it ends with the response that is sent there.  `server_listen`, and what is printed, are
left out.
-/

namespace Rcopy

open ByteStrings MachineWords Programs

/-- `server_open`, up to `out`.  `msg_recv_hdr` has checked that the length is at least the
header's. -/
def serverOpenFile (fuel : ℕ) (msg : MsgHdr) : Rcp Int := do
  let g ← get
  if g.fileAddr ≠ 0 ∨ g.fd > 0 then return ebusy
  let len := msg.len.toNat - sizeofHdr
  match ← call (.malloc len) with
  | none => return enomem
  | some heap => do
      let (ret, mem) ← recv fuel .path heap.mem len
      if ret ≠ len then return toInt32 ret
      match ← call (.openFile (cString mem) .rdwrCreatTrunc msg.data) with
      | .error e => do
          modify fun g => { g with fd := -1 }
          return e.value
      | .ok fd => do
          modify fun g => { g with fd := fd }
          return 0

/-- `server_open`. -/
def serverOpen (fuel : ℕ) (msg : MsgHdr) : Rcp Int := do
  let ret ← serverOpenFile fuel msg
  msgSendResp msg ret
  return ret

/-- `server_close`, the mapping. -/
def unmapFile : Rcp Unit := do
  let g ← get
  if g.fileAddr ≠ 0 then do
    call (.munmap g.fileAddr g.bytes)
    modify fun g => { g with fileAddr := 0 }

/-- `server_close`, the file. -/
def closeFile : Rcp Unit := do
  let g ← get
  if g.fd > 0 then do
    call (.close g.fd)
    modify fun g => { g with fd := 0 }

/-- `server_close`. -/
def serverClose (msg : MsgHdr) : Rcp Unit := do
  msgSendResp msg 0
  unmapFile
  closeFile

/-- `_recv(rs, (char *) &bytes, sizeof bytes)`. -/
def recvBytes (fuel : ℕ) : Rcp ℕ := do
  let g ← get
  let (ret, buf) ← recv fuel .size (toBytes sizeofBytes g.bytes) sizeofBytes
  modify fun g => { g with bytes := ofBytes buf }
  return ret

/-- `server_write`, from the resizing of the file up to `out`. -/
def serverWriteData (fuel : ℕ) : Rcp Int := do
  let g ← get
  match ← call (.ftruncate g.fd g.bytes) with
  | .error _ => return -1
  | .ok _ => do
      match ← call (.mmap g.fd g.bytes) with
      | .error e => do
          modify fun g => { g with fileAddr := mapFailed }
          return e.value
      | .ok mapping => do
          modify fun g => { g with fileAddr := mapping.addr }
          let (len, _) ← recv fuel (.mapping mapping.addr) [] g.bytes
          if len ≠ g.bytes then return toInt32 len
          return 0

/-- `server_write`, up to `out`. -/
def serverWriteFile (fuel : ℕ) (msg : MsgHdr) : Rcp Int := do
  let g ← get
  if g.fd ≤ 0 then return einval
  if msg.len.toNat ≠ sizeofWrite then return einval
  let ret ← recvBytes fuel
  if ret ≠ sizeofBytes then return toInt32 ret
  serverWriteData fuel

/-- `server_write`. -/
def serverWrite (fuel : ℕ) (msg : MsgHdr) : Rcp Int := do
  let ret ← serverWriteFile fuel msg
  msgSendResp msg ret
  return ret

/-- The `switch` of `server_process`, and the value of `ret` after it. -/
def serverHandle (fuel : ℕ) (msg : MsgHdr) : Rcp Int := do
  if msg.command = cmdOpen then serverOpen fuel msg
  else if msg.command = cmdClose then do
    serverClose msg
    return 0
  else if msg.command = cmdWrite then serverWrite fuel msg
  else do
    msgSendResp msg einval
    return -1

/-- The loop of `server_process`; `msg` is the header as the round before left it. -/
def serverLoop : ℕ → MsgHdr → Rcp Unit
  | 0, _ => StateProg.halt
  | fuel + 1, msg => do
      let (ret, msg) ← msgRecvHdr fuel msg
      if ret ≠ sizeofHdr then return ()
      let ret ← serverHandle fuel msg
      if ret = 0 then serverLoop fuel msg else return ()

/-- `server_process`. -/
def serverProcess (fuel : ℕ) : Rcp Unit := do
  let msg ← call .uninitialised
  serverLoop fuel msg

/-- One round of the loop of `server_run`: a session. -/
def serverSession (fuel : ℕ) : Rcp Unit := do
  call .raccept
  serverProcess fuel
  call .rshutdown
  call .rclose

end Rcopy
