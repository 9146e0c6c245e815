import RdmaExamples.Rcopy.Calls

/-!
# The client of rcopy

`client_connect`, `client_open`, `client_start_write`, `client_close` and `client_run` of `rcopy.c`.
The names of the files and of the server are parameters; `show_perf` and what is printed are left
out.

`client_connect` returns the socket.  The other functions return `0` where all went well, and else
`-1`, an error number, or a count of `rsend` cut down to an `int`; the callers only compare with
`0`, so that it is all the same to them.
-/

namespace Rcopy

open ByteStrings MachineWords Programs

/-- `client_connect`. -/
def clientConnect : Rcp Int := do
  let ret ← call .getaddrinfo
  if ret ≠ 0 then return ret
  let rs ← call .rsSocket
  if rs < 0 then return rs
  let ret ← call .rconnect
  if ret ≠ 0 then do
    call .rclose
    return ret
  return rs

/-- The length of the path in an OPEN, with its terminator, rounded up; an `uint32_t`. -/
def pathLen (dstFile : List UInt8) : ℕ :=
  ((dstFile.length % 2 ^ 32 + 8) % 2 ^ 32) / 8 * 8

/-- The header of the OPEN. -/
def openHdr (dstFile : List UInt8) (mode : UInt32) : MsgHdr where
  version := 0
  command := cmdOpen
  len := UInt16.ofNat (sizeofHdr + pathLen dstFile)
  data := mode
  id := 0

/-- The OPEN as it lies in memory: the header, and the path in a block of zeros. -/
def openMsg (dstFile : List UInt8) (mode : UInt32) : List UInt8 :=
  (openHdr dstFile mode).encode ++ store (List.replicate (pathLen dstFile) 0) 0 (dstFile ++ [0])

/-- `client_open`, from the block for the OPEN on: `ret` where it jumps to `err3` or `err2`, `none`
where it succeeds. -/
def clientOpenSend (fuel : ℕ) (dstFile : List UInt8) (mode : UInt32) : Rcp (Option Int) := do
  let hdr := openHdr dstFile mode
  if ← call (.calloc (sizeofHdr + pathLen dstFile)) then do
    let sent ← call (.rsend ((openMsg dstFile mode).take hdr.len.toNat))
    if sent.ret ≠ hdr.len.toNat then return some (toInt32 sent.ret)
    let ret ← msgGetResp fuel hdr cmdOpen
    if ret ≠ 0 then return some ret
    return none
  else return some (-1)

/-- `client_open`, and the bytes mapped at `file_addr`. -/
def clientOpen (fuel : ℕ) (srcFile dstFile : List UInt8) : Rcp (Int × List UInt8) := do
  match ← call (.openFile srcFile .rdonly 0) with
  | .error _ => do
      modify fun g => { g with fd := -1 }
      return (-1, [])
  | .ok fd => do
      modify fun g => { g with fd := fd }
      match ← call (.fstat fd) with
      | .error _ => do
          call (.close fd)
          return (-1, [])
      | .ok stats => do
          modify fun g => { g with bytes := stats.size }
          match ← call (.mmap fd stats.size) with
          | .error e => do
              modify fun g => { g with fileAddr := mapFailed }
              call (.close fd)
              return (e.value, [])
          | .ok mapping => do
              modify fun g => { g with fileAddr := mapping.addr }
              match ← clientOpenSend fuel dstFile stats.mode with
              | some ret => do
                  call (.munmap mapping.addr stats.size)
                  call (.close fd)
                  return (ret, mapping.mem)
              | none => return (0, mapping.mem)

/-- The header of the WRITE. -/
def writeHdr : MsgHdr where
  version := 0
  command := cmdWrite
  len := UInt16.ofNat sizeofWrite
  data := 0
  id := 0

/-- The WRITE as it lies in memory. -/
def writeMsg (size : ℕ) : List UInt8 := writeHdr.encode ++ toBytes sizeofBytes size

/-- `client_start_write`. -/
def clientStartWrite : Rcp Int := do
  let g ← get
  let sent ← call (.rsend (writeMsg g.bytes))
  if sent.ret ≠ sizeofWrite then return toInt32 sent.ret
  return 0

/-- The header of the CLOSE. -/
def closeHdr : MsgHdr where
  version := 0
  command := cmdClose
  len := UInt16.ofNat sizeofHdr
  data := 0
  id := 0

/-- `client_close`, up to `out`. -/
def clientCloseSend (fuel : ℕ) : Rcp Int := do
  let sent ← call (.rsend closeHdr.encode)
  if sent.ret ≠ sizeofHdr then return toInt32 sent.ret
  msgGetResp fuel closeHdr cmdClose

/-- `client_close`. -/
def clientClose (fuel : ℕ) : Rcp Int := do
  let ret ← clientCloseSend fuel
  let g ← get
  call (.munmap g.fileAddr g.bytes)
  call (.close g.fd)
  return ret

/-- The data, and the response to it; `mem` are the bytes at `file_addr`. -/
def clientSendData (fuel : ℕ) (mem : List UInt8) : Rcp Int := do
  let ack ← call .uninitialised
  let g ← get
  let sent ← call (.rsend mem)
  if toUnsigned 64 sent.ret = g.bytes then msgGetResp fuel ack cmdWrite
  else return toInt32 (toUnsigned 64 sent.ret)

/-- `client_run`, from `client_start_write` up to `close`. -/
def clientWrite (fuel : ℕ) (mem : List UInt8) : Rcp Int := do
  let ret ← clientStartWrite
  if ret ≠ 0 then return ret
  clientSendData fuel mem

/-- `client_run`. -/
def clientRun (fuel : ℕ) (srcFile dstFile : List UInt8) : Rcp Int := do
  let rs ← clientConnect
  if rs < 0 then return rs
  let (ret, mem) ← clientOpen fuel srcFile dstFile
  if ret ≠ 0 then do
    call .rshutdown
    call .rclose
    return ret
  let ret ← clientWrite fuel mem
  let _ ← clientClose fuel
  call .rshutdown
  call .rclose
  return ret

end Rcopy
