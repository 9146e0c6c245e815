import RdmaExamples.Library.MachineWords
import RdmaExamples.Library.Programs
import RdmaExamples.Rcopy.Messages

/-!
# The calls of rcopy, and its messages over a socket

What client and server of `rcopy.c` call, what the calls may answer, and the functions that both
share: `_recv`, `msg_recv_hdr`, `msg_get_resp` and `msg_send_resp`.

Both sides are programs over the three globals `bytes`, `fd` and `file_addr`.  A call may answer
whatever its manual page allows, failures included.  Memory that the program has not written yet is
the answer of a call too: `uninitialised` for a header on the stack, `malloc` for the heap, which
comes with what lies behind the block.  What goes to a mapping goes to the file; only the other
buffers are followed here.
-/

namespace Rcopy

open ByteStrings MachineWords Programs

/-! ## Calls -/

/-- Where `rrecv` puts the bytes: a header, the path of an OPEN, the global `bytes`, or a mapping.
-/
inductive Dest
  | header
  | path
  | size
  | mapping (addr : ℕ)
  deriving DecidableEq

/-- The flags of `open`. -/
inductive OpenFlags
  | rdonly
  | rdwrCreatTrunc
  deriving DecidableEq

/-- A call, with its arguments; the socket is left out, there is one at a time. -/
inductive Call
  | uninitialised
  | raccept
  | getaddrinfo
  | rsSocket
  | rconnect
  | rrecv (dest : Dest) (offset len : ℕ)
  | rsend (bs : List UInt8)
  | rshutdown
  | rclose
  | malloc (n : ℕ)
  | calloc (n : ℕ)
  | openFile (path : List UInt8) (flags : OpenFlags) (mode : UInt32)
  | fstat (fd : Int)
  | ftruncate (fd : Int) (length : ℕ)
  | mmap (fd : Int) (length : ℕ)
  | munmap (addr length : ℕ)
  | close (fd : Int)

/-- A value of `errno` after a failure. -/
structure Errno where
  value : Int
  pos : 0 < value
  lt : value < 2 ^ 31

/-- What `rrecv` received: nothing at the end of the stream. -/
structure Chunk (len : ℕ) where
  bs : List UInt8
  length_le : bs.length ≤ len

/-- What `rsend` returns: `-1`, or how many bytes it took. -/
structure SentCount (len : ℕ) where
  ret : Int
  neg_one_le : -1 ≤ ret
  le : ret ≤ len

/-- The memory from a new block on. -/
structure Heap (n : ℕ) where
  mem : List UInt8
  le_length : n ≤ mem.length

/-- `struct stat`. -/
structure Stat where
  size : ℕ
  lt : size < 2 ^ 63
  mode : UInt32

/-- A mapping, with what the file holds when it is made. -/
structure Mapping (length : ℕ) where
  addr : ℕ
  pos : 0 < addr
  lt : addr < 2 ^ 64 - 1
  mem : List UInt8
  length_eq : mem.length = length

/-- What a call answers; `none` is `-1` or `NULL`. -/
abbrev Reply : Call → Type
  | .uninitialised => MsgHdr
  | .getaddrinfo => Int
  | .rsSocket => Int
  | .rconnect => Int
  | .rrecv _ _ len => Option (Chunk len)
  | .rsend bs => SentCount bs.length
  | .malloc n => Option (Heap n)
  | .calloc _ => Bool
  | .openFile .. => Except Errno ℕ
  | .fstat _ => Except Errno Stat
  | .ftruncate .. => Except Errno Unit
  | .mmap _ length => Except Errno (Mapping length)
  | _ => Unit

/-- The globals.  `NULL` is `0`. -/
structure Globals where
  bytes : ℕ := 0
  fd : Int := 0
  fileAddr : ℕ := 0
  deriving DecidableEq

/-- `(void *) -1`. -/
def mapFailed : ℕ := 2 ^ 64 - 1

/-- A function of rcopy. -/
abbrev Rcp := StateProg Call Reply Globals

/-- One call. -/
abbrev call (c : Call) : Rcp (Reply c) := perform c

/-! ## Messages over a socket -/

/-- The result of `rrecv` as the `size_t` that `_recv` makes of it. -/
def rrecvSize {len : ℕ} : Option (Chunk len) → ℕ
  | none => toUnsigned 64 (-1)
  | some chunk => chunk.bs.length

/-- What `rrecv` leaves in the buffer. -/
def rrecvStore {len : ℕ} (msg : List UInt8) (offset : ℕ) : Option (Chunk len) → List UInt8
  | none => msg
  | some chunk => store msg offset chunk.bs

/-- The loop of `_recv`, from an offset on.  It may go round for ever. -/
def recvFrom (dest : Dest) (len : ℕ) : ℕ → ℕ → List UInt8 → Rcp (ℕ × List UInt8)
  | 0, _, _ => StateProg.halt
  | fuel + 1, offset, msg =>
      if offset < len then do
        let reply ← call (.rrecv dest offset (len - offset))
        let ret := rrecvSize reply
        if ret ≤ 0 then return (ret, rrecvStore msg offset reply)
        recvFrom dest len fuel ((offset + ret) % 2 ^ 64) (rrecvStore msg offset reply)
      else return (len, msg)

/-- `_recv`, and the buffer after it. -/
def recv (fuel : ℕ) (dest : Dest) (msg : List UInt8) (len : ℕ) : Rcp (ℕ × List UInt8) :=
  recvFrom dest len fuel 0 msg

/-- `msg_recv_hdr`, and the header after it. -/
def msgRecvHdr (fuel : ℕ) (hdr : MsgHdr) : Rcp (Int × MsgHdr) := do
  let (ret, buf) ← recv fuel .header hdr.encode sizeofHdr
  let hdr := MsgHdr.decode buf
  if ret ≠ sizeofHdr then return (-1, hdr)
  if hdr.version ≠ 0 ∨ hdr.len.toNat < sizeofHdr then return (-1, hdr)
  return (sizeofHdr, hdr)

/-- `msg_get_resp`. -/
def msgGetResp (fuel : ℕ) (msg : MsgHdr) (cmd : UInt8) : Rcp Int := do
  let (ret, msg) ← msgRecvHdr fuel msg
  if ret ≠ sizeofHdr then return ret
  if msg.len.toNat ≠ sizeofHdr ∨ msg.command ≠ cmd ||| cmdResp then return -1
  return toInt32 msg.data.toNat

/-- The response that `msg_send_resp` sends. -/
def respHdr (msg : MsgHdr) (status : Int) : MsgHdr where
  version := 0
  command := msg.command ||| cmdResp
  len := UInt16.ofNat sizeofHdr
  data := UInt32.ofNat (toUnsigned 32 status)
  id := msg.id

/-- `msg_send_resp`. -/
def msgSendResp (msg : MsgHdr) (status : Int) : Rcp Unit := do
  let _ ← call (.rsend (respHdr msg status).encode)

end Rcopy
