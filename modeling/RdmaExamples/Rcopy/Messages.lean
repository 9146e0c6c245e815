import RdmaExamples.Library.ByteStrings

/-!
# The messages of rcopy

The header that every message of `rcopy.c` starts with, and the messages' sizes and numbers.  A
message is sent as it lies in memory: the fields in order, each with its lowest byte first.
-/

namespace Rcopy

open ByteStrings

/-- `struct msg_hdr`. -/
structure MsgHdr where
  version : UInt8
  command : UInt8
  len : UInt16
  data : UInt32
  id : UInt64
  deriving DecidableEq

/-- `sizeof(struct msg_hdr)`, which is also `sizeof(struct msg_open)`. -/
def sizeofHdr : ℕ := 16

/-- `sizeof(struct msg_write)`. -/
def sizeofWrite : ℕ := 24

/-- `sizeof bytes`, and of the field `size`. -/
def sizeofBytes : ℕ := 8

def cmdOpen : UInt8 := 1
def cmdClose : UInt8 := 2
def cmdWrite : UInt8 := 3

/-- `CMD_RESP`, a bit that marks responses. -/
def cmdResp : UInt8 := 0x80

def enomem : Int := 12
def ebusy : Int := 16
def einval : Int := 22

/-- The header as it lies in memory. -/
def MsgHdr.encode (hdr : MsgHdr) : List UInt8 :=
  hdr.version :: hdr.command ::
    (toBytes 2 hdr.len.toNat ++ (toBytes 4 hdr.data.toNat ++ toBytes 8 hdr.id.toNat))

/-- The header that bytes in memory hold. -/
def MsgHdr.decode (bs : List UInt8) : MsgHdr where
  version := bs.getD 0 0
  command := bs.getD 1 0
  len := UInt16.ofNat (ofBytes ((bs.drop 2).take 2))
  data := UInt32.ofNat (ofBytes ((bs.drop 4).take 4))
  id := UInt64.ofNat (ofBytes ((bs.drop 8).take 8))

@[simp] lemma MsgHdr.length_encode (hdr : MsgHdr) : hdr.encode.length = sizeofHdr := by
  simp [encode, sizeofHdr]

/-- **What was sent is read back.** -/
@[simp] theorem MsgHdr.decode_encode (hdr : MsgHdr) : MsgHdr.decode hdr.encode = hdr := by
  have hlen : ((hdr.encode.drop 2).take 2) = toBytes 2 hdr.len.toNat := by
    rw [encode]
    exact List.take_left' (length_toBytes _ _)
  have hdata : ((hdr.encode.drop 4).take 4) = toBytes 4 hdr.data.toNat := by
    have hdrop : hdr.encode.drop 4 = toBytes 4 hdr.data.toNat ++ toBytes 8 hdr.id.toNat := by
      have hassoc : hdr.encode = (hdr.version :: hdr.command :: toBytes 2 hdr.len.toNat) ++
          (toBytes 4 hdr.data.toNat ++ toBytes 8 hdr.id.toNat) := rfl
      rw [hassoc]
      exact List.drop_left' (by simp)
    rw [hdrop]
    exact List.take_left' (length_toBytes _ _)
  have hid : ((hdr.encode.drop 8).take 8) = toBytes 8 hdr.id.toNat := by
    have hdrop : hdr.encode.drop 8 = toBytes 8 hdr.id.toNat := by
      have hassoc : hdr.encode = (hdr.version :: hdr.command ::
          (toBytes 2 hdr.len.toNat ++ toBytes 4 hdr.data.toNat)) ++ toBytes 8 hdr.id.toNat := by
        simp [encode]
      rw [hassoc]
      exact List.drop_left' (by simp)
    rw [hdrop, List.take_of_length_le (by simp)]
  rw [decode, hlen, hdata, hid, ofBytes_toBytes hdr.len.toNat_lt,
    ofBytes_toBytes hdr.data.toNat_lt, ofBytes_toBytes hdr.id.toNat_lt]
  simp [encode]

/-- A response that says success. -/
structure GoodResp (cmd : UInt8) (r : List UInt8) : Prop where
  length : r.length = sizeofHdr
  command : (MsgHdr.decode r).command = cmd ||| cmdResp
  data : (MsgHdr.decode r).data = 0

lemma GoodResp.append_ne_nil {cmd : UInt8} {r more : List UInt8} (h : GoodResp cmd r) :
    [] ≠ r ++ more := by
  intro hnil
  have hlen := h.length
  rw [(List.append_eq_nil_iff.mp hnil.symm).1] at hlen
  exact absurd hlen (by decide)

/-- The string that starts a piece of memory. -/
def cString (mem : List UInt8) : List UInt8 := mem.takeWhile fun b => b ≠ 0

/-- A string that ends in a piece of memory does not go on behind it. -/
lemma cString_of_nul {path s : List UInt8} (hnul : 0 ∈ path) :
    cString (path ++ s) = cString path := by
  induction path with
  | nil => exact absurd hnul List.not_mem_nil
  | cons b path ih =>
      by_cases hb : b = 0
      · simp [cString, hb]
      · have htail : 0 ∈ path := by
          rcases List.mem_cons.mp hnul with heq | htail
          · exact absurd heq.symm hb
          · exact htail
        simpa [cString, hb] using ih htail

end Rcopy
