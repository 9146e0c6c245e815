import RdmaExamples.Library.Tiling
import RdmaExamples.Rcopy.Calls

/-!
# Traces of rcopy

What a run of rcopy's programs shows: what came from the stream and where it was put, the responses
that were sent, and what happened to files.

These are functions of a list of calls and know nothing of the programs.  The results about rcopy
state what they claim with them, so that a claim about what was received or sent can be checked
against the calls and the source, without the model of the program.
-/

namespace Rcopy

open ByteStrings Programs Tiling

/-- The calls of a run, with their replies. -/
abbrev Trace := List (Event Call Reply)

/-- What a call got from the stream. -/
inductive Got
  | nothing
  | error
  | data (bs : List UInt8)
  deriving DecidableEq

/-- What `rrecv` returned, if the call is one. -/
def got : Event Call Reply → Got
  | ⟨.rrecv _ _ _, none⟩ => .error
  | ⟨.rrecv _ _ _, some chunk⟩ => .data chunk.bs
  | _ => .nothing

/-- Some `rrecv` of the trace reports the end of the stream. -/
def HasEof (t : Trace) : Prop := ∃ e ∈ t, got e = .data []

/-- Some `rrecv` of the trace fails. -/
def HasError (t : Trace) : Prop := ∃ e ∈ t, got e = .error

/-- Where the bytes of one event went. -/
def pieceOf (dest : Dest) : Event Call Reply → List Segment
  | ⟨.rrecv dest' offset _, some chunk⟩ =>
      if dest' = dest ∧ chunk.bs ≠ [] then [(offset, chunk.bs.length)] else []
  | _ => []

/-- The pieces of a destination that were received, in order. -/
def pieces (dest : Dest) (t : Trace) : List Segment := t.flatMap (pieceOf dest)

/-- What one event put into a destination. -/
def receivedOf (dest : Dest) : Event Call Reply → List UInt8
  | ⟨.rrecv dest' _ _, some chunk⟩ => if dest' = dest then chunk.bs else []
  | _ => []

/-- The bytes received for a destination, in order. -/
def received (dest : Dest) (t : Trace) : List UInt8 := t.flatMap (receivedOf dest)

/-- A call that concerns files, with its outcome. -/
inductive FileOp
  | opened (path : List UInt8) (fd : ℕ)
  | resized (fd : Int) (length : ℕ)
  | mapped (fd : Int) (length addr : ℕ)
  | unmapped (addr length : ℕ)
  | closed (fd : Int)
  | failed
  deriving DecidableEq

/-- What an event does to files. -/
def fileOp : Event Call Reply → Option FileOp
  | ⟨.openFile path _ _, .ok fd⟩ => some (.opened path fd)
  | ⟨.openFile .., .error _⟩ => some .failed
  | ⟨.ftruncate fd length, .ok _⟩ => some (.resized fd length)
  | ⟨.ftruncate .., .error _⟩ => some .failed
  | ⟨.mmap fd length, .ok mapping⟩ => some (.mapped fd length mapping.addr)
  | ⟨.mmap .., .error _⟩ => some .failed
  | ⟨.munmap addr length, _⟩ => some (.unmapped addr length)
  | ⟨.close fd, _⟩ => some (.closed fd)
  | _ => none

/-- What a run does to files. -/
def fileOps (t : Trace) : List FileOp := t.filterMap fileOp

/-- The status that an event sends. -/
def statusOf : Event Call Reply → Option UInt32
  | ⟨.rsend bs, _⟩ => some (MsgHdr.decode bs).data
  | _ => none

/-- The statuses that a server sends. -/
def statuses (t : Trace) : List UInt32 := t.filterMap statusOf

section Traces

variable {dest dest' : Dest} {t t' : Trace} {e : Event Call Reply} {offset n : ℕ}

@[simp] lemma hasEof_nil : ¬ HasEof [] := by simp [HasEof]

@[simp] lemma hasEof_cons : HasEof (e :: t) ↔ got e = .data [] ∨ HasEof t := by simp [HasEof]

@[simp] lemma hasEof_append : HasEof (t ++ t') ↔ HasEof t ∨ HasEof t' := by
  simp [HasEof, or_and_right, exists_or]

@[simp] lemma hasError_nil : ¬ HasError [] := by simp [HasError]

@[simp] lemma hasError_cons : HasError (e :: t) ↔ got e = .error ∨ HasError t := by
  simp [HasError]

@[simp] lemma hasError_append : HasError (t ++ t') ↔ HasError t ∨ HasError t' := by
  simp [HasError, or_and_right, exists_or]

@[simp] lemma pieces_nil : pieces dest [] = [] := rfl

@[simp] lemma pieces_cons : pieces dest (e :: t) = pieceOf dest e ++ pieces dest t := rfl

@[simp] lemma pieces_append : pieces dest (t ++ t') = pieces dest t ++ pieces dest t' :=
  List.flatMap_append ..

@[simp] lemma received_nil : received dest [] = [] := rfl

@[simp] lemma received_cons : received dest (e :: t) = receivedOf dest e ++ received dest t := rfl

@[simp] lemma received_append :
    received dest (t ++ t') = received dest t ++ received dest t' := List.flatMap_append ..

@[simp] lemma fileOps_nil : fileOps [] = [] := rfl

@[simp] lemma fileOps_cons : fileOps (e :: t) = (fileOp e).toList ++ fileOps t := by
  rw [fileOps, List.filterMap_cons]
  cases fileOp e <;> rfl

@[simp] lemma fileOps_append : fileOps (t ++ t') = fileOps t ++ fileOps t' :=
  List.filterMap_append

@[simp] lemma statuses_nil : statuses [] = [] := rfl

@[simp] lemma statuses_cons : statuses (e :: t) = (statusOf e).toList ++ statuses t := by
  rw [statuses, List.filterMap_cons]
  cases statusOf e <;> rfl

@[simp] lemma statuses_append : statuses (t ++ t') = statuses t ++ statuses t' :=
  List.filterMap_append

/-- Every call of the trace is an `rrecv` into one buffer. -/
def OnlyInto (dest : Dest) (t : Trace) : Prop := ∀ e ∈ t, ∃ offset n, e.1 = .rrecv dest offset n

lemma OnlyInto.pieces_of_ne (h : OnlyInto dest t) (dest' : Dest) (hne : dest ≠ dest') :
    pieces dest' t = [] := by
  rw [pieces, List.flatMap_eq_nil_iff]
  rintro ⟨c, r⟩ he
  obtain ⟨offset, n, rfl⟩ := h _ he
  cases r with
  | none => rfl
  | some chunk => exact if_neg fun hc => hne hc.1

lemma OnlyInto.received_of_ne (h : OnlyInto dest t) (dest' : Dest) (hne : dest ≠ dest') :
    received dest' t = [] := by
  rw [received, List.flatMap_eq_nil_iff]
  rintro ⟨c, r⟩ he
  obtain ⟨offset, n, rfl⟩ := h _ he
  cases r with
  | none => rfl
  | some chunk => exact if_neg hne

lemma OnlyInto.fileOps_eq (h : OnlyInto dest t) : fileOps t = [] := by
  rw [fileOps, List.filterMap_eq_nil_iff]
  rintro ⟨c, r⟩ he
  obtain ⟨offset, n, rfl⟩ := h _ he
  rfl

lemma OnlyInto.statuses_eq (h : OnlyInto dest t) : statuses t = [] := by
  rw [statuses, List.filterMap_eq_nil_iff]
  rintro ⟨c, r⟩ he
  obtain ⟨offset, n, rfl⟩ := h _ he
  rfl

end Traces

end Rcopy
