import RdmaExamples.Rcopy.ServerRuns

/-!
# The status that the server sends

`server_open` and `server_write` send whatever `ret` holds at the label `out`.  At the end of the
stream `_recv` returns `0`, which is also the status of success; after a failed `rrecv` it returns
the full length.  So a status `0` is truthful where neither of the two came up, or where a call on
the file failed afterwards, and nowhere else (`status_truthful_iff`).

* `OpenTruthful`, `WriteTruthful` — what a status `0` says: which pieces were received, which file
  was opened, resized and mapped, and what the globals hold then.
* `Sound` — what the replies have to be for that.
* `OpenRun.truthful_iff`, `DataRun.truthful_iff`, `WriteRun.truthful_iff` — the equivalence for the
  part of each handler before its response, one case for each way through the code.  The cases in
  which `ret` is not `0` hold on both sides; at the end of the stream both sides fail; what is left
  is the way through to the end, where the pieces received make up the message just where every
  `rrecv` brought some bytes (`recv_tiles_iff`).
* `statusZero_atEof` — a client that goes away in the middle of a message is told of success.
-/

namespace Rcopy

open ByteStrings MachineWords Programs Tiling

/-- The file that was received was opened: its path is the string that starts with the bytes
received, and `fd` is its descriptor.  The heap block is as long as the path in the message, so that
a path without a NUL goes on behind it. -/
def Opened (msg : MsgHdr) (t : Trace) (g' : Globals) : Prop :=
  ∃ (heap : Heap (pathSize msg)) (fd : ℕ), ⟨.malloc (pathSize msg), some heap⟩ ∈ t ∧
    fileOps t = [.opened (cString (received .path t ++ heap.mem.drop (pathSize msg))) fd] ∧
    g'.fd = fd

/-- A file was resized and mapped, and exactly that much data was received into the mapping, which
is what `file_addr` holds. -/
def Filled (fd : Int) (size : ℕ) (t : Trace) (g' : Globals) : Prop :=
  ∃ addr, fileOps t = [.resized fd size, .mapped fd size addr] ∧ g'.fileAddr = addr ∧
    Tiles 0 (pieces (.mapping addr) t) size

/-- A status `0` to an OPEN: the whole path was received, and its file was opened. -/
def OpenTruthful (msg : MsgHdr) (t : Trace) (g' : Globals) : Prop :=
  0 ∈ statuses t → Tiles 0 (pieces .path t) (pathSize msg) ∧ Opened msg t g'

/-- A status `0` to a WRITE from state `g`: the size was received, the open file was resized to it
and mapped, and exactly that much data was received into the mapping. -/
def WriteTruthful (g : Globals) (t : Trace) (g' : Globals) : Prop :=
  0 ∈ statuses t → Tiles 0 (pieces .size t) sizeofBytes ∧
    Filled g.fd (ofBytes (received .size t)) t g'

/-- The stream does not end in the request, and where an `rrecv` fails, so does a call on the file.
-/
def Sound (t : Trace) : Prop := ¬ HasEof t ∧ (HasError t → FileOp.failed ∈ fileOps t)

/-! ## Responses -/

/-- The status in a response is `0` just where `ret` is. -/
lemma status_eq_zero {ret : Int} (hlo : -2 ^ 31 ≤ ret) (hhi : ret < 2 ^ 31) :
    UInt32.ofNat (toUnsigned 32 ret) = 0 ↔ ret = 0 := by
  have hlt := toUnsigned_lt 32 ret
  rw [← UInt32.toNat_inj, UInt32.toNat_ofNat', Nat.mod_eq_of_lt hlt]
  have hzero : (0 : UInt32).toNat = 0 := rfl
  rw [hzero, toUnsigned]
  omega

/-- `ret` fits into an `int`. -/
def FitsInt (ret : Int) : Prop := -2 ^ 31 ≤ ret ∧ ret < 2 ^ 31

lemma Errno.fitsInt (e : Errno) : FitsInt e.value := by
  have := e.pos
  have := e.lt
  constructor <;> omega

lemma toInt32_fitsInt (x : Int) : FitsInt (toInt32 x) := by
  rw [FitsInt, toInt32]
  have hlo := Int.le_bmod (x := x) (m := 2 ^ 32) (by norm_num)
  have hhi := Int.bmod_lt (x := x) (m := 2 ^ 32) (by norm_num)
  omega

section Responses

variable {msg : MsgHdr} {ret : Int} {g g' : Globals} {t t' : Trace} {m : Rcp Int}

/-- A handler ends with its response. -/
lemma returns_respond (h : Returns ((m >>= fun ret => do
      msgSendResp msg ret
      return ret).run g) t (ret, g')) :
    ∃ t' r, t = t' ++ [⟨.rsend (respHdr msg ret).encode, r⟩] ∧ Returns (m.run g) t' (ret, g') := by
  obtain ⟨t₁, t₂, ret', g₁, rfl, h₁, h₂⟩ := returns_run_bind.mp h
  rw [msgSendResp] at h₂
  obtain ⟨t₃, t₄, u, g₂, rfl, h₃, h₄⟩ := returns_run_bind.mp h₂
  obtain ⟨r, t₅, rfl, h₅⟩ := returns_run_perform_bind.mp h₃
  obtain ⟨rfl, -, rfl⟩ := returns_run_pure.mp h₅
  obtain ⟨rfl, rfl, rfl⟩ := returns_run_pure.mp h₄
  exact ⟨t₁, r, by simp, h₁⟩

/-- Where nothing was sent before, the response alone says `0`. -/
lemma zero_mem_statuses {r : Reply (.rsend (respHdr msg ret).encode)} (hfits : FitsInt ret)
    (hnone : statuses t = []) :
    0 ∈ statuses (t ++ [⟨.rsend (respHdr msg ret).encode, r⟩]) ↔ ret = 0 := by
  simp only [statuses_append, hnone, List.nil_append, statuses_cons, statusOf,
    MsgHdr.decode_encode, Option.toList_some, statuses_nil, List.append_nil, List.mem_singleton]
  rw [eq_comm, respHdr, status_eq_zero hfits.1 hfits.2]

lemma sound_respond {r : Reply (.rsend (respHdr msg ret).encode)} :
    Sound (t ++ [⟨.rsend (respHdr msg ret).encode, r⟩]) ↔ Sound t := by
  simp [Sound, got, fileOp]

lemma sound_of_quiet (heof : ¬ HasEof t) (herror : ¬ HasError t) : Sound t :=
  ⟨heof, fun h => absurd h herror⟩

end Responses

/-! ## OPEN -/

section Open

variable {fuel : ℕ} {msg : MsgHdr} {g g' : Globals} {t : Trace} {ret : Int}

lemma OpenRun.fitsInt (h : OpenRun fuel msg g t ret g') : FitsInt ret := by
  cases h with
  | busy => exact ⟨by decide, by decide⟩
  | noMemory => exact ⟨by decide, by decide⟩
  | noPath => exact toInt32_fitsInt _
  | notOpened _ heap t mem e _ => exact e.fitsInt
  | opened => exact ⟨by decide, by decide⟩

lemma OpenRun.statuses_eq (h : OpenRun fuel msg g t ret g') : statuses t = [] := by
  cases h with
  | busy => rfl
  | noMemory => rfl
  | noPath _ heap t n mem hrecv _ => simp [statusOf, (recv_onlyInto hrecv.canDo).statuses_eq]
  | notOpened _ heap t mem e hrecv =>
      simp [statusOf, (recv_onlyInto hrecv.canDo).statuses_eq]
  | opened _ heap t mem fd hrecv => simp [statusOf, (recv_onlyInto hrecv.canDo).statuses_eq]

/-- A path that holds a NUL is what was opened. -/
lemma Opened.path_eq (h : Opened msg t g') (hnul : 0 ∈ received .path t) :
    ∃ fd : ℕ, fileOps t = [.opened (cString (received .path t)) fd] ∧ g'.fd = fd := by
  obtain ⟨heap, fd, -, hops, hfd⟩ := h
  rw [cString_of_nul hnul] at hops
  exact ⟨fd, hops, hfd⟩

/-- Where the whole path has arrived, it is what is opened. -/
lemma opened_of_recv {heap : Heap (pathSize msg)} {mem : List UInt8} {fd : ℕ}
    (hrecv : Returns ((recv fuel .path heap.mem (pathSize msg)).run g) t ((pathSize msg, mem), g))
    (heof : ¬ HasEof t) (herror : ¬ HasError t) (mode : UInt32) :
    Opened msg (⟨.malloc (pathSize msg), some heap⟩ :: (t ++
      [⟨.openFile (cString mem) .rdwrCreatTrunc mode, .ok fd⟩])) { g with fd := fd } := by
  have honly := recv_onlyInto hrecv.canDo
  have hmem := recv_mem (pathSize_lt msg) heap.le_length hrecv heof herror
  refine ⟨heap, fd, List.mem_cons_self, ?_, rfl⟩
  simp [fileOp, receivedOf, honly.fileOps_eq, hmem]

/-- A result `0` of `server_open` is right just where the replies are sound. -/
lemma OpenRun.truthful_iff (h : OpenRun fuel msg g t ret g') :
    (ret = 0 → Tiles 0 (pieces .path t) (pathSize msg) ∧ Opened msg t g') ↔ Sound t := by
  have hlen := pathSize_lt msg
  cases h with
  | busy _ =>
      exact iff_of_true (fun hret => absurd hret (by decide)) (sound_of_quiet (by simp) (by simp))
  | noMemory _ =>
      exact iff_of_true (fun hret => absurd hret (by decide))
        (sound_of_quiet (by simp [got]) (by simp [got]))
  | noPath _ heap t n mem hrecv hn =>
      rcases recv_ret hlen hrecv with ⟨heof, rfl, -⟩ | ⟨-, hn'⟩
      · refine iff_of_false (fun hret => ?_) fun hsound => hsound.1 (by simp [heof])
        obtain ⟨-, heap', fd, -, hopened, -⟩ := hret rfl
        simp [fileOp, (recv_onlyInto hrecv.canDo).fileOps_eq] at hopened
      · exact absurd hn' hn
  | notOpened _ heap t mem e hrecv =>
      have heof : ¬ HasEof t := by
        rcases recv_ret hlen hrecv with ⟨-, hn, hpos⟩ | ⟨heof, -⟩
        · omega
        · exact heof
      refine iff_of_true (fun hret => absurd hret e.pos.ne') ⟨by simp [got, heof], fun _ => ?_⟩
      simp [fileOp]
  | opened _ heap t mem fd hrecv =>
      have hops : fileOps t = [] := (recv_onlyInto hrecv.canDo).fileOps_eq
      have htiles := recv_tiles_iff hlen hrecv
      simp only [pieces_cons, pieces_append, pieceOf, pieces_nil, List.nil_append, List.append_nil,
        htiles, Sound, hasEof_cons, hasEof_append, hasError_cons, hasError_append, hasEof_nil,
        hasError_nil, got, reduceCtorEq, false_or, or_false, fileOps_cons, fileOps_append, fileOp,
        hops, forall_const]
      constructor
      · rintro ⟨⟨heof, herror⟩, -⟩
        exact ⟨heof, fun h => absurd h herror⟩
      · rintro ⟨heof, hfailed⟩
        have herror : ¬ HasError t := fun h => absurd (hfailed h) (by simp)
        exact ⟨⟨heof, herror⟩, opened_of_recv hrecv heof herror msg.data⟩

/-- The same of the response. -/
theorem serverOpen_truthful_iff (h : Returns ((serverOpen fuel msg).run g) t (ret, g')) :
    OpenTruthful msg t g' ↔ Sound t := by
  obtain ⟨t', r, rfl, h'⟩ := returns_respond h
  have hrun := serverOpenFile_run h'
  rw [sound_respond, ← hrun.truthful_iff, OpenTruthful,
    zero_mem_statuses hrun.fitsInt hrun.statuses_eq]
  simp [Opened, pieceOf, fileOp, receivedOf]

end Open

/-! ## WRITE -/

section Write

variable {fuel : ℕ} {msg : MsgHdr} {g g' : Globals} {t : Trace} {ret : Int}

lemma DataRun.fitsInt (h : DataRun fuel g t ret g') : FitsInt ret := by
  cases h with
  | notResized e => exact ⟨by decide, by decide⟩
  | notMapped u e => exact e.fitsInt
  | noData => exact toInt32_fitsInt _
  | data => exact ⟨by decide, by decide⟩

lemma WriteRun.fitsInt (h : WriteRun fuel msg g t ret g') : FitsInt ret := by
  cases h with
  | refused => exact ⟨by decide, by decide⟩
  | noSize => exact toInt32_fitsInt _
  | size _ _ t t' buf ret g' _ hdata => exact hdata.fitsInt

lemma DataRun.statuses_eq (h : DataRun fuel g t ret g') : statuses t = [] := by
  cases h with
  | notResized e => rfl
  | notMapped u e => rfl
  | noData u mapping t n mem hrecv _ =>
      simp [statusOf, (recv_onlyInto hrecv.canDo).statuses_eq]
  | data u mapping t mem hrecv => simp [statusOf, (recv_onlyInto hrecv.canDo).statuses_eq]

lemma WriteRun.statuses_eq (h : WriteRun fuel msg g t ret g') : statuses t = [] := by
  cases h with
  | refused => rfl
  | noSize _ _ t n buf hrecv _ => exact (recv_onlyInto hrecv.canDo).statuses_eq
  | size _ _ t t' buf ret g' hrecv hdata =>
      rw [statuses_append, (recv_onlyInto hrecv.canDo).statuses_eq, hdata.statuses_eq,
        List.nil_append]

/-- What `server_write` receives once it has a size goes to the mapping. -/
lemma DataRun.size_eq (h : DataRun fuel g t ret g') :
    pieces .size t = [] ∧ received .size t = [] := by
  cases h with
  | notResized e => exact ⟨rfl, rfl⟩
  | notMapped u e => exact ⟨rfl, rfl⟩
  | noData u mapping t n mem hrecv _ =>
      have honly := recv_onlyInto hrecv.canDo
      simp [pieceOf, receivedOf, honly.pieces_of_ne .size (by simp),
        honly.received_of_ne .size (by simp)]
  | data u mapping t mem hrecv =>
      have honly := recv_onlyInto hrecv.canDo
      simp [pieceOf, receivedOf, honly.pieces_of_ne .size (by simp),
        honly.received_of_ne .size (by simp)]

/-- A result `0` past the size is right just where the replies are sound. -/
lemma DataRun.truthful_iff (hbytes : g.bytes < 2 ^ 64) (h : DataRun fuel g t ret g') :
    (ret = 0 → Filled g.fd g.bytes t g') ↔ Sound t := by
  cases h with
  | notResized e =>
      exact iff_of_true (fun hret => absurd hret (by decide))
        (sound_of_quiet (by simp [got]) (by simp [got]))
  | notMapped u e =>
      exact iff_of_true (fun hret => absurd hret e.pos.ne')
        (sound_of_quiet (by simp [got]) (by simp [got]))
  | noData u mapping t n mem hrecv hn =>
      rcases recv_ret hbytes hrecv with ⟨heof, rfl, -⟩ | ⟨-, hn'⟩
      · refine iff_of_false (fun hret => ?_) fun hsound => hsound.1 (by simp [heof])
        obtain ⟨_, -, rfl, htiles⟩ := hret rfl
        have htiles' : Tiles 0 (pieces (.mapping mapping.addr) t) g.bytes := htiles
        exact ((recv_tiles_iff hbytes hrecv).mp htiles').1 heof
      · exact absurd hn' hn
  | data u mapping t mem hrecv =>
      have hops : fileOps t = [] := (recv_onlyInto hrecv.canDo).fileOps_eq
      have htiles := recv_tiles_iff hbytes hrecv
      simp [Filled, Sound, got, fileOp, pieceOf, hops, htiles]

/-- Past the size, a result other than `0` comes from a call on the file. -/
lemma DataRun.ret_ne_zero_iff (hbytes : g.bytes < 2 ^ 64) (h : DataRun fuel g t ret g') :
    ret ≠ 0 ↔ ¬ HasEof t ∧ FileOp.failed ∈ fileOps t := by
  cases h with
  | notResized e => simp [got, fileOp]
  | notMapped u e => simp [got, fileOp, e.pos.ne']
  | noData u mapping t n mem hrecv hn =>
      rcases recv_ret hbytes hrecv with ⟨heof, rfl, -⟩ | ⟨-, hn'⟩
      · exact iff_of_false (fun hret => hret rfl) fun hfailed => hfailed.1 (by simp [heof])
      · exact absurd hn' hn
  | data u mapping t mem hrecv =>
      simp [fileOp, (recv_onlyInto hrecv.canDo).fileOps_eq]

/-- A result `0` of `server_write` is right just where the replies are sound. -/
lemma WriteRun.truthful_iff (h : WriteRun fuel msg g t ret g') :
    (ret = 0 → Tiles 0 (pieces .size t) sizeofBytes ∧
      Filled g.fd (ofBytes (received .size t)) t g') ↔ Sound t := by
  have hlen : sizeofBytes < 2 ^ 64 := by decide
  cases h with
  | refused _ =>
      exact iff_of_true (fun hret => absurd hret (by decide)) (sound_of_quiet (by simp) (by simp))
  | noSize _ _ t n buf hrecv hn =>
      rcases recv_ret hlen hrecv with ⟨heof, rfl, -⟩ | ⟨-, hn'⟩
      · exact iff_of_false (fun hret => ((recv_tiles_iff hlen hrecv).mp (hret rfl).1).1 heof)
          fun hsound => hsound.1 heof
      · exact absurd hn' hn
  | size _ _ t t' buf ret g' hrecv hdata =>
      have honly := recv_onlyInto hrecv.canDo
      have heof : ¬ HasEof t := by
        rcases recv_ret hlen hrecv with ⟨-, hn, -⟩ | ⟨heof, -⟩
        · exact absurd hn (by decide)
        · exact heof
      have hbytes : ofBytes buf < 2 ^ 64 := recv_size_lt hrecv
      obtain ⟨hpieces, hreceived⟩ := hdata.size_eq
      have htiles := recv_tiles_iff hlen hrecv
      by_cases herror : HasError t
      · -- the size was not received, so only a failure afterwards keeps the status right
        have hnot : ¬ Tiles 0 (pieces .size t) sizeofBytes := fun h => (htiles.mp h).2 herror
        have hret := hdata.ret_ne_zero_iff hbytes
        simp only [Sound, pieces_append, hpieces, List.append_nil, hnot, false_and, hasEof_append,
          heof, false_or, hasError_append, herror, true_or, forall_const, fileOps_append,
          honly.fileOps_eq, List.nil_append]
        exact hret
      · have hsize : buf = received .size t := recv_buf_eq hlen (by simp) hrecv heof herror
        have hdata' := hdata.truthful_iff hbytes
        rw [hsize] at hdata'
        simp only [Filled, Sound, pieces_append, hpieces, List.append_nil,
          htiles.mpr ⟨heof, herror⟩,
          true_and, hasEof_append, heof, false_or, hasError_append, herror, fileOps_append,
          honly.fileOps_eq, List.nil_append, received_append, hreceived,
          honly.pieces_of_ne (.mapping _) (by simp)]
        exact hdata'

/-- The same of the response. -/
theorem serverWrite_truthful_iff (h : Returns ((serverWrite fuel msg).run g) t (ret, g')) :
    WriteTruthful g t g' ↔ Sound t := by
  obtain ⟨t', r, rfl, h'⟩ := returns_respond h
  have hrun := serverWriteFile_run h'
  rw [sound_respond, ← hrun.truthful_iff, WriteTruthful,
    zero_mem_statuses hrun.fitsInt hrun.statuses_eq]
  simp [Filled, pieceOf, fileOp, receivedOf]

end Write

/-! ## The result -/

/-- **When the status is truthful.**  In every run of `server_open` and of `server_write`, from
every state and for every header, a status `0` says what it should just where no `rrecv` reports the
end of the stream, and none fails unless a call on the file fails too.

The first half is needed since `_recv` returns `0` at the end of the stream, and both handlers send
what it returned.  The second is needed since a failed `rrecv` only takes one byte off the offset:
the handler goes on with a message that has not arrived, and `0` is sent unless `open`, `ftruncate`
or `mmap` puts an error in its place.  Where neither comes up, every `rrecv` brought some bytes, and
those make up the message. -/
theorem status_truthful_iff (fuel : ℕ) (msg : MsgHdr) (g : Globals) (t : Trace) (ret : Int)
    (g' : Globals) :
    (Returns ((serverOpen fuel msg).run g) t (ret, g') → (OpenTruthful msg t g' ↔ Sound t)) ∧
    (Returns ((serverWrite fuel msg).run g) t (ret, g') → (WriteTruthful g t g' ↔ Sound t)) :=
  ⟨serverOpen_truthful_iff, serverWrite_truthful_iff⟩

/-- An OPEN whose path, and a WRITE whose data arrive in full. -/
theorem status_truthful_complete :
    (∃ t g', fileOps t = [.opened (List.replicate 7 97) 3] ∧ 0 ∈ statuses t ∧
      OpenTruthful openHdr8 t g') ∧
    ∃ t g', fileOps t = [.resized 3 2, .mapped 3 2 4096] ∧ 0 ∈ statuses t ∧
      WriteTruthful { fd := 3 } t g' := by
  constructor
  · obtain ⟨t, ⟨ret, g'⟩, hrun, htest⟩ := exists_of_play reliable
      (List.replicate 7 97 ++ [0]) ((serverOpen 2 openHdr8).run {})
      (fun t _ => decide (fileOps t = [.opened (List.replicate 7 97) 3]) &&
        (decide (0 ∈ statuses t) && t.all fun e => decide (got e ≠ .data [] ∧ got e ≠ .error)))
      (by decide +kernel)
    simp only [Bool.and_eq_true, decide_eq_true_eq, List.all_eq_true] at htest
    obtain ⟨hops, hzero, hgot⟩ := htest
    have hsound : Sound t := sound_of_quiet (fun ⟨e, he, heof⟩ => (hgot e he).1 heof)
      fun ⟨e, he, herror⟩ => (hgot e he).2 herror
    exact ⟨t, g', hops, hzero, ((status_truthful_iff 2 openHdr8 {} t ret g').1 hrun).mpr hsound⟩
  · obtain ⟨t, ⟨ret, g'⟩, hrun, htest⟩ := exists_of_play reliable (toBytes 8 2 ++ [97, 98])
      ((serverWrite 2 writeHdr).run { fd := 3 })
      (fun t _ => decide (fileOps t = [.resized 3 2, .mapped 3 2 4096]) &&
        (decide (0 ∈ statuses t) && t.all fun e => decide (got e ≠ .data [] ∧ got e ≠ .error)))
      (by decide +kernel)
    simp only [Bool.and_eq_true, decide_eq_true_eq, List.all_eq_true] at htest
    obtain ⟨hops, hzero, hgot⟩ := htest
    have hsound : Sound t := sound_of_quiet (fun ⟨e, he, heof⟩ => (hgot e he).1 heof)
      fun ⟨e, he, herror⟩ => (hgot e he).2 herror
    exact ⟨t, g', hops, hzero,
      ((status_truthful_iff 2 writeHdr { fd := 3 } t ret g').2 hrun).mpr hsound⟩

/-- **A status `0` that is not truthful.**  The stream ends after two of eight bytes of a path, or
after one of two bytes of data. -/
theorem statusZero_atEof :
    (∃ t ret g', Returns ((serverOpen 3 openHdr8).run {}) t (ret, g') ∧
      ¬ OpenTruthful openHdr8 t g') ∧
    ∃ t ret g', Returns ((serverWrite 3 writeHdr).run { fd := 3 }) t (ret, g') ∧
      ¬ WriteTruthful { fd := 3 } t g' := by
  constructor
  · obtain ⟨t, ⟨ret, g'⟩, hrun, htest⟩ := exists_of_play reliable [97, 98]
      ((serverOpen 3 openHdr8).run {})
      (fun t _ => decide (0 ∈ statuses t) && decide (pieces .path t = [(0, 2)]))
      (by decide +kernel)
    simp only [Bool.and_eq_true, decide_eq_true_eq] at htest
    obtain ⟨hzero, hpieces⟩ := htest
    refine ⟨t, ret, g', hrun, fun h => ?_⟩
    obtain ⟨htiles, -⟩ := h hzero
    rw [hpieces] at htiles
    simp [pathSize, openHdr8, sizeofHdr] at htiles
  · obtain ⟨t, ⟨ret, g'⟩, hrun, htest⟩ := exists_of_play reliable (toBytes 8 2 ++ [97])
      ((serverWrite 3 writeHdr).run { fd := 3 })
      (fun t _ => decide (0 ∈ statuses t) && decide (received .size t = toBytes 8 2) &&
        decide (fileOps t = [.resized 3 2, .mapped 3 2 4096]) &&
        decide (pieces (.mapping 4096) t = [(0, 1)]))
      (by decide +kernel)
    simp only [Bool.and_eq_true, decide_eq_true_eq] at htest
    obtain ⟨⟨⟨hzero, hsize⟩, hops⟩, hpieces⟩ := htest
    refine ⟨t, ret, g', hrun, fun h => ?_⟩
    obtain ⟨-, addr, hops', -, htiles⟩ := h hzero
    rw [hsize, ofBytes_toBytes (by norm_num)] at hops' htiles
    rw [hops] at hops'
    obtain rfl : 4096 = addr := by simpa using hops'
    rw [hpieces] at htiles
    simp at htiles

end Rcopy
