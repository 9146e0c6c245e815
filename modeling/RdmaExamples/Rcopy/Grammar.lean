import RdmaExamples.Rcopy.ServerStages
import RdmaExamples.Rcopy.Truthful

/-!
# The messages that the server takes off a stream

What a message is, as a piece of the stream (`IsMessage`), and when the server agrees.  A message
that it handles with result `0` is well formed, and the stream goes on behind it, just where the
message is one of those that the handlers rely on (`Acceptable`): `server_close` does not look at
the length, `server_open` does not look for the end of the path, and the end of the stream in a body
counts as success (`messages_synced_iff`).

* `WellFormed`, `IsMessage` — a header with the body that it announces, and behind a WRITE the
  data; the path of an OPEN has its end inside.
* `Handled`, `AtHeader` — one round of the loop, and the rounds that ended with `0`, with what they
  have taken off the stream.
* `Acceptable` — what has to hold of the stream before a round, for each command.

`closeWithBody_notSynced` is the shortest way out of step: a CLOSE that announces a body.
-/

namespace Rcopy

open ByteStrings MachineWords Programs

/-! ## Messages -/

/-- A header and the rest of the bytes that it announces. -/
structure WellFormed (hdr : MsgHdr) (body : List UInt8) : Prop where
  version : hdr.version = 0
  length : sizeofHdr + body.length = hdr.len.toNat
  shape : (hdr.command = cmdOpen ∧ 0 ∈ body) ∨
    (hdr.command = cmdWrite ∧ hdr.len.toNat = sizeofWrite) ∨
    (hdr.command = cmdClose ∧ hdr.len.toNat = sizeofHdr)

/-- What follows a message: the data of a WRITE. -/
def payloadSize (hdr : MsgHdr) (body : List UInt8) : ℕ :=
  if hdr.command = cmdWrite then ofBytes body else 0

/-- A message with what follows it, as it lies in a stream. -/
def IsMessage (hdr : MsgHdr) (m : List UInt8) : Prop :=
  ∃ head body payload, m = head ++ (body ++ payload) ∧ head.length = sizeofHdr ∧
    hdr = MsgHdr.decode head ∧ WellFormed hdr body ∧ payload.length = payloadSize hdr body

/-! ## Rounds of the loop -/

/-- A round of `server_process` on a stream: a header is accepted, and its command is handled with
result `ret`. -/
def Handled (g : Globals) (s : List UInt8) (t : Trace) (hdr : MsgHdr) (ret : Int) (g' : Globals)
    (s' : List UInt8) : Prop :=
  ∃ fuel msg t₁ t₂, t = t₁ ++ t₂ ∧ Returns ((msgRecvHdr fuel msg).run g) t₁ ((sizeofHdr, hdr), g) ∧
    Returns ((serverHandle fuel hdr).run g) t₂ (ret, g') ∧ Feeds s t s'

/-- The server, started on a stream, is about to read a header: everything so far was handled with
result `0`. -/
inductive AtHeader (g₀ : Globals) (s₀ : List UInt8) : Trace → Globals → List UInt8 → Prop
  | start : AtHeader g₀ s₀ [] g₀ s₀
  | next {t t' : Trace} {g g' : Globals} {s s' : List UInt8} {hdr : MsgHdr} :
      AtHeader g₀ s₀ t g s → Handled g s t' hdr 0 g' s' → AtHeader g₀ s₀ (t ++ t') g' s'

/-- The bytes that a header announces, of those that follow it. -/
def bodyOf (s : List UInt8) : List UInt8 :=
  (s.drop sizeofHdr).take (pathSize (MsgHdr.decode (s.take sizeofHdr)))

/-- What the handlers rely on, of the message that comes next: an OPEN that finds no file open comes
with a path that is there in full and has an end, a CLOSE comes without a body, and the size and the
data of a WRITE that finds a file open are there in full. -/
def Acceptable (g : Globals) (s : List UInt8) : Prop :=
  let hdr := MsgHdr.decode (s.take sizeofHdr)
  sizeofHdr ≤ s.length → hdr.version = 0 → sizeofHdr ≤ hdr.len.toNat →
    (hdr.command = cmdOpen → ¬ (g.fileAddr ≠ 0 ∨ g.fd > 0) →
      hdr.len.toNat ≤ s.length ∧ 0 ∈ bodyOf s) ∧
    (hdr.command = cmdClose → hdr.len.toNat = sizeofHdr) ∧
    (hdr.command = cmdWrite → 0 < g.fd → hdr.len.toNat = sizeofWrite →
      sizeofWrite + ofBytes (bodyOf s) ≤ s.length)

section

variable {fuel : ℕ} {msg hdr : MsgHdr} {g g' g₀ : Globals} {t : Trace}
  {s s' s₀ m head body payload : List UInt8} {ret : Int}

/-- What a round has read, and what the handler finds. -/
lemma Handled.header (h : Handled g s t hdr ret g' s') :
    sizeofHdr ≤ s.length ∧ hdr = MsgHdr.decode (s.take sizeofHdr) ∧ hdr.version = 0 ∧
      sizeofHdr ≤ hdr.len.toNat ∧ ∃ fuel t₂, Returns ((serverHandle fuel hdr).run g) t₂ (ret, g') ∧
        Feeds (s.drop sizeofHdr) t₂ s' := by
  obtain ⟨fuel, msg, t₁, t₂, rfl, h₁, h₂, hfeeds⟩ := h
  obtain ⟨s₁, hs₁, hs₂⟩ := feeds_append.mp hfeeds
  obtain ⟨hlong, hhdr, hversion, hlen, rfl⟩ := msgRecvHdr_feeds h₁ hs₁
  exact ⟨hlong, hhdr, hversion, hlen, fuel, t₂, h₂, hs₂⟩

/-- A message at the head of a stream, by the places of its parts. -/
lemma isMessage_of_take (hlong : hdr.len.toNat + payloadSize hdr (bodyOf s) ≤ s.length)
    (hhdr : hdr = MsgHdr.decode (s.take sizeofHdr)) (hlen : sizeofHdr ≤ hdr.len.toNat)
    (hwf : WellFormed hdr (bodyOf s)) :
    IsMessage hdr (s.take (hdr.len.toNat + payloadSize hdr (bodyOf s))) := by
  have hbody : bodyOf s = (s.drop sizeofHdr).take (hdr.len.toNat - sizeofHdr) := by
    rw [bodyOf, ← hhdr, pathSize]
  refine ⟨s.take sizeofHdr, bodyOf s,
    (s.drop hdr.len.toNat).take (payloadSize hdr (bodyOf s)), ?_, ?_, hhdr, hwf, ?_⟩
  · rw [List.take_add, hbody, ← List.append_assoc]
    congr 1
    conv_lhs => rw [← Nat.add_sub_cancel' hlen, List.take_add]
  · exact List.length_take_of_le (by omega)
  · exact List.length_take_of_le (by rw [List.length_drop]; omega)

/-- The parts of a message at the head of a stream are where the server looks for them. -/
lemma IsMessage.parts (h : IsMessage hdr m) :
    hdr = MsgHdr.decode ((m ++ s').take sizeofHdr) ∧ WellFormed hdr (bodyOf (m ++ s')) ∧
      m.length = hdr.len.toNat + payloadSize hdr (bodyOf (m ++ s')) := by
  obtain ⟨head, body, payload, rfl, hhead, hhdr, hwf, hpayload⟩ := h
  have hlen := hwf.length
  have hbody : bodyOf (head ++ (body ++ payload) ++ s') = body := by
    rw [bodyOf, List.append_assoc, List.take_left' hhead, List.drop_left' hhead, ← hhdr, pathSize,
      List.append_assoc, List.take_left' (by omega)]
  rw [hbody]
  refine ⟨by rw [List.append_assoc, List.take_left' hhead, hhdr], hwf, ?_⟩
  simp only [List.length_append]
  omega

/-! ## What is handled with result `0`

Each of the three handlers, on a stream that may end anywhere.  What it has taken is known from the
lemmas about streams; what it ought to have taken is said by the header. -/

/-- An OPEN that is handled with result `0`, its path there in full if the file can be opened. -/
lemma serverOpen_takes (h : Returns ((serverOpen fuel hdr).run g) t (ret, g')) (hret : ret = 0)
    (hfeeds : Feeds s t s')
    (hlong : ¬ (g.fileAddr ≠ 0 ∨ g.fd > 0) → pathSize hdr ≤ s.length) :
    ¬ (g.fileAddr ≠ 0 ∨ g.fd > 0) ∧ s' = s.drop (pathSize hdr) := by
  obtain ⟨t', r, rfl, h'⟩ := returns_respond h
  obtain ⟨s₁, hs₁, hs₂⟩ := feeds_append.mp hfeeds
  rw [feeds_cons_nothing rfl, feeds_nil] at hs₂
  cases serverOpenFile_run h' with
  | busy _ => exact absurd hret (by decide)
  | noMemory _ => exact absurd hret (by decide)
  | noPath hfree heap t n mem hrecv hn =>
      rw [feeds_cons_nothing rfl] at hs₁
      rcases recv_feeds (pathSize_lt hdr) hrecv hs₁ with ⟨-, hn', -⟩ | ⟨hshort, -⟩
      · exact absurd hn' hn
      · exact absurd (hlong hfree) (not_le.mpr hshort)
  | notOpened _ heap t mem e hrecv => exact absurd hret e.pos.ne'
  | opened hfree heap t mem fd hrecv =>
      rw [feeds_cons_nothing rfl] at hs₁
      obtain ⟨s₂, hs₂', hs₃⟩ := feeds_append.mp hs₁
      rw [feeds_cons_nothing rfl, feeds_nil] at hs₃
      rcases recv_feeds (pathSize_lt hdr) hrecv hs₂' with ⟨-, -, -, hdrop, -⟩ | ⟨hshort, -⟩
      · exact ⟨hfree, by rw [hs₂, hs₃, hdrop]⟩
      · exact absurd (hlong hfree) (not_le.mpr hshort)

/-- The data of a WRITE that is handled with result `0`. -/
lemma DataRun.takes (h : DataRun fuel g t ret g') (hlt : g.bytes < 2 ^ 64) (hret : ret = 0)
    (hfeeds : Feeds s t s') (hlong : g.bytes ≤ s.length) : s' = s.drop g.bytes := by
  cases h with
  | notResized e => exact absurd hret (by decide)
  | notMapped u e => exact absurd hret e.pos.ne'
  | noData u mapping t n mem hrecv hn =>
      rw [feeds_cons_nothing rfl, feeds_cons_nothing rfl] at hfeeds
      rcases recv_feeds hlt hrecv hfeeds with ⟨-, hn', -⟩ | ⟨hshort, -⟩
      · exact absurd hn' hn
      · omega
  | data u mapping t mem hrecv =>
      rw [feeds_cons_nothing rfl, feeds_cons_nothing rfl] at hfeeds
      rcases recv_feeds hlt hrecv hfeeds with ⟨-, -, -, hdrop, -⟩ | ⟨hshort, -⟩
      · exact hdrop
      · omega

/-- A WRITE that is handled with result `0`, its size and data there in full if they are wanted. -/
lemma serverWrite_takes (h : Returns ((serverWrite fuel hdr).run g) t (ret, g')) (hret : ret = 0)
    (hfeeds : Feeds s t s')
    (hlong : 0 < g.fd → hdr.len.toNat = sizeofWrite →
      sizeofBytes + ofBytes (s.take sizeofBytes) ≤ s.length) :
    0 < g.fd ∧ hdr.len.toNat = sizeofWrite ∧
      s' = s.drop (sizeofBytes + ofBytes (s.take sizeofBytes)) := by
  obtain ⟨t', r, rfl, h'⟩ := returns_respond h
  obtain ⟨s₁, hs₁, hs₂⟩ := feeds_append.mp hfeeds
  rw [feeds_cons_nothing rfl, feeds_nil] at hs₂
  cases serverWriteFile_run h' with
  | refused _ => exact absurd hret (by decide)
  | noSize hfd hlen t n buf hrecv hn =>
      rcases recv_feeds (by decide) hrecv hs₁ with ⟨-, hn', -⟩ | ⟨hshort, -⟩
      · exact absurd hn' hn
      · have := hlong hfd hlen
        omega
  | size hfd hlen t t' buf ret g' hrecv hdata =>
      obtain ⟨s₂, hs₂', hs₃⟩ := feeds_append.mp hs₁
      have hlong' := hlong hfd hlen
      rcases recv_feeds (by decide) hrecv hs₂' with ⟨-, -, hsize, rfl, heof⟩ | ⟨hshort, -⟩
      · have hbytes : ofBytes buf = ofBytes (s.take sizeofBytes) := by
          rw [recv_buf_eq (by decide) (by simp) hrecv heof hs₂'.not_hasError, hsize]
        have htakes := hdata.takes (recv_size_lt hrecv) hret hs₃ (by
          rw [List.length_drop]
          dsimp only
          omega)
        rw [hs₂, htakes, List.drop_drop, hbytes]
        exact ⟨hfd, hlen, rfl⟩
      · omega

/-- A CLOSE takes nothing. -/
lemma feeds_serverClose
    (h : Returns ((do serverClose hdr; return (0 : Int) : Rcp Int).run g) t (ret, g')) :
    Feeds s t s' ↔ s' = s := by
  have hkeeps : Keeps (fun _ => ()) (fun c => ∀ dest offset n, c ≠ .rrecv dest offset n)
      (do serverClose hdr; return (0 : Int) : Rcp Int) :=
    Keeps.bind (serverClose_calls (by simp) (by simp) (by simp)) fun _ => Keeps.pure _
  refine feeds_of_nothing fun e he => ?_
  obtain ⟨c, r⟩ := e
  have hc := hkeeps.calls _ _ h.canDo _ he
  cases c <;> first | rfl | exact absurd rfl (hc _ _ _)

/-- **A message that the handlers can rely on**, handled with result `0`, is well formed, and the
stream goes on behind it.  With result `0` the path or the data has been received as far as the
stream goes, and `Acceptable` says that the stream goes far enough. -/
theorem Handled.isMessage (h : Handled g s t hdr 0 g' s') (hok : Acceptable g s) :
    ∃ m, IsMessage hdr m ∧ s = m ++ s' := by
  obtain ⟨hlong, hhdr, hversion, hlen, fuel, t₂, hrun, hfeeds⟩ := h.header
  have hbody : bodyOf s = (s.drop sizeofHdr).take (pathSize hdr) := by rw [bodyOf, ← hhdr]
  rw [Acceptable, ← hhdr] at hok
  obtain ⟨hopen, hclose, hwrite⟩ := hok hlong hversion hlen
  suffices hmain : s' = s.drop (hdr.len.toNat + payloadSize hdr (bodyOf s)) ∧
      hdr.len.toNat + payloadSize hdr (bodyOf s) ≤ s.length ∧ WellFormed hdr (bodyOf s) by
    obtain ⟨hs', hle, hwf⟩ := hmain
    refine ⟨_, isMessage_of_take hle hhdr hlen hwf, ?_⟩
    rw [hs', List.take_append_drop]
  have hbodyLen : hdr.len.toNat ≤ s.length → sizeofHdr + (bodyOf s).length = hdr.len.toNat := by
    intro hle
    rw [hbody, List.length_take_of_le (by rw [List.length_drop, pathSize]; omega), pathSize]
    omega
  by_cases hcmd : hdr.command = cmdOpen
  · rw [serverHandle_open hcmd] at hrun
    have hnone : payloadSize hdr (bodyOf s) = 0 := if_neg (by rw [hcmd]; decide)
    obtain ⟨hfree, hs'⟩ := serverOpen_takes hrun rfl hfeeds fun hfree => by
      have := (hopen hcmd hfree).1
      rw [List.length_drop, pathSize]
      omega
    obtain ⟨hle, hnul⟩ := hopen hcmd hfree
    refine ⟨?_, by omega, hversion, hbodyLen hle, Or.inl ⟨hcmd, hnul⟩⟩
    rw [hs', List.drop_drop, hnone, pathSize, Nat.add_sub_cancel' hlen, Nat.add_zero]
  by_cases hcmd' : hdr.command = cmdClose
  · rw [serverHandle_close hcmd'] at hrun
    have hnone : payloadSize hdr (bodyOf s) = 0 := if_neg (by rw [hcmd']; decide)
    have hsize := hclose hcmd'
    refine ⟨?_, by omega, hversion, hbodyLen (by omega), Or.inr (Or.inr ⟨hcmd', hsize⟩)⟩
    rw [(feeds_serverClose hrun).mp hfeeds, hnone, hsize, Nat.add_zero]
  by_cases hcmd'' : hdr.command = cmdWrite
  · rw [serverHandle_write hcmd''] at hrun
    have hpayload : payloadSize hdr (bodyOf s) = ofBytes (bodyOf s) := if_pos hcmd''
    have hsize : hdr.len.toNat = sizeofWrite →
        bodyOf s = (s.drop sizeofHdr).take sizeofBytes := fun hsize => by
      rw [hbody, pathSize, hsize]
      rfl
    obtain ⟨hfd, hwriteLen, hs'⟩ := serverWrite_takes hrun rfl hfeeds fun hfd hwriteLen => by
      have hle := hwrite hcmd'' hfd hwriteLen
      rw [hsize hwriteLen] at hle
      simp only [sizeofWrite, sizeofHdr, sizeofBytes, List.length_drop] at hle ⊢
      omega
    have hle := hwrite hcmd'' hfd hwriteLen
    refine ⟨?_, by omega, hversion, hbodyLen (by omega), Or.inr (Or.inl ⟨hcmd'', hwriteLen⟩)⟩
    rw [hs', List.drop_drop, hpayload, hsize hwriteLen, hwriteLen, ← Nat.add_assoc]
    rfl
  · rw [serverHandle, if_neg hcmd, if_neg hcmd', if_neg hcmd''] at hrun
    obtain ⟨t₃, t₄, u, g₁, rfl, -, h₄⟩ := returns_run_bind.mp hrun
    exact absurd (returns_run_pure.mp h₄).2.1 (by decide)

/-! ## Runs with result `0`

For the other direction there has to be a run.  On every stream there is one in which nothing fails
but what the stream itself makes fail. -/

/-- A round, from a run of the handler. -/
lemma handled_of_run {t₂ : Trace} (hlong : sizeofHdr ≤ s.length)
    (hhdr : hdr = MsgHdr.decode (s.take sizeofHdr)) (hversion : hdr.version = 0)
    (hlen : sizeofHdr ≤ hdr.len.toNat)
    (h : Returns ((serverHandle 3 hdr).run g) t₂ (ret, g'))
    (hfeeds : Feeds (s.drop sizeofHdr) t₂ s') : ∃ t, Handled g s t hdr ret g' s' := by
  subst hhdr
  have hhead : (s.take sizeofHdr).length = sizeofHdr := List.length_take_of_le hlong
  have hrecv : Returns ((msgRecvHdr 3 ⟨0, 0, 0, 0, 0⟩).run g)
      [⟨.rrecv .header 0 sizeofHdr, some ⟨s.take sizeofHdr, hhead.le⟩⟩]
      ((sizeofHdr, MsgHdr.decode (s.take sizeofHdr)), g) := msgRecvHdr_whole hhead hversion hlen
  refine ⟨_, 3, ⟨0, 0, 0, 0, 0⟩, _, t₂, rfl, hrecv, h, ?_⟩
  refine ⟨s.drop sizeofHdr, ⟨(List.take_append_drop sizeofHdr s).symm, fun hnil => ?_⟩, hfeeds⟩
  have hzero : (s.take sizeofHdr).length = 0 := List.length_eq_zero_iff.mpr hnil
  exact absurd (hhead.symm.trans hzero) (by decide)

/-- The response of a handler. -/
lemma returns_of_file {m : Rcp Int} (h : Returns (m.run g) t (ret, g')) :
    Returns ((m >>= fun ret => do
      msgSendResp msg ret
      return ret).run g)
      (t ++ [⟨.rsend (respHdr msg ret).encode, ⟨16, by omega, by simp [sizeofHdr]⟩⟩])
      (ret, g') := by
  refine returns_run_bind.mpr ⟨t, _, ret, g', rfl, h, ?_⟩
  refine returns_run_bind.mpr ⟨_, [], (), g', (List.append_nil _).symm, ?_, by simp⟩
  exact returns_run_perform_bind.mpr ⟨_, [], rfl, by simp⟩

/-- An OPEN on which the server goes on. -/
lemma serverOpen_exists (hfree : ¬ (g.fileAddr ≠ 0 ∨ g.fd > 0)) (s : List UInt8) :
    ∃ t g', Returns ((serverOpen 3 hdr).run g) t (0, g') ∧
      Feeds s t (s.drop (pathSize hdr)) := by
  obtain ⟨t, n, buf, hrecv, hfeeds, hn⟩ := recv_exists 0 .path
    (List.replicate (pathSize hdr) 0) s g (pathSize_lt hdr)
  let heap : Heap (pathSize hdr) := ⟨List.replicate (pathSize hdr) 0, (List.length_replicate ..).ge⟩
  suffices hfile : ∃ t₂ g', Returns ((serverOpenFile 3 hdr).run g)
      (⟨.malloc (pathSize hdr), some heap⟩ :: (t ++ t₂)) (0, g') ∧ ∀ e ∈ t₂, got e = .nothing by
    obtain ⟨t₂, g', hfile, hquiet⟩ := hfile
    refine ⟨_, g', returns_of_file hfile,
      feeds_append.mpr ⟨s.drop (pathSize hdr), ?_, by simp [Takes, got]⟩⟩
    rw [feeds_cons_nothing rfl]
    exact feeds_append.mpr ⟨_, hfeeds, (feeds_of_nothing hquiet).mpr rfl⟩
  rcases hn with rfl | ⟨hshort, rfl⟩
  · refine ⟨[⟨.openFile (cString buf) .rdwrCreatTrunc hdr.data, .ok 3⟩], { g with fd := 3 }, ?_,
      by simp [got]⟩
    rw [serverOpenFile, run_get_bind, if_neg hfree]
    refine returns_run_perform_bind.mpr ⟨some heap, _, rfl, ?_⟩
    refine returns_run_bind.mpr ⟨t, _, _, g, rfl, hrecv, ?_⟩
    dsimp only
    rw [← pathSize, if_neg (not_not.mpr rfl)]
    refine returns_run_perform_bind.mpr ⟨.ok 3, [], rfl, ?_⟩
    dsimp only
    rw [run_modify_bind, returns_run_pure]
    exact ⟨rfl, rfl, rfl⟩
  · refine ⟨[], g, ?_, by simp⟩
    rw [serverOpenFile, run_get_bind, if_neg hfree]
    refine returns_run_perform_bind.mpr ⟨some heap, _, rfl, ?_⟩
    refine returns_run_bind.mpr ⟨t, _, _, g, rfl, hrecv, ?_⟩
    dsimp only
    rw [← pathSize, if_pos (by omega), returns_run_pure]
    exact ⟨rfl, by decide, rfl⟩

/-- A WRITE on which the server goes on. -/
lemma serverWrite_exists (hfd : 0 < g.fd) (hlen : hdr.len.toNat = sizeofWrite) (s : List UInt8) :
    ∃ t g' s', Returns ((serverWrite 3 hdr).run g) t (0, g') ∧ Feeds s t s' := by
  obtain ⟨t, n, buf, hrecv, hfeeds, hn⟩ := recv_exists 0 .size
    (toBytes sizeofBytes g.bytes) s g (show sizeofBytes < 2 ^ 64 by decide)
  suffices hfile : ∃ t₂ g' s', Returns ((serverWriteFile 3 hdr).run g) (t ++ t₂) (0, g') ∧
      Feeds (s.drop sizeofBytes) t₂ s' by
    obtain ⟨t₂, g', s', hfile, hfeeds₂⟩ := hfile
    refine ⟨_, g', s', returns_of_file hfile, feeds_append.mpr ⟨s', ?_, by simp [Takes, got]⟩⟩
    exact feeds_append.mpr ⟨_, hfeeds, hfeeds₂⟩
  have hbytes : Returns ((recvBytes 3).run g) t (n, { g with bytes := ofBytes buf }) := by
    rw [recvBytes, run_get_bind]
    refine returns_run_bind.mpr ⟨t, [], _, g, (List.append_nil t).symm, hrecv, ?_⟩
    dsimp only
    rw [run_modify_bind, returns_run_pure]
    exact ⟨rfl, rfl, rfl⟩
  have hstart : ∀ t₂ g', Returns ((if n ≠ sizeofBytes then return toInt32 n else
      serverWriteData 3 : Rcp Int).run { g with bytes := ofBytes buf }) t₂ (0, g') →
      Returns ((serverWriteFile 3 hdr).run g) (t ++ t₂) (0, g') := by
    intro t₂ g' h₂
    rw [serverWriteFile, run_get_bind, if_neg (not_le.mpr hfd), if_neg (not_not.mpr hlen)]
    exact returns_run_bind.mpr ⟨t, t₂, n, _, rfl, hbytes, h₂⟩
  rcases hn with rfl | ⟨hshort, rfl⟩
  · obtain ⟨t₂, n, mem, hdata, hfeeds₂, hn⟩ := recv_exists 0
      (.mapping 4096) [] (s.drop sizeofBytes) { g with bytes := ofBytes buf, fileAddr := 4096 }
      (recv_size_lt hrecv)
    let mapping : Mapping (ofBytes buf) :=
      ⟨4096, by norm_num, by norm_num, List.replicate (ofBytes buf) 0, List.length_replicate ..⟩
    refine ⟨⟨.ftruncate g.fd (ofBytes buf), .ok ()⟩ ::
        ⟨.mmap g.fd (ofBytes buf), .ok mapping⟩ :: t₂,
      { g with bytes := ofBytes buf, fileAddr := 4096 },
      (s.drop sizeofBytes).drop (ofBytes buf), hstart _ _ ?_, ?_⟩
    · rw [if_neg (not_not.mpr rfl), serverWriteData, run_get_bind]
      refine returns_run_perform_bind.mpr ⟨.ok (), _, rfl, ?_⟩
      refine returns_run_perform_bind.mpr ⟨.ok mapping, _, rfl, ?_⟩
      dsimp only
      rw [run_modify_bind]
      refine returns_run_bind.mpr ⟨t₂, [], _, _, (List.append_nil t₂).symm, hdata, ?_⟩
      dsimp only
      rcases hn with rfl | ⟨hshort, rfl⟩
      · rw [if_neg (not_not.mpr rfl), returns_run_pure]
        exact ⟨rfl, rfl, rfl⟩
      · rw [if_pos (by omega), returns_run_pure]
        exact ⟨rfl, by decide, rfl⟩
    · rw [feeds_cons_nothing rfl, feeds_cons_nothing rfl]
      exact hfeeds₂
  · refine ⟨[], { g with bytes := ofBytes buf }, _, hstart _ _ ?_, rfl⟩
    rw [if_pos (by decide), returns_run_pure]
    exact ⟨rfl, by decide, rfl⟩

/-- Every CLOSE is handled with result `0`. -/
lemma serverClose_exists (hdr : MsgHdr) (g : Globals) (s : List UInt8) : ∃ t g',
    Returns ((do serverClose hdr; return (0 : Int) : Rcp Int).run g) t (0, g') ∧ Feeds s t s := by
  obtain ⟨t, hrun⟩ : ∃ t, Returns ((serverClose hdr).run g) t ((), g.closed) :=
    ⟨_, returns_serverClose.mpr ⟨⟨16, by omega, by simp [sizeofHdr]⟩, rfl, rfl⟩⟩
  have hclose : Returns ((do serverClose hdr; return (0 : Int) : Rcp Int).run g) t (0, g.closed) :=
    returns_run_bind.mpr ⟨t, [], (), g.closed, (List.append_nil t).symm, hrun, by simp⟩
  exact ⟨t, g.closed, hclose, (feeds_serverClose hclose).mpr rfl⟩

/-- **What is relied on is needed**: from a message that is not acceptable the server goes on with
result `0`, and the stream does not begin with a message that ends where it goes on.  For each
condition there is a run with result `0` in which the handler does not look, and of the message
that is to have been taken off the parts are where the server looks for them. -/
theorem acceptable_of_isMessage
    (h : ∀ t hdr g' s', Handled g s t hdr 0 g' s' → ∃ m, IsMessage hdr m ∧ s = m ++ s') :
    Acceptable g s := by
  intro hlong hversion hlen
  generalize hhdr : MsgHdr.decode (s.take sizeofHdr) = hdr at hversion hlen ⊢
  have hparts : ∀ t g' s', Handled g s t hdr 0 g' s' →
      WellFormed hdr (bodyOf s) ∧ hdr.len.toNat + payloadSize hdr (bodyOf s) ≤ s.length := by
    intro t g' s' hhandled
    obtain ⟨m, hm, rfl⟩ := h t hdr g' s' hhandled
    obtain ⟨-, hwf, hsize⟩ := hm.parts
    refine ⟨hwf, ?_⟩
    rw [List.length_append, hsize]
    exact Nat.le_add_right _ _
  refine ⟨fun hcmd hfree => ?_, fun hcmd => ?_, fun hcmd hfd hsize => ?_⟩
  · obtain ⟨t, g', hrun, hfeeds⟩ := serverOpen_exists hfree (s.drop sizeofHdr)
    rw [← serverHandle_open hcmd] at hrun
    obtain ⟨t, hhandled⟩ := handled_of_run hlong hhdr.symm hversion hlen hrun hfeeds
    obtain ⟨hwf, hle⟩ := hparts _ _ _ hhandled
    refine ⟨by omega, ?_⟩
    rcases hwf.shape with ⟨-, hnul⟩ | ⟨hcmd', -⟩ | ⟨hcmd', -⟩
    · exact hnul
    · exact absurd (hcmd.symm.trans hcmd') (by decide)
    · exact absurd (hcmd.symm.trans hcmd') (by decide)
  · obtain ⟨t, g', hrun, hfeeds⟩ := serverClose_exists hdr g (s.drop sizeofHdr)
    rw [← serverHandle_close hcmd] at hrun
    obtain ⟨t, hhandled⟩ := handled_of_run hlong hhdr.symm hversion hlen hrun hfeeds
    obtain ⟨hwf, -⟩ := hparts _ _ _ hhandled
    rcases hwf.shape with ⟨hcmd', -⟩ | ⟨hcmd', -⟩ | ⟨-, hsize⟩
    · exact absurd (hcmd.symm.trans hcmd') (by decide)
    · exact absurd (hcmd.symm.trans hcmd') (by decide)
    · exact hsize
  · obtain ⟨t, g', s', hrun, hfeeds⟩ := serverWrite_exists hfd hsize (s.drop sizeofHdr)
    rw [← serverHandle_write hcmd] at hrun
    obtain ⟨t, hhandled⟩ := handled_of_run hlong hhdr.symm hversion hlen hrun hfeeds
    obtain ⟨-, hle⟩ := hparts _ _ _ hhandled
    rw [payloadSize, if_pos hcmd, hsize] at hle
    exact hle

end

/-! ## Whole sessions -/

/-- A round before the others. -/
lemma AtHeader.cons {g₀ g₁ g₂ : Globals} {s₀ s₁ s₂ : List UInt8} {t t' : Trace} {hdr : MsgHdr}
    (h : Handled g₀ s₀ t hdr 0 g₁ s₁) (hat : AtHeader g₁ s₁ t' g₂ s₂) :
    AtHeader g₀ s₀ (t ++ t') g₂ s₂ := by
  induction hat with
  | start =>
      rw [List.append_nil]
      exact AtHeader.next AtHeader.start h
  | next _ hhandled ih =>
      rw [← List.append_assoc]
      exact AtHeader.next ih hhandled

/-- **Every run of the loop is made of rounds**: after those with result `0` the server waits for a
header or refuses one, or a command is under way, or was the last. -/
theorem serverLoop_rounds :
    ∀ {fuel : ℕ} {msg : MsgHdr} {g : Globals} {s s' : List UInt8} {t : Trace},
    CanDo ((serverLoop fuel msg).run g) t → Feeds s t s' →
    ∃ t₁ t₂ g₁ s₁, t = t₁ ++ t₂ ∧ AtHeader g s t₁ g₁ s₁ ∧ Feeds s₁ t₂ s' ∧
      (OnlyInto .header t₂ ∨ ∃ fuel t₃ t₄, t₂ = t₃ ++ t₄ ∧ OnlyInto .header t₃ ∧
        CanDo ((serverHandle fuel (MsgHdr.decode (s₁.take sizeofHdr))).run g₁) t₄)
  | 0, msg, g, s, s', t, h, hfeeds => by
      rw [canDo_run_halt.mp h] at hfeeds ⊢
      exact ⟨[], [], g, s, rfl, AtHeader.start, hfeeds, Or.inl fun e he => absurd he (by simp)⟩
  | fuel + 1, msg, g, s, s', t, h, hfeeds => by
      rw [serverLoop] at h
      rcases canDo_run_bind.mp h with h | ⟨t₁, t₂, ⟨ret, hdr⟩, g₁, rfl, h₁, h₂⟩
      · exact ⟨[], t, g, s, rfl, AtHeader.start, hfeeds, Or.inl (msgRecvHdr_onlyInto h)⟩
      · have honly := msgRecvHdr_onlyInto h₁.canDo
        obtain ⟨rfl, n, buf, -, -, ⟨rfl, -⟩ | ⟨rfl, -⟩⟩ := msgRecvHdr_cases h₁
        · rw [canDo_run_pure.mp h₂, List.append_nil] at hfeeds ⊢
          exact ⟨[], t₁, g₁, s, rfl, AtHeader.start, hfeeds, Or.inl honly⟩
        · obtain ⟨s₁, hs₁, hs₂⟩ := feeds_append.mp hfeeds
          obtain ⟨-, rfl, -⟩ := msgRecvHdr_feeds h₁ hs₁
          rcases canDo_run_bind.mp h₂ with h₂ | ⟨t₃, t₄, ret, g₂, rfl, h₃, h₄⟩
          · exact ⟨[], t₁ ++ t₂, g₁, s, rfl, AtHeader.start, hfeeds,
              Or.inr ⟨fuel, t₁, t₂, rfl, honly, h₂⟩⟩
          · split at h₄
            · rename_i hret
              subst hret
              obtain ⟨s₂, hs₃, hs₄⟩ := feeds_append.mp hs₂
              obtain ⟨t₅, t₆, g₃, s₃, rfl, hat, hfeeds₆, hrest⟩ := serverLoop_rounds h₄ hs₄
              have hhandled : Handled g₁ s (t₁ ++ t₃) (MsgHdr.decode (s.take sizeofHdr)) 0 g₂ s₂ :=
                ⟨fuel, msg, t₁, t₃, rfl, h₁, h₃, feeds_append.mpr ⟨_, hs₁, hs₃⟩⟩
              exact ⟨(t₁ ++ t₃) ++ t₅, t₆, g₃, s₃, by simp, AtHeader.cons hhandled hat, hfeeds₆,
                hrest⟩
            · rw [canDo_run_pure.mp h₄, List.append_nil] at hfeeds ⊢
              exact ⟨[], t₁ ++ t₃, g₁, s, rfl, AtHeader.start, hfeeds,
                Or.inr ⟨fuel, t₁, t₃, rfl, honly, h₃.canDo⟩⟩

/-- Where all the messages are acceptable, a stream has been taken off message by message. -/
theorem atHeader_messages {g₀ g : Globals} {s₀ s : List UInt8} {t : Trace}
    (h : AtHeader g₀ s₀ t g s) (hok : ∀ t g s, AtHeader g₀ s₀ t g s → Acceptable g s) :
    ∃ ms : List (MsgHdr × List UInt8),
      (∀ m ∈ ms, IsMessage m.1 m.2) ∧ s₀ = (ms.map Prod.snd).flatten ++ s := by
  induction h with
  | start => exact ⟨[], by simp, rfl⟩
  | @next t t' g g' s s' hdr hat hhandled ih =>
      obtain ⟨ms, hms, hs₀⟩ := ih
      obtain ⟨m, hm, hs⟩ := hhandled.isMessage (hok _ _ _ hat)
      refine ⟨ms ++ [(hdr, m)], ?_, by simp [hs₀, hs]⟩
      simp only [List.mem_append, List.mem_singleton]
      rintro x (hx | rfl)
      · exact hms x hx
      · exact hm

/-- **The messages that the server takes off a stream.**  All those that it handles with result `0`
are well formed, and it goes on just behind each, if and only if all the messages that it comes to
are of the kind that the handlers rely on.

By induction over the messages that were handled: each is taken off where it begins, so that it is
enough to know when one message is taken off in full (`Handled.isMessage`) and that nothing less
will do (`acceptable_of_isMessage`).  The loop itself adds nothing, since it looks at no more than
the header of the next one (`serverLoop_rounds`). -/
theorem messages_synced_iff (g₀ : Globals) (s₀ : List UInt8) :
    (∀ t g s, AtHeader g₀ s₀ t g s → ∀ t' hdr g' s', Handled g s t' hdr 0 g' s' →
      ∃ m, IsMessage hdr m ∧ s = m ++ s') ↔
    ∀ t g s, AtHeader g₀ s₀ t g s → Acceptable g s := by
  constructor
  · intro h t g s hat
    exact acceptable_of_isMessage (h t g s hat)
  · intro h t g s hat t' hdr g' s' hhandled
    exact hhandled.isMessage (h t g s hat)

/-- A CLOSE that announces a body of eight bytes. -/
def closeWithBody : MsgHdr := ⟨0, cmdClose, 24, 0, 0⟩

/-- The length of a CLOSE is not looked at: the server goes on in the middle of the message. -/
theorem closeWithBody_notSynced : ¬ ∀ t hdr g' s',
    Handled {} (closeWithBody.encode ++ List.replicate 8 0) t hdr 0 g' s' →
      ∃ m, IsMessage hdr m ∧ closeWithBody.encode ++ List.replicate 8 0 = m ++ s' := by
  intro h
  have hok := acceptable_of_isMessage h (by decide) (by decide +kernel) (by decide +kernel)
  exact absurd (hok.2.1 (by decide +kernel)) (by decide +kernel)

end Rcopy
