import RdmaExamples.Library.TwoRuns
import RdmaExamples.Rcopy.ServerRuns

/-!
# Sessions of the server

`fd`, `file_addr` and `bytes` are global.  `server_close` resets the first two only, and only where
the client sends a CLOSE: a client that goes away between its OPEN and its CLOSE leaves its file to
the next one, and every WRITE leaves its size.  What the next session can do is the same as on a
fresh server just where no file is open when it starts and the size is 0 (`session_isolated_iff`).

* `Like` — two states that the handlers cannot tell apart: a descriptor that is not positive is as
  good as any other such, since the code tests `fd > 0` and `fd <= 0` only.  `file_addr` and `bytes`
  have to be equal.
* `serverSession_follows` — two states that look alike allow the same sessions, and leave states
  that look alike again.  One lemma for each function of the server.
* `LeftOver` — what sessions leave behind: a mapping only with its file, and a size of 64 bits.
* `canDo_startOfWrite`, `canDo_staleWrite` — one run that a server can do only where a file is open,
  and one that it can do only where the size has a given value.  The second one needs an `rrecv`
  that fails: `_recv` then takes the size for received although nothing has arrived, and
  `server_write` resizes the file to what an earlier client left.
-/

namespace Rcopy

open ByteStrings MachineWords Programs Tiling

/-- What the globals are after any number of sessions of `server_run`. -/
inductive Sessions : Globals → Prop
  | fresh : Sessions {}
  | session {g g' : Globals} {fuel : ℕ} {t : Trace} :
      Sessions g → Returns ((serverSession fuel).run g) t ((), g') → Sessions g'

/-- A session from `g` shows nothing that a session of a fresh server could not show, and the other
way round, whatever the calls answer. -/
def Isolated (g : Globals) : Prop :=
  ∀ fuel t, CanDo ((serverSession fuel).run g) t ↔ CanDo ((serverSession fuel).run {}) t

/-! ## States that look alike -/

/-- Two states that the handlers cannot tell apart. -/
structure Like (g g' : Globals) : Prop where
  fd : g.fd = g'.fd ∨ (g.fd ≤ 0 ∧ g'.fd ≤ 0)
  fileAddr : g.fileAddr = g'.fileAddr
  bytes : g.bytes = g'.bytes

lemma Like.symm {g g' : Globals} (h : Like g g') : Like g' g where
  fd := h.fd.imp Eq.symm And.symm
  fileAddr := h.fileAddr.symm
  bytes := h.bytes.symm

lemma Like.fd_pos {g g' : Globals} (h : Like g g') : g.fd > 0 ↔ g'.fd > 0 := by
  rcases h.fd with heq | hle
  · rw [heq]
  · omega

lemma Like.fd_eq {g g' : Globals} (h : Like g g') (hpos : g.fd > 0) : g.fd = g'.fd := by
  rcases h.fd with heq | hle
  · exact heq
  · omega

/-- Same result, and states that look alike. -/
def LikeResult {α : Type} (r r' : α × Globals) : Prop := r.1 = r'.1 ∧ Like r.2 r'.2

section Handlers

variable {g g' : Globals} {fuel len : ℕ} {msg : MsgHdr} {dest : Dest}

/-- `_recv` does not look at the globals. -/
lemma recvFrom_follows : ∀ {fuel offset : ℕ} {buf : List UInt8},
    Follows (fun r r' => r.1 = r'.1 ∧ r.2 = g ∧ r'.2 = g')
      ((recvFrom dest len fuel offset buf).run g) ((recvFrom dest len fuel offset buf).run g')
  | 0, _, _ => Follows.halt
  | fuel + 1, offset, buf => by
      rw [recvFrom]
      split
      · rw [run_perform_bind, run_perform_bind]
        refine Follows.call fun reply => ?_
        dsimp only
        split
        · exact Follows.ret ⟨rfl, rfl, rfl⟩
        · exact recvFrom_follows
      · exact Follows.ret ⟨rfl, rfl, rfl⟩

lemma recv_follows {buf : List UInt8} :
    Follows (fun r r' => r.1 = r'.1 ∧ r.2 = g ∧ r'.2 = g')
      ((recv fuel dest buf len).run g) ((recv fuel dest buf len).run g') := recvFrom_follows

/-- The size is received on top of `bytes`, which is the same in both. -/
lemma recvBytes_follows (h : Like g g') :
    Follows (fun r r' => r.1 = r'.1 ∧ r.2.bytes = r'.2.bytes ∧
        (r.2.fd = g.fd ∧ r.2.fileAddr = g.fileAddr) ∧
        (r'.2.fd = g'.fd ∧ r'.2.fileAddr = g'.fileAddr))
      ((recvBytes fuel).run g) ((recvBytes fuel).run g') := by
  rw [recvBytes, run_get_bind, run_get_bind, StateT.run_bind, StateT.run_bind, ← h.bytes]
  refine recv_follows.bind ?_
  rintro ⟨⟨n, mem⟩, s⟩ ⟨⟨n', mem'⟩, s'⟩ ⟨hn, rfl, rfl⟩
  obtain ⟨rfl, rfl⟩ := Prod.mk.inj hn
  exact Follows.ret ⟨rfl, rfl, ⟨rfl, rfl⟩, rfl, rfl⟩

lemma msgSendResp_follows {status : Int} (h : Like g g') :
    Follows LikeResult ((msgSendResp msg status).run g) ((msgSendResp msg status).run g') :=
  Follows.call fun _ => Follows.ret ⟨rfl, h⟩

lemma msgRecvHdr_follows (h : Like g g') :
    Follows LikeResult ((msgRecvHdr fuel msg).run g) ((msgRecvHdr fuel msg).run g') := by
  rw [msgRecvHdr, StateT.run_bind, StateT.run_bind]
  refine recv_follows.bind ?_
  rintro ⟨⟨n, mem⟩, s⟩ ⟨⟨n', mem'⟩, s'⟩ ⟨hn, rfl, rfl⟩
  obtain ⟨rfl, rfl⟩ := Prod.mk.inj hn
  dsimp only
  split
  · exact Follows.ret ⟨rfl, h⟩
  · split
    · exact Follows.ret ⟨rfl, h⟩
    · exact Follows.ret ⟨rfl, h⟩

/-- A handler's response goes out the same in both. -/
lemma respond_follows {m : Rcp Int}
    (hm : Follows LikeResult (m.run g) (m.run g')) :
    Follows LikeResult
      ((m >>= fun ret => do
        msgSendResp msg ret
        return ret).run g)
      ((m >>= fun ret => do
        msgSendResp msg ret
        return ret).run g') := by
  rw [StateT.run_bind, StateT.run_bind]
  refine hm.bind ?_
  rintro ⟨ret, s⟩ ⟨ret', s'⟩ ⟨hret, hs⟩
  obtain rfl : ret = ret' := hret
  dsimp only
  rw [StateT.run_bind, StateT.run_bind]
  refine (msgSendResp_follows hs).bind ?_
  rintro ⟨_, s₁⟩ ⟨_, s₂⟩ ⟨-, hs'⟩
  exact Follows.ret ⟨rfl, hs'⟩

lemma serverOpen_follows (h : Like g g') :
    Follows LikeResult ((serverOpen fuel msg).run g) ((serverOpen fuel msg).run g') := by
  refine respond_follows ?_
  rw [serverOpenFile, run_get_bind, run_get_bind]
  have hbusy : (g.fileAddr ≠ 0 ∨ g.fd > 0) ↔ (g'.fileAddr ≠ 0 ∨ g'.fd > 0) := by
    rw [h.fileAddr, h.fd_pos]
  by_cases hb : g.fileAddr ≠ 0 ∨ g.fd > 0
  · rw [if_pos hb, if_pos (hbusy.mp hb)]
    exact Follows.ret ⟨rfl, h⟩
  · rw [if_neg hb, if_neg (mt hbusy.mpr hb)]
    rw [run_perform_bind, run_perform_bind]
    refine Follows.call fun reply => ?_
    cases reply with
    | none => exact Follows.ret ⟨rfl, h⟩
    | some heap =>
        dsimp only
        rw [StateT.run_bind, StateT.run_bind]
        refine recv_follows.bind ?_
        rintro ⟨⟨n, mem⟩, s⟩ ⟨⟨n', mem'⟩, s'⟩ ⟨hn, rfl, rfl⟩
        obtain ⟨rfl, rfl⟩ := Prod.mk.inj hn
        dsimp only
        split
        · exact Follows.ret ⟨rfl, h⟩
        · rw [run_perform_bind, run_perform_bind]
          refine Follows.call fun reply => ?_
          cases reply with
          | error e => exact Follows.ret ⟨rfl, Or.inl rfl, h.fileAddr, h.bytes⟩
          | ok fd => exact Follows.ret ⟨rfl, Or.inl rfl, h.fileAddr, h.bytes⟩

lemma unmapFile_follows (h : Like g g') :
    Follows LikeResult (unmapFile.run g) (unmapFile.run g') := by
  rw [unmapFile, run_get_bind, run_get_bind]
  by_cases hne : g.fileAddr ≠ 0
  · rw [if_pos hne, if_pos (h.fileAddr ▸ hne), run_perform_bind, run_perform_bind, ← h.fileAddr,
      ← h.bytes]
    exact Follows.call fun _ => Follows.ret ⟨rfl, h.fd, rfl, h.bytes⟩
  · rw [if_neg hne, if_neg (h.fileAddr ▸ hne)]
    exact Follows.ret ⟨rfl, h⟩

lemma closeFile_follows (h : Like g g') :
    Follows LikeResult (closeFile.run g) (closeFile.run g') := by
  rw [closeFile, run_get_bind, run_get_bind]
  by_cases hpos : g.fd > 0
  · rw [if_pos hpos, if_pos (h.fd_pos.mp hpos), run_perform_bind, run_perform_bind,
      ← h.fd_eq hpos]
    exact Follows.call fun _ => Follows.ret ⟨rfl, Or.inl rfl, h.fileAddr, h.bytes⟩
  · rw [if_neg hpos, if_neg (mt h.fd_pos.mpr hpos)]
    exact Follows.ret ⟨rfl, h⟩

lemma serverClose_follows (h : Like g g') :
    Follows LikeResult ((serverClose msg).run g) ((serverClose msg).run g') := by
  rw [serverClose, StateT.run_bind, StateT.run_bind]
  refine (msgSendResp_follows h).bind ?_
  rintro ⟨_, s⟩ ⟨_, s'⟩ ⟨-, hs⟩
  dsimp only at hs ⊢
  rw [StateT.run_bind, StateT.run_bind]
  refine (unmapFile_follows hs).bind ?_
  rintro ⟨_, s⟩ ⟨_, s'⟩ ⟨-, hs⟩
  exact closeFile_follows hs

/-- Past the size, with the same file and the same size. -/
lemma serverWriteData_follows (hfd : g.fd = g'.fd) (hbytes : g.bytes = g'.bytes)
    (haddr : g.fileAddr = g'.fileAddr) :
    Follows LikeResult ((serverWriteData fuel).run g) ((serverWriteData fuel).run g') := by
  obtain rfl : g = g' := by
    cases g
    cases g'
    exact Globals.mk.injEq .. ▸ ⟨hbytes, hfd, haddr⟩
  exact Follows.refl (fun r => ⟨rfl, Or.inl rfl, rfl, rfl⟩) _

lemma serverWrite_follows (h : Like g g') :
    Follows LikeResult ((serverWrite fuel msg).run g) ((serverWrite fuel msg).run g') := by
  refine respond_follows ?_
  rw [serverWriteFile, run_get_bind, run_get_bind]
  have hle : g.fd ≤ 0 ↔ g'.fd ≤ 0 := by
    have := h.fd_pos
    omega
  by_cases hfd : g.fd ≤ 0
  · rw [if_pos hfd, if_pos (hle.mp hfd)]
    exact Follows.ret ⟨rfl, h⟩
  · rw [if_neg hfd, if_neg (mt hle.mpr hfd)]
    split
    · exact Follows.ret ⟨rfl, h⟩
    · rw [StateT.run_bind, StateT.run_bind]
      refine (recvBytes_follows h).bind ?_
      rintro ⟨n, s⟩ ⟨n', s'⟩ ⟨hn, hbytes, ⟨hsfd, hsaddr⟩, hsfd', hsaddr'⟩
      obtain rfl : n = n' := hn
      dsimp only at hbytes hsfd hsaddr hsfd' hsaddr' ⊢
      have hfd' : s.fd = s'.fd := by rw [hsfd, hsfd', h.fd_eq (not_le.mp hfd)]
      have haddr : s.fileAddr = s'.fileAddr := by rw [hsaddr, hsaddr', h.fileAddr]
      split
      · exact Follows.ret ⟨rfl, Or.inl hfd', haddr, hbytes⟩
      · exact serverWriteData_follows hfd' hbytes haddr

lemma serverHandle_follows (h : Like g g') :
    Follows LikeResult ((serverHandle fuel msg).run g)
      ((serverHandle fuel msg).run g') := by
  rw [serverHandle]
  split
  · exact serverOpen_follows h
  · split
    · rw [StateT.run_bind, StateT.run_bind]
      refine (serverClose_follows h).bind ?_
      rintro ⟨_, s⟩ ⟨_, s'⟩ ⟨-, hs⟩
      exact Follows.ret ⟨rfl, hs⟩
    · split
      · exact serverWrite_follows h
      · rw [StateT.run_bind, StateT.run_bind]
        refine (msgSendResp_follows h).bind ?_
        rintro ⟨_, s⟩ ⟨_, s'⟩ ⟨-, hs⟩
        exact Follows.ret ⟨rfl, hs⟩

lemma serverLoop_follows : ∀ {fuel : ℕ} {msg : MsgHdr} {g g' : Globals}, Like g g' →
    Follows LikeResult ((serverLoop fuel msg).run g) ((serverLoop fuel msg).run g')
  | 0, _, _, _, _ => Follows.halt
  | fuel + 1, msg, g, g', h => by
      rw [serverLoop, StateT.run_bind, StateT.run_bind]
      refine (msgRecvHdr_follows h).bind ?_
      rintro ⟨⟨ret, hdr⟩, s⟩ ⟨⟨ret', hdr'⟩, s'⟩ ⟨hret, hs⟩
      obtain ⟨rfl, rfl⟩ := Prod.mk.inj hret
      dsimp only at hs ⊢
      split
      · exact Follows.ret ⟨rfl, hs⟩
      · rw [StateT.run_bind, StateT.run_bind]
        refine (serverHandle_follows hs).bind ?_
        rintro ⟨ret, s⟩ ⟨ret', s'⟩ ⟨hret, hs⟩
        obtain rfl : ret = ret' := hret
        dsimp only at hs ⊢
        split
        · exact serverLoop_follows hs
        · exact Follows.ret ⟨rfl, hs⟩

/-- **States that look alike allow the same sessions.**  Each function of the server makes the same
calls from both and leaves states that look alike, so the relation is carried through the loop by
`Follows.bind`. -/
theorem serverSession_follows (h : Like g g') :
    Follows LikeResult ((serverSession fuel).run g) ((serverSession fuel).run g') := by
  rw [serverSession, run_perform_bind, run_perform_bind]
  refine Follows.call fun _ => ?_
  rw [StateT.run_bind, StateT.run_bind, serverProcess, run_perform_bind, run_perform_bind]
  refine Follows.bind (Follows.call fun msg => serverLoop_follows h) ?_
  rintro ⟨_, s⟩ ⟨_, s'⟩ ⟨-, hs⟩
  dsimp only at hs ⊢
  rw [run_perform_bind, run_perform_bind]
  exact Follows.call fun _ => Follows.call fun _ => Follows.ret ⟨rfl, hs⟩

end Handlers

/-! ## What sessions leave behind -/

/-- What is mapped is an open file, and the size has 64 bits. -/
structure LeftOver (g : Globals) : Prop where
  file : g.fileAddr ≠ 0 → 0 < g.fd
  bytes_lt : g.bytes < 2 ^ 64

section LeftOver

variable {g g' : Globals} {fuel : ℕ} {msg : MsgHdr} {t : Trace} {ret : Int}

/-- Where nothing is mapped, any descriptor will do. -/
lemma LeftOver.unmapped (hnull : g.fileAddr = 0) (hlt : g.bytes < 2 ^ 64) : LeftOver g where
  file hne := absurd hnull hne
  bytes_lt := hlt

lemma OpenRun.leftOver (h : OpenRun fuel msg g t ret g') (hg : LeftOver g) : LeftOver g' := by
  cases h with
  | busy _ => exact hg
  | noMemory _ => exact hg
  | noPath => exact hg
  | notOpened hfree => exact ⟨fun hne => absurd (Or.inl hne) hfree, hg.bytes_lt⟩
  | opened hfree => exact ⟨fun hne => absurd (Or.inl hne) hfree, hg.bytes_lt⟩

lemma DataRun.fd_eq (h : DataRun fuel g t ret g') : g'.fd = g.fd ∧ g'.bytes = g.bytes := by
  cases h <;> exact ⟨rfl, rfl⟩

/-- Behind the tests of `server_write` a file is open, and the size comes out of 8 bytes. -/
lemma WriteRun.leftOver (h : WriteRun fuel msg g t ret g') (hg : LeftOver g) : LeftOver g' := by
  cases h with
  | refused _ => exact hg
  | noSize hfd _ t n buf hrecv => exact ⟨fun _ => hfd, recv_size_lt hrecv⟩
  | size hfd _ t t' buf ret g' hrecv hdata =>
      obtain ⟨hsame, hbytes⟩ := hdata.fd_eq
      refine ⟨fun _ => ?_, ?_⟩
      · rw [hsame]
        exact hfd
      · rw [hbytes]
        exact recv_size_lt hrecv

lemma msgSendResp_ends {status : Int} (hg : LeftOver g) :
    Ends (fun r => LeftOver r.2) ((msgSendResp msg status).run g) :=
  Ends.call fun _ => Ends.ret hg

lemma serverOpen_ends (hg : LeftOver g) :
    Ends (fun r => LeftOver r.2) ((serverOpen fuel msg).run g) := by
  rw [serverOpen, StateT.run_bind]
  refine Ends.bind (fun t r h => (serverOpenFile_run h).leftOver hg) fun r hr => ?_
  rw [StateT.run_bind]
  exact (msgSendResp_ends hr).bind fun _ hr' => Ends.ret hr'

lemma serverWrite_ends (hg : LeftOver g) :
    Ends (fun r => LeftOver r.2) ((serverWrite fuel msg).run g) := by
  rw [serverWrite, StateT.run_bind]
  refine Ends.bind (fun t r h => (serverWriteFile_run h).leftOver hg) fun r hr => ?_
  rw [StateT.run_bind]
  exact (msgSendResp_ends hr).bind fun _ hr' => Ends.ret hr'

/-- A CLOSE leaves nothing mapped, and the size as it was. -/
lemma serverClose_ends (hg : LeftOver g) :
    Ends (fun r : Unit × Globals => LeftOver r.2) ((serverClose msg).run g) := by
  rintro t ⟨u, g'⟩ h
  obtain ⟨_, rfl, rfl⟩ := returns_serverClose.mp h
  exact LeftOver.unmapped rfl hg.bytes_lt

lemma serverHandle_ends (hg : LeftOver g) :
    Ends (fun r => LeftOver r.2) ((serverHandle fuel msg).run g) := by
  rw [serverHandle]
  split
  · exact serverOpen_ends hg
  · split
    · rw [StateT.run_bind]
      exact (serverClose_ends hg).bind fun r hr => Ends.ret hr
    · split
      · exact serverWrite_ends hg
      · rw [StateT.run_bind]
        exact (msgSendResp_ends hg).bind fun r hr => Ends.ret hr

lemma msgRecvHdr_ends (hg : LeftOver g) :
    Ends (fun r => LeftOver r.2) ((msgRecvHdr fuel msg).run g) := by
  intro t r h
  rwa [(msgRecvHdr_cases h).1]

lemma serverLoop_ends : ∀ {fuel : ℕ} {msg : MsgHdr} {g : Globals}, LeftOver g →
    Ends (fun r => LeftOver r.2) ((serverLoop fuel msg).run g)
  | 0, _, _, _ => Ends.halt
  | fuel + 1, msg, g, hg => by
      rw [serverLoop, StateT.run_bind]
      refine (msgRecvHdr_ends hg).bind ?_
      rintro ⟨⟨ret, hdr⟩, s⟩ hs
      dsimp only at hs ⊢
      split
      · exact Ends.ret hs
      · rw [StateT.run_bind]
        refine (serverHandle_ends hs).bind ?_
        rintro ⟨ret, s⟩ hr'
        dsimp only at hr' ⊢
        split
        · exact serverLoop_ends hr'
        · exact Ends.ret hr'

/-- A session leaves a mapping only with its file, and a size of 64 bits. -/
lemma serverSession_ends (hg : LeftOver g) :
    Ends (fun r => LeftOver r.2) ((serverSession fuel).run g) := by
  rw [serverSession, run_perform_bind]
  refine Ends.call fun _ => ?_
  rw [StateT.run_bind, serverProcess, run_perform_bind]
  refine Ends.bind (Ends.call fun msg => serverLoop_ends hg) fun r hr => ?_
  rw [run_perform_bind]
  exact Ends.call fun _ => Ends.call fun _ => Ends.ret hr

/-- So do any number of sessions, one after the other. -/
lemma sessions_leftOver (h : Sessions g) : LeftOver g := by
  induction h with
  | fresh => exact LeftOver.unmapped rfl (by norm_num)
  | session _ hrun ih => exact serverSession_ends ih _ _ hrun

end LeftOver

/-! ## What tells them apart

Two streams are enough.  The first asks whether a file is open.  The second one lets the size fail
to arrive, so that the old one is used. -/

/-- A client is there, and `server_process` has its header on the stack. -/
def sessionStart : Trace := [⟨.raccept, ()⟩, ⟨.uninitialised, ⟨0, 0, 0, 0, 0⟩⟩]

/-- A header arrives in one piece. -/
def headerArrives (hdr : MsgHdr) : Event Call Reply :=
  ⟨.rrecv .header 0 sizeofHdr, some ⟨hdr.encode, (MsgHdr.length_encode hdr).le⟩⟩

/-- The call with which `server_write` asks for the size. -/
def asksForSize : Event Call Reply := ⟨.rrecv .size 0 sizeofBytes, some ⟨[], by simp⟩⟩

/-- The same call, which fails. -/
def sizeFails : Event Call Reply := ⟨.rrecv .size 0 sizeofBytes, none⟩

/-- An OPEN that succeeds: its path arrives in one piece, and the file gets descriptor 3. -/
def opensFile : Trace :=
  [⟨.malloc 8, some ⟨List.replicate 8 0, by simp⟩⟩,
    ⟨.rrecv .path 0 8, some ⟨List.replicate 7 97 ++ [0], by simp⟩⟩,
    ⟨.openFile (List.replicate 7 97) .rdwrCreatTrunc 0, .ok 3⟩,
    ⟨.rsend (respHdr openHdr8 0).encode, ⟨16, by decide, by simp [sizeofHdr]⟩⟩]

section Apart

variable {g : Globals} {fuel : ℕ} {hdr msg : MsgHdr}

lemma msgRecvHdr_arrives (hversion : hdr.version = 0) (hlen : sizeofHdr ≤ hdr.len.toNat) :
    Returns ((msgRecvHdr (fuel + 2) msg).run g) [headerArrives hdr] ((sizeofHdr, hdr), g) := by
  have hwhole : Returns ((msgRecvHdr (fuel + 2) msg).run g) [headerArrives hdr]
      ((sizeofHdr, MsgHdr.decode hdr.encode), g) :=
    msgRecvHdr_whole (MsgHdr.length_encode hdr) (by rwa [MsgHdr.decode_encode])
      (by rwa [MsgHdr.decode_encode])
  rwa [MsgHdr.decode_encode] at hwhole

/-- A round of the loop of `server_process`, once its header has arrived. -/
lemma canDo_serverLoop (hversion : hdr.version = 0) (hlen : sizeofHdr ≤ hdr.len.toNat)
    {rest : Unit → Rcp Unit} {t : Trace} :
    CanDo ((serverLoop (fuel + 3) msg >>= rest).run g) (headerArrives hdr :: t) ↔
      CanDo ((serverHandle (fuel + 2) hdr >>= fun ret =>
        (if ret = 0 then serverLoop (fuel + 2) hdr else return ()) >>= rest).run g) t := by
  rw [serverLoop, bind_assoc, ← List.singleton_append,
    canDo_run_bind_append (msgRecvHdr_arrives hversion hlen)]
  dsimp only
  rw [if_neg (not_not.mpr rfl), bind_assoc]

/-- A session comes to the loop, and goes on behind it. -/
lemma canDo_serverSession {t : Trace} :
    CanDo ((serverSession fuel).run g) (sessionStart ++ t) ↔
      CanDo ((serverLoop fuel ⟨0, 0, 0, 0, 0⟩ >>= fun _ => do
        call .rshutdown
        call .rclose).run g) t := by
  have haccept : Returns ((call .raccept : Rcp Unit).run g) [⟨.raccept, ()⟩] ((), g) := by simp
  have huninit : Returns ((call .uninitialised : Rcp MsgHdr).run g)
      [⟨.uninitialised, ⟨0, 0, 0, 0, 0⟩⟩] (⟨0, 0, 0, 0, 0⟩, g) := by simp
  have hstart : sessionStart ++ t =
      [⟨.raccept, ()⟩] ++ ([⟨.uninitialised, ⟨0, 0, 0, 0, 0⟩⟩] ++ t) := rfl
  rw [hstart, serverSession, canDo_run_bind_append haccept, serverProcess, bind_assoc,
    canDo_run_bind_append huninit]

/-- **A WRITE tells whether a file is open**: without one it is answered at once. -/
lemma canDo_startOfWrite (fuel : ℕ) :
    CanDo ((serverSession (fuel + 3)).run g) (sessionStart ++ [headerArrives writeHdr, asksForSize])
      ↔ 0 < g.fd := by
  rw [canDo_serverSession, canDo_serverLoop rfl (by decide), serverHandle_write rfl, serverWrite,
    serverWriteFile]
  simp only [bind_assoc]
  rw [run_get_bind]
  by_cases hfd : g.fd ≤ 0
  · refine iff_of_false (fun h => ?_) (by omega)
    rw [if_pos hfd, pure_bind, msgSendResp, bind_assoc, run_perform_bind] at h
    exact absurd (canDo_call_cons h) (by simp [asksForSize])
  · refine iff_of_true ?_ (by omega)
    rw [if_neg hfd, if_neg (by decide), recvBytes]
    simp only [bind_assoc]
    rw [run_get_bind, recv, recvFrom, if_pos (by decide), bind_assoc, run_perform_bind]
    exact canDo_call.mpr (Or.inr ⟨some ⟨[], by simp⟩, [], rfl, canDo_nil _⟩)

/-- An OPEN where no file is open yet. -/
lemma serverHandle_opensFile (hfree : ¬ (g.fileAddr ≠ 0 ∨ g.fd > 0)) :
    Returns ((serverHandle (fuel + 2) openHdr8).run g) opensFile (0, { g with fd := 3 }) := by
  have hpath : Returns ((recv (fuel + 2) .path (List.replicate 8 0) 8).run g)
      [⟨.rrecv .path 0 8, some ⟨List.replicate 7 97 ++ [0], by simp⟩⟩]
      ((8, List.replicate 7 97 ++ [0]), g) :=
    recv_whole (show (List.replicate 7 97 ++ [0] : List UInt8).length = 8 from rfl) (by decide)
      (by decide)
  rw [serverHandle_open rfl, serverOpen, serverOpenFile]
  simp only [bind_assoc]
  rw [run_get_bind, if_neg hfree, bind_assoc]
  refine returns_run_perform_bind.mpr ⟨_, _, rfl, ?_⟩
  dsimp only
  rw [bind_assoc]
  refine returns_run_bind.mpr ⟨_, _, _, _, rfl, hpath, ?_⟩
  dsimp only
  rw [if_neg (by decide), bind_assoc]
  refine returns_run_perform_bind.mpr ⟨_, _, rfl, ?_⟩
  dsimp only
  rw [bind_assoc, run_modify_bind, pure_bind, msgSendResp, bind_assoc]
  exact returns_run_perform_bind.mpr ⟨_, [], rfl, by simp⟩

/-- `_recv` of the size over an `rrecv` that fails: `bytes` is as it was, and the size is taken for
received. -/
lemma recvBytes_fails (hlt : g.bytes < 2 ^ 64) :
    Returns ((recvBytes (fuel + 2)).run g) [sizeFails] (sizeofBytes, g) := by
  have hrecv : Returns ((recv (fuel + 2) .size (toBytes sizeofBytes g.bytes) sizeofBytes).run g)
      [sizeFails] ((sizeofBytes, toBytes sizeofBytes g.bytes), g) := by
    rw [recv, recvFrom, if_pos (by decide)]
    refine returns_run_perform_bind.mpr ⟨none, [], rfl, ?_⟩
    dsimp only
    rw [if_neg (by decide), recvFrom, if_neg (by decide), returns_run_pure]
    exact ⟨rfl, rfl, rfl⟩
  rw [recvBytes, run_get_bind]
  refine returns_run_bind.mpr ⟨_, [], _, _, rfl, hrecv, ?_⟩
  dsimp only
  rw [run_modify_bind, returns_run_pure, ofBytes_toBytes (hlt.trans_eq (by norm_num [sizeofBytes]))]
  exact ⟨rfl, rfl, rfl⟩

/-- The file that a WRITE resizes when its size fails to arrive. -/
lemma canDo_sizeFails {k : Int → Rcp Unit} {n : ℕ} (hfd : g.fd = 3) (hlt : g.bytes < 2 ^ 64) :
    CanDo ((serverHandle (fuel + 2) writeHdr >>= k).run g)
      [sizeFails, ⟨.ftruncate 3 n, .ok ()⟩] ↔ n = g.bytes := by
  rw [serverHandle_write rfl, serverWrite, serverWriteFile]
  simp only [bind_assoc]
  rw [run_get_bind, if_neg (by omega), if_neg (by decide), bind_assoc, ← List.singleton_append,
    canDo_run_bind_append (recvBytes_fails hlt), if_neg (not_not.mpr rfl), serverWriteData,
    bind_assoc, run_get_bind, bind_assoc, run_perform_bind, hfd]
  constructor
  · intro h
    have hcall := canDo_call_cons h
    simpa using hcall
  · rintro rfl
    exact canDo_call.mpr (Or.inr ⟨.ok (), [], rfl, canDo_nil _⟩)

/-- **A WRITE whose size fails to arrive tells what the size was**: the file that the client has
just opened is resized to it. -/
lemma canDo_staleWrite {n : ℕ} (fuel : ℕ) (hfree : ¬ (g.fileAddr ≠ 0 ∨ g.fd > 0))
    (hlt : g.bytes < 2 ^ 64) :
    CanDo ((serverSession (fuel + 4)).run g) (sessionStart ++ headerArrives openHdr8 ::
      (opensFile ++ [headerArrives writeHdr, sizeFails, ⟨.ftruncate 3 n, .ok ()⟩])) ↔
      n = g.bytes := by
  rw [canDo_serverSession, canDo_serverLoop rfl (by decide),
    canDo_run_bind_append (serverHandle_opensFile hfree), if_pos rfl,
    canDo_serverLoop rfl (by decide)]
  exact canDo_sizeFails rfl hlt

/-- A session that starts with an open file is not isolated. -/
lemma not_isolated_of_open (hfd : 0 < g.fd) : ¬ Isolated g := by
  intro hiso
  have hfresh := (hiso 3 _).mp ((canDo_startOfWrite 0).mpr hfd)
  exact absurd ((canDo_startOfWrite 0).mp hfresh) (lt_irrefl _)

/-- A session that starts with a size of an earlier one is not isolated, whether a file is open or
not. -/
lemma bytes_eq_zero_of_isolated (hfree : ¬ (g.fileAddr ≠ 0 ∨ g.fd > 0)) (hlt : g.bytes < 2 ^ 64)
    (hiso : Isolated g) : g.bytes = 0 := by
  have hfresh := (hiso 4 _).mp ((canDo_staleWrite 0 hfree hlt).mpr rfl)
  exact (canDo_staleWrite 0 (by decide) (by decide)).mp hfresh

end Apart

/-! ## The result -/

/-- **When the next session is isolated.**  After any number of sessions, the next one shows just
what it would show on a fresh server if and only if no file is open when it starts and the size left
in `bytes` is 0.  Nothing is mapped where no file is open (`sessions_leftOver`), so that such a
state looks like a fresh one and `serverSession_follows` applies both ways.  Else one of two runs
tells them apart: a WRITE behind no OPEN, or a WRITE whose size fails to arrive. -/
theorem session_isolated_iff (g : Globals) (h : Sessions g) :
    Isolated g ↔ g.fd ≤ 0 ∧ g.bytes = 0 := by
  have hleft := sessions_leftOver h
  have hnull : g.fd ≤ 0 → g.fileAddr = 0 := fun hfd =>
    not_not.mp fun hne => absurd (hleft.file hne) (not_lt.mpr hfd)
  constructor
  · intro hiso
    have hfd : g.fd ≤ 0 := not_lt.mp fun hpos => not_isolated_of_open hpos hiso
    have hfree : ¬ (g.fileAddr ≠ 0 ∨ g.fd > 0) := by
      rintro (hne | hpos)
      · exact hne (hnull hfd)
      · exact absurd hfd (not_le.mpr hpos)
    exact ⟨hfd, bytes_eq_zero_of_isolated hfree hleft.bytes_lt hiso⟩
  · rintro ⟨hfd, hbytes⟩
    have hlike : Like g {} := ⟨Or.inr ⟨hfd, le_rfl⟩, hnull hfd, hbytes⟩
    intro fuel t
    exact ⟨(serverSession_follows hlike t).1, (serverSession_follows hlike.symm t).1⟩

/-- An OPEN, as a client sends it. -/
def openBytes : List UInt8 := openHdr8.encode ++ (List.replicate 7 97 ++ [0])

/-- A WRITE of one byte. -/
def writeBytes : List UInt8 := writeMsg 1 ++ [120]

/-- After a session that opens a file and closes it again, without a WRITE, the next one is
isolated. -/
theorem session_isolated_afterClose :
    ∃ g, Sessions g ∧ (∃ t, Returns ((serverSession 6).run {}) t ((), g) ∧
      fileOps t = [.opened (List.replicate 7 97) 3, .closed 3]) ∧ Isolated g := by
  obtain ⟨t, ⟨u, g⟩, hrun, htest⟩ := exists_of_play reliable (openBytes ++ closeHdr.encode)
    ((serverSession 6).run {})
    (fun t r => decide (fileOps t = [.opened (List.replicate 7 97) 3, .closed 3]) &&
      (decide (r.2.fd ≤ 0) && decide (r.2.bytes = 0))) (by decide +kernel)
  simp only [Bool.and_eq_true, decide_eq_true_eq] at htest
  exact ⟨g, Sessions.fresh.session hrun, ⟨t, hrun, htest.1⟩,
    (session_isolated_iff g (Sessions.fresh.session hrun)).mpr htest.2⟩

/-- **What an earlier client leaves.**  A client opens a file and goes away.  The next session is
not isolated: an OPEN is answered EBUSY, and a WRITE that follows no OPEN goes into the file of the
earlier client.  Nor is it isolated after a copy that was complete, CLOSE included: the size is
still there. -/
theorem openLeft_notIsolated : (∃ g, Sessions g ∧ ¬ Isolated g ∧
    (∃ t g', Returns ((serverSession 6).run g) t ((), g') ∧ statuses t = [16]) ∧
    ∃ t g', Returns ((serverSession 6).run g) t ((), g') ∧ statuses t = [0] ∧
      fileOps t = [.resized g.fd 1, .mapped g.fd 1 4096]) ∧
    ∃ g, Sessions g ∧ g.fd = 0 ∧ g.bytes = 1 ∧ ¬ Isolated g := by
  constructor
  · obtain ⟨t, ⟨u, g⟩, hrun, htest⟩ := exists_of_play reliable openBytes
      ((serverSession 6).run {}) (fun _ r => decide (r.2 = { fd := 3 })) (by decide +kernel)
    obtain rfl : g = { fd := 3 } := of_decide_eq_true htest
    obtain ⟨t₁, ⟨u₁, g₁⟩, hrun₁, htest₁⟩ := exists_of_play reliable openBytes
      ((serverSession 6).run { fd := 3 }) (fun t _ => decide (statuses t = [16]))
      (by decide +kernel)
    obtain ⟨t₂, ⟨u₂, g₂⟩, hrun₂, htest₂⟩ := exists_of_play reliable writeBytes
      ((serverSession 6).run { fd := 3 })
      (fun t _ => decide (statuses t = [0]) &&
        decide (fileOps t = [.resized 3 1, .mapped 3 1 4096])) (by decide +kernel)
    simp only [Bool.and_eq_true, decide_eq_true_eq] at htest₂
    exact ⟨_, Sessions.fresh.session hrun, not_isolated_of_open (by decide),
      ⟨t₁, g₁, hrun₁, of_decide_eq_true htest₁⟩, t₂, g₂, hrun₂, htest₂.1, htest₂.2⟩
  · obtain ⟨t, ⟨u, g⟩, hrun, htest⟩ := exists_of_play reliable
      (openBytes ++ (writeBytes ++ closeHdr.encode)) ((serverSession 6).run {})
      (fun _ r => decide (r.2 = { bytes := 1 })) (by decide +kernel)
    obtain rfl : g = { bytes := 1 } := of_decide_eq_true htest
    refine ⟨_, Sessions.fresh.session hrun, rfl, rfl, fun hiso => ?_⟩
    exact absurd (bytes_eq_zero_of_isolated (by decide) (by decide) hiso) (by decide)

end Rcopy
