import RdmaExamples.Rcopy.FileStore
import RdmaExamples.Rcopy.OpenMessage

/-!
# A copy is the only change

What a client that returns `0` has sent are three requests to the store.  So after a session with it
the server's disk differs from the one before in one file, the one that the client named, and that
is the client's file; and nothing is left open for the next session.

Nothing is asked of the server for that.  A client returns `0` only after an OPEN and a WRITE that
were answered with `0`.  A server that has a file open or mapped answers an OPEN with `EBUSY`, so it
had none (`serverOpen_answered`); and it answers a WRITE with `EINVAL` if its descriptor is not
above `0`, so the file that it opened has got a descriptor that it can tell from none
(`serverWrite_answered`).
-/

namespace Rcopy

open ByteStrings MachineWords Programs

section

variable {dstFile path src rest s s' more r₁ r₂ : List UInt8} {mode : UInt32} {d : Disk}
  {fuel : ℕ} {msg : MsgHdr} {g g' : Globals} {t : Trace} {ret : Int} {e : Event Call Reply}

/-! ## What success tells of the server -/

/-- The descriptor that a call opens. -/
def openedFd : Event Call Reply → Option ℕ
  | ⟨.openFile _ _ _, .ok fd⟩ => some fd
  | _ => none

/-- Where a call succeeds that opens no descriptor `0`, nothing has failed for the store. -/
lemma fine_of_succeeds (h : succeeds src .server e = true)
    (hfd : ∀ fd, openedFd e = some fd → 0 < fd) : fine e = true := by
  obtain ⟨c, reply⟩ := e
  cases c with
  | rsend bs => exact h
  | malloc n => exact h
  | openFile path flags mode =>
      cases reply with
      | ok fd => exact decide_eq_true (hfd fd rfl)
      | error e => exact h
  | ftruncate fd n =>
      cases reply with
      | ok u => rfl
      | error e => exact h
  | mmap fd n =>
      cases reply with
      | ok mapping => rfl
      | error e => exact h
  | _ => rfl

/-- Where no path is opened, no descriptor is. -/
lemma openedFd_none (h : openedPaths t = []) : ∀ e ∈ t, openedFd e = none := by
  intro e he
  have hnone := List.filterMap_eq_nil_iff.mp h e he
  obtain ⟨c, reply⟩ := e
  cases c with
  | openFile path flags mode =>
      cases reply with
      | ok fd => exact absurd hnone (by simp [openedPath])
      | error e => rfl
  | _ => rfl

/-- The status in a response that tells of success. -/
lemma GoodResp.ret_eq_zero {cmd : UInt8} {hdr : MsgHdr} (hfits : FitsInt ret)
    (h : GoodResp cmd (respHdr hdr ret).encode) : ret = 0 := by
  have hdata := h.data
  rw [MsgHdr.decode_encode, respHdr] at hdata
  exact (status_eq_zero hfits.1 hfits.2).mp hdata

lemma serverOpen_sent (h : Returns ((serverOpen fuel msg).run g) t (ret, g')) :
    sentBytes t = (respHdr msg ret).encode := by
  obtain ⟨t', reply, rfl, h'⟩ := returns_respond h
  rw [sentBytes_append, sentBytes_of_noSend (serverOpenFile_noSend.calls _ _ h'.canDo)]
  simp [sentOf]

lemma serverWrite_sent (h : Returns ((serverWrite fuel msg).run g) t (ret, g')) :
    sentBytes t = (respHdr msg ret).encode := by
  obtain ⟨t', reply, rfl, h'⟩ := returns_respond h
  rw [sentBytes_append, sentBytes_of_noSend (serverWriteFile_noSend.calls _ _ h'.canDo)]
  simp [sentOf]

/-- **An OPEN that is answered with success** is made at a server that has no file open; what it
opens is what the server has open then. -/
lemma serverOpen_answered (h : Returns ((serverOpen fuel msg).run g) t (ret, g'))
    (hpath : path.length = pathSize msg) (hfeeds : Feeds (path ++ rest) t s')
    (hgood : GoodResp cmdOpen (respHdr msg ret).encode) :
    ret = 0 ∧ g.fd ≤ 0 ∧ g.fileAddr = 0 ∧ s' = rest ∧
      ∀ e ∈ t, ∀ fd, openedFd e = some fd → g'.fd = fd := by
  have hlen := pathSize_lt msg
  obtain ⟨t', reply, rfl, h'⟩ := returns_respond h
  have hrun := serverOpenFile_run h'
  have hzero := hgood.ret_eq_zero hrun.fitsInt
  cases hrun with
  | busy => exact absurd hzero (by decide)
  | noMemory => exact absurd hzero (by decide)
  | noPath _ heap t n mem hrecv hn =>
      rw [List.cons_append, feeds_cons_nothing rfl] at hfeeds
      obtain ⟨s₁, hs₁, -⟩ := feeds_append.mp hfeeds
      exact absurd (recv_message hlen hpath hrecv hs₁).1 hn
  | notOpened _ heap t mem e hrecv => exact absurd hzero e.pos.ne'
  | opened hfree heap t mem fd hrecv =>
      have honly := openedFd_none (recv_onlyInto hrecv.canDo).openedPaths_eq
      rw [List.cons_append, List.append_assoc, feeds_cons_nothing rfl] at hfeeds
      obtain ⟨s₁, hs₁, hs₂⟩ := feeds_append.mp hfeeds
      rw [List.singleton_append, feeds_cons_nothing rfl, feeds_cons_nothing rfl] at hs₂
      obtain ⟨-, -, rfl, -⟩ := recv_message hlen hpath hrecv hs₁
      refine ⟨rfl, by omega, by omega, hs₂, fun e he fd' hfd => ?_⟩
      simp only [List.cons_append, List.append_assoc, List.mem_cons, List.mem_append,
        List.not_mem_nil, or_false] at he
      rcases he with rfl | he | rfl | hfalse | rfl
      · exact absurd hfd (by simp [openedFd])
      · rw [honly e he] at hfd
        exact absurd hfd (by simp)
      · exact congrArg Nat.cast (Option.some.inj hfd)
      · exact hfalse.elim
      · exact absurd hfd (by simp [openedFd])

/-- **A WRITE that is answered with success** is made at a server whose descriptor is above `0`. -/
lemma serverWrite_answered (h : Returns ((serverWrite fuel msg).run g) t (ret, g'))
    (hgood : GoodResp cmdWrite (respHdr msg ret).encode) : 0 < g.fd := by
  obtain ⟨t', reply, rfl, h'⟩ := returns_respond h
  have hrun := serverWriteFile_run h'
  have hzero := hgood.ret_eq_zero hrun.fitsInt
  cases hrun with
  | refused => exact absurd hzero (by decide)
  | noSize hfd => exact hfd
  | size hfd => exact hfd

lemma OnlyInto.opensNothing {dest : Dest} (h : OnlyInto dest t) : ∀ e ∈ t, openedFd e = none :=
  openedFd_none h.openedPaths_eq

/-- What is left of a session from the WRITE on, if that is answered with success. -/
lemma write_answered {hsrc : src.length < 2 ^ 63}
    (h : Returns ((serverLoop fuel msg).run g) t ((), g'))
    (hsucc : ∀ e ∈ t, succeeds src .server e = true)
    (hfeeds : Feeds (stream [.write 0 src hsrc, .close 0]) t s')
    (hsent : sentBytes t = r₂ ++ more) (hwrite : GoodResp cmdWrite r₂) :
    0 < g.fd ∧ ∀ e ∈ t, openedFd e = none := by
  have hnone : openedPaths t = [] := by
    have hstream : stream [.write 0 src hsrc, .close 0] =
        writeMsg src.length ++ (src ++ closeHdr.encode) := by
      simp [stream, Request.body, Request.hdr, writeMsg, writeHdr, closeHdr]
    rw [hstream] at hfeeds
    exact (serverLoop_write (d := ⟨fun _ => [], fun _ => some [], fun _ => none⟩) hsrc rfl h.canDo
      hsucc hfeeds hsent hwrite).1
  refine ⟨?_, openedFd_none hnone⟩
  cases fuel with
  | zero => exact absurd h returns_run_halt
  | succ fuel =>
      obtain ⟨t₁, t₂, t₃, ret, g₂, s₂, rfl, honly, hhandle, -⟩ := serverLoop_request h hfeeds
      rw [serverHandle_write rfl] at hhandle
      rw [sentBytes_append, honly.sentBytes_eq, List.nil_append, sentBytes_append,
        serverWrite_sent hhandle] at hsent
      obtain ⟨rfl, -⟩ := List.append_inj hsent (by simp [hwrite.length])
      exact serverWrite_answered hhandle hwrite

/-- The loop of a session in which an OPEN and a WRITE are answered with success. -/
lemma serverLoop_answered {hlen : sizeofHdr + path.length < 2 ^ 16} {hnul : 0 ∈ path}
    {hsrc : src.length < 2 ^ 63} (h : Returns ((serverLoop fuel msg).run g) t ((), g'))
    (hfeeds : Feeds (stream [.openFile mode 0 path hlen hnul, .write 0 src hsrc, .close 0]) t s')
    (hsucc : ∀ e ∈ t, succeeds src .server e = true)
    (hsent : sentBytes t = r₁ ++ (r₂ ++ more)) (hopen : GoodResp cmdOpen r₁)
    (hwrite : GoodResp cmdWrite r₂) :
    g.fd ≤ 0 ∧ g.fileAddr = 0 ∧ ∀ e ∈ t, ∀ fd, openedFd e = some fd → 0 < fd := by
  cases fuel with
  | zero => exact absurd h returns_run_halt
  | succ fuel =>
      obtain ⟨t₁, t₂, t₃, ret, g₂, s₂, rfl, honly, hhandle, hs₂, hs₃, hgo, -⟩ :=
        serverLoop_request h hfeeds
      rw [serverHandle_open rfl] at hhandle
      rw [sentBytes_append, honly.sentBytes_eq, List.nil_append, sentBytes_append,
        serverOpen_sent hhandle] at hsent
      obtain ⟨rfl, hsent₃⟩ := List.append_inj hsent (by simp [hopen.length])
      obtain ⟨rfl, hfd, haddr, rfl, hopened⟩ :=
        serverOpen_answered hhandle (Request.pathSize_hdr ..).symm hs₂ hopen
      obtain ⟨hpos, hnone⟩ := write_answered (hgo rfl)
        (fun e he => hsucc e (by simp [he])) hs₃ hsent₃ hwrite
      refine ⟨hfd, haddr, fun e he fd hfd => ?_⟩
      simp only [List.mem_append] at he
      rcases he with he | he | he
      · rw [honly.opensNothing e he] at hfd
        exact absurd hfd (by simp)
      · have hlast := hopened e he fd hfd
        omega
      · rw [hnone e he] at hfd
        exact absurd hfd (by simp)

/-- **A session in which an OPEN and a WRITE are answered with success**: the server had no file
open, and what it opens gets descriptors above `0`.  Between the two only the header of the WRITE
is read, so that the descriptor which the WRITE finds is that of the OPEN. -/
theorem session_answered {hlen : sizeofHdr + path.length < 2 ^ 16} {hnul : 0 ∈ path}
    {hsrc : src.length < 2 ^ 63} (h : Returns ((serverSession fuel).run g) t ((), g'))
    (hfeeds : Feeds (stream [.openFile mode 0 path hlen hnul, .write 0 src hsrc, .close 0]) t s')
    (hsucc : ∀ e ∈ t, succeeds src .server e = true)
    (hsent : sentBytes t = r₁ ++ (r₂ ++ more)) (hopen : GoodResp cmdOpen r₁)
    (hwrite : GoodResp cmdWrite r₂) :
    g.fd ≤ 0 ∧ g.fileAddr = 0 ∧ ∀ e ∈ t, ∀ fd, openedFd e = some fd → 0 < fd := by
  rw [serverSession] at h
  obtain ⟨u, t₁, rfl, h₁⟩ := returns_run_perform_bind.mp h
  rw [serverProcess, bind_assoc] at h₁
  obtain ⟨msg, t₂, rfl, h₂⟩ := returns_run_perform_bind.mp h₁
  obtain ⟨t₃, t₄, v, g₁, rfl, h₃, h₄⟩ := returns_run_bind.mp h₂
  obtain ⟨v₁, t₅, rfl, h₅⟩ := returns_run_perform_bind.mp h₄
  obtain ⟨rfl, rfl⟩ := returns_run_perform.mp h₅
  rw [feeds_cons_nothing rfl, feeds_cons_nothing rfl] at hfeeds
  obtain ⟨s₁, hs₁, -⟩ := feeds_append.mp hfeeds
  obtain ⟨hfd, haddr, hpos⟩ := serverLoop_answered h₃ hs₁ (fun e he => hsucc e (by simp [he]))
    (by simpa [sentOf] using hsent) hopen hwrite
  refine ⟨hfd, haddr, fun e he fd hopened => ?_⟩
  simp only [List.mem_cons, List.mem_append, List.not_mem_nil, or_false] at he
  rcases he with rfl | rfl | he | rfl | rfl
  · exact absurd hopened (by simp [openedFd])
  · exact absurd hopened (by simp [openedFd])
  · exact hpos e he fd hopened
  · exact absurd hopened (by simp [openedFd])
  · exact absurd hopened (by simp [openedFd])

/-! ## The result -/

/-- The OPEN of a path whose message fits, as a request. -/
lemma exists_openRequest (mode : UInt32) (hpath : dstFile.length ≤ 65511) (hnul : 0 ∉ dstFile) :
    ∃ path hlen hnul', cString path = dstFile ∧ openBytesOf dstFile mode =
      (Request.openFile mode 0 path hlen hnul').hdr.encode ++ path := by
  obtain ⟨n, hbytes, hsize⟩ := openBytesOf_short mode hpath
  have hlen16 := (openHdr dstFile mode).len.toNat_lt
  have hheader : sizeofHdr ≤ (openHdr dstFile mode).len.toNat := by
    have hpos : 0 < pathSize (openHdr dstFile mode) := by
      rw [← hsize]
      simp
    rw [pathSize] at hpos
    omega
  have htotal : sizeofHdr + (dstFile ++ [0] ++ List.replicate n (0 : UInt8)).length =
      (openHdr dstFile mode).len.toNat := by
    rw [hsize, pathSize]
    omega
  refine ⟨dstFile ++ [0] ++ List.replicate n 0, by rw [htotal]; exact hlen16, by simp,
    cString_append hnul _, ?_⟩
  have hhdr : (openHdr dstFile mode) =
      ⟨0, cmdOpen, UInt16.ofNat (openHdr dstFile mode).len.toNat, mode, 0⟩ := by
    rw [UInt16.ofNat_toNat]
    rfl
  rw [hbytes, Request.hdr, htotal, ← hhdr]

/-- **A copy is the only change.**  Client and server run against each other until both have
returned; no call fails, and the client returns `0`.  Then the file that the client named is the
client's, every other file is as it was, and nothing is left open.

The responses that the client has received are the server's (`clientRun_ok`), so `session_answered`
applies: nothing was open, and what is opened has a descriptor above `0`.  That makes the session
one of the store (`serverLoop_refines`), on an OPEN, a WRITE and a CLOSE, and for the store it is
plain which file these change. -/
theorem copy_only_change (fuel : ℕ) (srcFile : List UInt8) (gc gs : Globals)
    (tr : List (Side × Event Call Reply)) (s : Net) (hpath : dstFile.length ≤ 65511)
    (hnul : 0 ∉ dstFile)
    (hrun : Runs.Run (nextNet src) Runs.always (Net.start (program fuel srcFile dstFile g)) tr s)
    (hclient : s.procs .client = .ret (0, gc)) (hserver : s.procs .server = .ret (0, gs)) :
    (d.after (traceOf .server tr)).files = Function.update d.files dstFile src ∧
      gs.fd ≤ 0 ∧ gs.fileAddr = 0 := by
  have hclientOk := netOk_run hrun .client
  have hserverOk := netOk_run hrun .server
  have hsteps : Returns ((clientRun fuel srcFile dstFile).run {}) (traceOf .client tr) (0, gc) := by
    have hsteps := hclientOk.steps
    rwa [hclient] at hsteps
  obtain ⟨hlen, mode, r₁, r₂, more, hsent, htaken, hopened, hwritten⟩ :=
    clientRun_ok hsteps hclientOk.succeeds
  obtain ⟨path, hpathLen, hpathNul, hname, hopen⟩ := exists_openRequest mode hpath hnul
  have hstream : openBytesOf dstFile mode ++ (writeMsg src.length ++ (src ++ closeHdr.encode)) =
      stream [.openFile mode 0 path hpathLen hpathNul, .write 0 src hlen, .close 0] := by
    simp [stream, hopen, Request.body, Request.hdr, writeMsg, writeHdr, closeHdr]
  have hfeeds : Feeds (sentBytes (traceOf .client tr)) (traceOf .server tr) (s.inbox .server) :=
    hserverOk.feeds
  rw [hsent, hstream] at hfeeds
  have hresp : sentBytes (traceOf .server tr) = r₁ ++ (r₂ ++ (more ++ s.inbox .client)) := by
    have hfeeds : sentBytes (traceOf .server tr) = taken (traceOf .client tr) ++ s.inbox .client :=
      hclientOk.feeds.taken_append
    rw [hfeeds, htaken, List.append_assoc, List.append_assoc]
  have hsession : Returns ((serverSession fuel).run g) (traceOf .server tr) ((), gs) := by
    have hreturns : Returns ((serverSession fuel >>= fun _ => pure (0 : Int)).run g)
        (traceOf .server tr) (0, gs) := by
      have hsteps := hserverOk.steps
      rwa [hserver] at hsteps
    obtain ⟨t₁, t₂, u, g₁, ht, h₁, h₂⟩ := returns_run_bind.mp hreturns
    obtain ⟨rfl, -, rfl⟩ := returns_run_pure.mp h₂
    rw [ht, List.append_nil]
    exact h₁
  have hsucc := hserverOk.succeeds
  obtain ⟨hfd, haddr, hpos⟩ := session_answered hsession hfeeds hsucc hresp hopened hwritten
  have hfine : ∀ e ∈ traceOf .server tr, fine e = true :=
    fun e he => fine_of_succeeds (hsucc e he) (hpos e he)
  have hstart : Refines g d ⟨d.files, none⟩ :=
    ⟨rfl, fun _ => ⟨hfd, haddr⟩, fun file hfile => absurd hfile (by simp)⟩
  obtain ⟨-, hend⟩ := serverSession_refines hstart hsession hfine hfeeds
  simp only [FileStore.session, FileStore.step, if_true, hname, Function.update_idem] at hend
  exact ⟨hend.files, hend.closed rfl⟩

end

/-- A file is copied where no other is. -/
theorem copy_only_change_hello : ∃ tr s gc gs,
    Runs.Run (nextNet hello) Runs.always (Net.start (program 20 [] [97] {})) tr s ∧
    s.procs .client = .ret (0, gc) ∧ s.procs .server = .ret (0, gs) ∧
      (noFiles.after (traceOf .server tr)).files = Function.update (fun _ => []) [97] hello := by
  have hrun := Runs.Run.of_drive (nextNet hello) clientFirst 200
    (Net.start (program 20 [] [97] {}))
  have htest : (fun r : Net × List (Side × Event Call Reply) => returnedZero (r.1.procs .client) &&
      returnedZero (r.1.procs .server))
      (Runs.drive (nextNet hello) clientFirst 200 (Net.start (program 20 [] [97] {}))) = true := by
    decide +kernel
  generalize Runs.drive (nextNet hello) clientFirst 200
    (Net.start (program 20 [] [97] {})) = r at hrun htest
  rw [Bool.and_eq_true] at htest
  obtain ⟨gc, hclient⟩ := exists_of_returnedZero htest.1
  obtain ⟨gs, hserver⟩ := exists_of_returnedZero htest.2
  exact ⟨_, _, gc, gs, hrun, hclient, hserver, (copy_only_change 20 [] gc gs _ _ (by decide)
    (by decide) hrun hclient hserver).1⟩

end Rcopy
