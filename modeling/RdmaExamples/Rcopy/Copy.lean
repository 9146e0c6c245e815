import RdmaExamples.Rcopy.ClientRuns
import RdmaExamples.Rcopy.ServerStages

/-!
# Copying a file

What a client that returns `0` has sent, and what the server has answered, put together: the server
has opened one file in the session, and that file is the client's (`clientRun_copies`).  Both sides
find the same boundaries between the messages, and between the size and the data, however `rrecv`
cut the stream and whoever moved first.

* `serverLoop_close`, `serverLoop_write`, `serverLoop_copies` — the stages of `ServerStages` put
  one behind the other, for a run that may stop anywhere.
* `clientRun_copies_hello` — twelve bytes that arrive in three pieces.

The run of the server need not be over when the client returns.  What the server's disk holds
besides the file, once both have returned, is for `CopyToPath`.
-/

namespace Rcopy

open ByteStrings MachineWords Programs

section

variable {fuel : ℕ} {msg hdr : MsgHdr} {mode : UInt32} {g g' : Globals} {t : Trace}
  {s s' src srcFile dstFile file r r₁ r₂ more : List UInt8} {d : Disk}

/-! ## The CLOSE -/

lemma serverClose_leavesFiles : Keeps (fun _ => ()) LeavesFiles (serverClose msg) :=
  serverClose_calls (fun _ => trivial) (fun _ _ => trivial) fun _ => trivial

/-- Nothing comes any more. -/
lemma serverLoop_end (h : CanDo ((serverLoop fuel msg).run g) t) (hfeeds : Feeds [] t s') :
    ∀ e ∈ t, LeavesFiles e.1 := by
  rcases serverLoop_round h hfeeds with honly | ⟨fuel', hdr, t₁, t₂, -, -, hlong, -⟩
  · exact honly.leavesFiles (by simp)
  · exact absurd hlong (by decide)

/-- **The CLOSE** leaves the files as they are. -/
theorem serverLoop_close (h : CanDo ((serverLoop fuel msg).run g) t)
    (hfeeds : Feeds closeHdr.encode t s') : ∀ e ∈ t, LeavesFiles e.1 := by
  rcases serverLoop_round h hfeeds with
    honly | ⟨fuel', hdr, t₁, t₂, rfl, honly, -, hhdr, -, hfeeds₂, h₂⟩
  · exact honly.leavesFiles (by simp)
  · rw [List.take_of_length_le (by simp), MsgHdr.decode_encode] at hhdr
    rw [List.drop_of_length_le (by simp)] at hfeeds₂
    rw [hhdr, serverHandle_close rfl, bind_assoc] at h₂
    have hleaves : ∀ e ∈ t₂, LeavesFiles e.1 := by
      rcases canDo_run_bind.mp h₂ with h₂ | ⟨t₃, t₄, u, g₁, rfl, h₃, h₄⟩
      · exact serverClose_leavesFiles.calls _ _ h₂
      · obtain ⟨s₁, hs₁, hs₂⟩ := feeds_append.mp hfeeds₂
        obtain rfl : s₁ = [] := (List.append_eq_nil_iff.mp hs₁.taken_append.symm).2
        intro e he
        rcases List.mem_append.mp he with he | he
        · exact serverClose_leavesFiles.calls _ _ h₃.canDo e he
        · exact serverLoop_end h₄ hs₂ e he
    intro e he
    rcases List.mem_append.mp he with he | he
    · exact honly.leavesFiles (by simp) e he
    · exact hleaves e he

/-! ## The WRITE and what follows -/

/-- **A WRITE that is answered with success**: the open file gets the data, and keeps it. -/
theorem serverLoop_write (hlen : src.length < 2 ^ 63) (hfile : d.fds g.fd = some file)
    (h : CanDo ((serverLoop fuel msg).run g) t)
    (hsucc : ∀ e ∈ t, succeeds src .server e = true)
    (hfeeds : Feeds (writeMsg src.length ++ (src ++ closeHdr.encode)) t s')
    (hsent : sentBytes t = r ++ more) (hgood : GoodResp cmdWrite r) :
    openedPaths t = [] ∧ (d.after t).files file = src := by
  rw [writeMsg, List.append_assoc] at hfeeds
  rcases serverLoop_round h hfeeds with
    honly | ⟨fuel', hdr, t₁, t₂, rfl, honly, -, hhdr, -, hfeeds₂, h₂⟩
  · exact absurd (honly.sentBytes_eq ▸ hsent) hgood.append_ne_nil
  · rw [List.take_left' (by simp), MsgHdr.decode_encode] at hhdr
    rw [List.drop_left' (by simp)] at hfeeds₂
    rw [hhdr, serverHandle_write rfl] at h₂
    rw [sentBytes_append, honly.sentBytes_eq, List.nil_append] at hsent
    obtain ⟨t₃, t₄, g₁, rfl, hopened, hsrc, hfeeds₄, h₄⟩ := serverWrite_stage hlen hfile h₂
      (fun e he => hsucc e (by simp [he])) hfeeds₂ hsent hgood
    obtain ⟨hfiles, hopened'⟩ :=
      files_after (d := (d.after t₁).after t₃) (serverLoop_close h₄ hfeeds₄)
    rw [honly.after_eq (by simp)] at hfiles
    refine ⟨by simp [honly.openedPaths_eq, hopened, hopened'], ?_⟩
    rw [after_append, honly.after_eq (by simp), after_append, hfiles, hsrc]

/-! ## The OPEN and what follows -/

/-- The length of a message in its first four bytes. -/
lemma decode_len {bs : List UInt8} (h : bs.take 4 = hdr.encode.take 4) :
    (MsgHdr.decode bs).len = hdr.len := by
  have hlen : ∀ bs : List UInt8, (bs.drop 2).take 2 = (bs.take 4).drop 2 :=
    fun bs => by simp [List.drop_take]
  conv_rhs => rw [← MsgHdr.decode_encode hdr]
  rw [MsgHdr.decode, MsgHdr.decode, hlen bs, hlen hdr.encode, h]

/-- The length in an OPEN, a `uint16_t`, may have come out as nothing, or as half a header. -/
lemma openBytesOf_cases (dstFile : List UInt8) (mode : UInt32) :
    (∃ path, openBytesOf dstFile mode = (openHdr dstFile mode).encode ++ path ∧
      path.length = pathSize (openHdr dstFile mode)) ∨
    openBytesOf dstFile mode = [] ∨
    ((openHdr dstFile mode).len.toNat < sizeofHdr ∧ 4 ≤ (openBytesOf dstFile mode).length) := by
  have hlen := length_openBytesOf dstFile mode
  have height : 8 ∣ (openHdr dstFile mode).len.toNat := by
    rw [openHdr, UInt16.toNat_ofNat', pathLen, sizeofHdr]
    omega
  rcases Nat.lt_or_ge (openHdr dstFile mode).len.toNat sizeofHdr with hlt | hge
  · rcases Nat.eq_zero_or_pos (openHdr dstFile mode).len.toNat with hzero | hpos
    · exact Or.inr (Or.inl (List.length_eq_zero_iff.mp (hlen.trans hzero)))
    · exact Or.inr (Or.inr ⟨hlt, by omega⟩)
  · left
    refine ⟨(openBytesOf dstFile mode).drop sizeofHdr, ?_, ?_⟩
    · conv_lhs => rw [← List.take_append_drop sizeofHdr (openBytesOf dstFile mode)]
      rw [openBytesOf, List.take_take, min_eq_left hge, openMsg, List.take_left' (by simp)]
    · rw [List.length_drop, hlen, pathSize]

/-- **The server copies the file**, if its first two responses say so.  The loop handles the OPEN
and then the WRITE, each of which takes its own bytes off the stream and leaves the next message in
front. -/
theorem serverLoop_copies (hlen : src.length < 2 ^ 63) (hfd : g.fd ≤ 0) (haddr : g.fileAddr = 0)
    (h : CanDo ((serverLoop fuel msg).run g) t) (hsucc : ∀ e ∈ t, succeeds src .server e = true)
    (hfeeds : Feeds (openBytesOf dstFile mode ++
      (writeMsg src.length ++ (src ++ closeHdr.encode))) t s')
    (hsent : sentBytes t = r₁ ++ (r₂ ++ more)) (hopen : GoodResp cmdOpen r₁)
    (hwrite : GoodResp cmdWrite r₂) :
    ∃ file, openedPaths t = [file] ∧ ∀ d : Disk, (d.after t).files file = src := by
  rcases serverLoop_round h hfeeds with honly | ⟨fuel', hdr, t₁, t₂, rfl, honly, -, hhdr, hhdrLen,
    hfeeds₂, h₂⟩
  · exact absurd (honly.sentBytes_eq ▸ hsent) hopen.append_ne_nil
  · rw [sentBytes_append, honly.sentBytes_eq, List.nil_append] at hsent
    rcases openBytesOf_cases dstFile mode with ⟨path, hbytes, hpath⟩ | hnone | ⟨hshort, hfour⟩
    · rw [hbytes, List.append_assoc, List.take_left' (by simp), MsgHdr.decode_encode] at hhdr
      rw [hbytes, List.append_assoc, List.drop_left' (by simp)] at hfeeds₂
      rw [hhdr, serverHandle_open rfl] at h₂
      obtain ⟨t₃, t₄, file, fd, rfl, hresp, hopened, hfds, hfeeds₄, h₄⟩ :=
        serverOpen_stage hfd haddr hpath h₂ (fun e he => hsucc e (by simp [he])) hfeeds₂
          (by rw [hsent]; exact hopen.append_ne_nil.symm)
      rw [sentBytes_append, hresp] at hsent
      have hsent₄ := (List.append_inj hsent (by simp [hopen.length])).2
      refine ⟨file, ?_, fun d => ?_⟩
      · obtain ⟨hopened', -⟩ := serverLoop_write hlen (hfds ⟨fun _ => [], fun _ => none,
          fun _ => none⟩) h₄ (fun e he => hsucc e (by simp [he])) hfeeds₄ hsent₄ hwrite
        simp [honly.openedPaths_eq, hopened, hopened']
      · obtain ⟨-, hsrc⟩ := serverLoop_write hlen (hfds (d.after t₁)) h₄
          (fun e he => hsucc e (by simp [he])) hfeeds₄ hsent₄ hwrite
        rw [after_append, after_append, hsrc]
    · -- nothing was sent for the OPEN, and the WRITE comes first: its response is not the OPEN's
      rw [hnone, List.nil_append, writeMsg, List.append_assoc, List.take_left' (by simp),
        MsgHdr.decode_encode] at hhdr
      rw [hhdr, serverHandle_write rfl, serverWrite] at h₂
      rcases canDo_respond serverWriteFile_noSend h₂ with
        hquiet | ⟨t₃, t₄, ret, g₁, reply, rfl, h₃, -⟩
      · exact absurd (hquiet ▸ hsent) hopen.append_ne_nil
      · rw [sentBytes_append, sentBytes_of_noSend (serverWriteFile_noSend.calls _ _ h₃.canDo),
          sentBytes_cons, List.nil_append] at hsent
        have hcommand := hopen.command
        rw [← (List.append_inj hsent (by simp [sentOf, hopen.length])).1, sentOf,
          MsgHdr.decode_encode] at hcommand
        exact absurd hcommand (by show cmdWrite ||| cmdResp ≠ cmdOpen ||| cmdResp; decide)
    · -- the header is refused: its length is too short for one
      refine absurd hhdrLen (not_le.mpr ?_)
      have hfirst : hdr.len = (openHdr dstFile mode).len := by
        rw [hhdr]
        refine decode_len ?_
        rw [List.take_take, min_eq_left (by decide), List.take_append_of_le_length hfour,
          openBytesOf, List.take_take, min_eq_left ?_, openMsg,
          List.take_append_of_le_length (by simp [sizeofHdr])]
        exact hfour.trans (length_openBytesOf dstFile mode).le
      rw [hfirst]
      exact hshort

/-! ## The session -/

/-- A call of `server_run` and `server_process` outside the loop. -/
def Outer (c : Call) : Prop := c = .raccept ∨ c = .uninitialised ∨ c = .rshutdown ∨ c = .rclose

lemma got_of_outer {e : Event Call Reply} (h : Outer e.1) : got e = .nothing := by
  obtain ⟨c, reply⟩ := e
  rcases h with rfl | rfl | rfl | rfl <;> rfl

lemma sentBytes_of_outer (h : ∀ e ∈ t, Outer e.1) : sentBytes t = [] := by
  refine sentBytes_of_noSend fun e he bs hbs => ?_
  rcases h e he with hc | hc | hc | hc <;> exact absurd (hbs.symm.trans hc) (by simp)

lemma leavesFiles_of_outer (h : ∀ e ∈ t, Outer e.1) : ∀ e ∈ t, LeavesFiles e.1 := by
  intro e he
  rcases h e he with hc | hc | hc | hc <;> rw [hc] <;> exact trivial

lemma feeds_of_outer (h : ∀ e ∈ t, Outer e.1) : Feeds s t s' ↔ s' = s :=
  feeds_of_nothing fun e he => got_of_outer (h e he)

/-- A run of a session is one of its loop, with other calls around it. -/
lemma session_split (h : CanDo ((serverSession fuel >>= fun _ => pure (0 : Int)).run g) t) :
    ∃ t₀ t₁ t₂ msg, t = t₀ ++ (t₁ ++ t₂) ∧ CanDo ((serverLoop fuel msg).run g) t₁ ∧
      (∀ e ∈ t₀, Outer e.1) ∧ ∀ e ∈ t₂, Outer e.1 := by
  rw [serverSession, bind_assoc] at h
  rcases canDo_run_perform_bind.mp h with rfl | ⟨u, t₁, rfl, h₁⟩
  · exact ⟨[], [], [], ⟨0, 0, 0, 0, 0⟩, rfl, canDo_nil _, by simp, by simp⟩
  · rw [serverProcess, bind_assoc, bind_assoc] at h₁
    rcases canDo_run_perform_bind.mp h₁ with rfl | ⟨msg, t₂, rfl, h₂⟩
    · exact ⟨[⟨.raccept, u⟩], [], [], ⟨0, 0, 0, 0, 0⟩, rfl, canDo_nil _, by simp [Outer], by simp⟩
    · rcases canDo_run_bind.mp h₂ with h₂ | ⟨t₃, t₄, v, g₁, rfl, h₃, h₄⟩
      · exact ⟨[⟨.raccept, u⟩, ⟨.uninitialised, msg⟩], t₂, [], msg, by simp, h₂, by simp [Outer],
          by simp⟩
      · refine ⟨[⟨.raccept, u⟩, ⟨.uninitialised, msg⟩], t₃, t₄, msg, by simp, h₃.canDo,
          by simp [Outer], ?_⟩
        have houter : Keeps (fun _ => ()) Outer
            ((do call .rshutdown; call .rclose : Rcp Unit) >>= fun _ => pure (0 : Int)) := by
          refine Keeps.bind (Keeps.bind (Keeps.perform (by simp [Outer])) fun _ => ?_) fun _ =>
            Keeps.pure _
          exact Keeps.perform (by simp [Outer])
        exact houter.calls _ _ h₄

/-- **Copying a file.**  Client and server run against each other, the server with no file open, and
no call fails: if `client_run` returns `0`, the one file that the server has opened has the contents
of the client's file, whatever the streams were cut into and whoever moved when.

The client that returns `0` has sent the three messages and has received the first two responses
(`clientRun_ok`), which the server therefore has sent.  A run of the server need not be complete,
but a response that it has sent says that its stage is over: the OPEN has opened a file, and the
WRITE has resized it and received the data into it (`serverLoop_copies`).  A CLOSE, if the server
comes to it, leaves the files alone. -/
theorem clientRun_copies (fuel : ℕ) (src srcFile dstFile : List UInt8) (g g' : Globals)
    (tr : List (Side × Event Call Reply)) (s : Net) (d : Disk) (hfd : g.fd ≤ 0)
    (haddr : g.fileAddr = 0)
    (hrun : Runs.Run (nextNet src) Runs.always (Net.start (program fuel srcFile dstFile g)) tr s)
    (hret : s.procs .client = .ret (0, g')) :
    ∃ file, openedPaths (traceOf .server tr) = [file] ∧
      (d.after (traceOf .server tr)).files file = src := by
  have hclient := netOk_run hrun .client
  have hserver := netOk_run hrun .server
  have hsteps : Returns ((clientRun fuel srcFile dstFile).run {}) (traceOf .client tr) (0, g') := by
    have hsteps := hclient.steps
    rwa [hret] at hsteps
  obtain ⟨hlen, mode, r₁, r₂, more, hsent, htaken, hopen, hwrite⟩ :=
    clientRun_ok hsteps hclient.succeeds
  have hresp : sentBytes (traceOf .server tr) = r₁ ++ (r₂ ++ (more ++ s.inbox .client)) := by
    have hfeeds : sentBytes (traceOf .server tr) = taken (traceOf .client tr) ++ s.inbox .client :=
      hclient.feeds.taken_append
    rw [hfeeds, htaken, List.append_assoc, List.append_assoc]
  have hfeeds : Feeds (sentBytes (traceOf .client tr)) (traceOf .server tr) (s.inbox .server) :=
    hserver.feeds
  rw [hsent] at hfeeds
  have hcan : CanDo ((serverSession fuel >>= fun _ => pure (0 : Int)).run g) (traceOf .server tr) :=
    ⟨_, hserver.steps⟩
  have hsucc := hserver.succeeds
  generalize traceOf .server tr = ts at *
  obtain ⟨t₀, t₁, t₂, msg, rfl, hloop, hbefore, hafter⟩ := session_split hcan
  obtain ⟨s₁, hs₁, hs₂⟩ := feeds_append.mp hfeeds
  obtain ⟨s₂, hs₂, -⟩ := feeds_append.mp hs₂
  obtain rfl := (feeds_of_outer hbefore).mp hs₁
  rw [sentBytes_append, sentBytes_append, sentBytes_of_outer hbefore, sentBytes_of_outer hafter,
    List.nil_append, List.append_nil] at hresp
  obtain ⟨file, hopened, hfile⟩ := serverLoop_copies hlen hfd haddr hloop
    (fun e he => hsucc e (by simp [he])) hs₂ hresp hopen hwrite
  have hnone := (files_after (d := d) (leavesFiles_of_outer hbefore)).2
  obtain ⟨hfiles, hnone'⟩ := files_after (d := (d.after t₀).after t₁) (leavesFiles_of_outer hafter)
  refine ⟨file, by simp [hnone, hnone', hopened], ?_⟩
  rw [after_append, after_append, hfiles, hfile]

end

/-- A file of twelve bytes: `"Hello, world"`. -/
def hello : List UInt8 := [72, 101, 108, 108, 111, 44, 32, 119, 111, 114, 108, 100]

/-- Answers to a side: the file is there, and `rrecv` brings at most five bytes at a time. -/
def answersInPieces (inbox : List UInt8) : (c : Call) → Reply c
  | .rrecv _ _ len =>
      some ⟨inbox.take (min len 5), (List.length_take_le ..).trans (min_le_left ..)⟩
  | .fstat _ => .ok ⟨hello.length, by decide, 0⟩
  | .mmap _ length => .ok ⟨8192, by norm_num, by norm_num,
      (hello ++ List.replicate length 0).take length, by simp⟩
  | c => (reliable [] c).1

/-- The client moves where it can, and else the server. -/
def clientFirst (s : Net) : NetChoice :=
  let choice side := (side, answersInPieces (s.inbox side))
  if (nextNet hello s (choice .client)).isSome then choice .client else choice .server

/-- A program that has returned `0`. -/
def returnedZero : Prog Call Reply (Int × Globals) → Bool
  | .ret (ret, _) => decide (ret = 0)
  | _ => false

/-- A piece of a file is received. -/
def getsPiece : Event Call Reply → Bool
  | ⟨.rrecv (.mapping _) _ _, some _⟩ => true
  | _ => false

lemma exists_of_returnedZero {p : Prog Call Reply (Int × Globals)} (h : returnedZero p = true) :
    ∃ g', p = .ret (0, g') := by
  cases p with
  | ret a =>
      obtain ⟨ret, g'⟩ := a
      obtain rfl := of_decide_eq_true h
      exact ⟨g', rfl⟩
  | call c k => exact absurd h (by simp [returnedZero])
  | halt => exact absurd h (by simp [returnedZero])

/-- A file is copied that arrives in three pieces. -/
theorem clientRun_copies_hello : ∃ tr s g' d,
    Runs.Run (nextNet hello) Runs.always (Net.start (program 20 [] [97] {})) tr s ∧
    s.procs .client = .ret (0, g') ∧ (traceOf .server tr).countP getsPiece = 3 ∧
      ∃ file, openedPaths (traceOf .server tr) = [file] ∧
        (Disk.after d (traceOf .server tr)).files file = hello := by
  have hrun := Runs.Run.of_drive (nextNet hello) clientFirst 200
    (Net.start (program 20 [] [97] {}))
  have htest : (fun r : Net × List (Side × Event Call Reply) => returnedZero (r.1.procs .client) &&
      decide ((traceOf .server r.2).countP getsPiece = 3))
      (Runs.drive (nextNet hello) clientFirst 200 (Net.start (program 20 [] [97] {}))) = true := by
    decide +kernel
  generalize Runs.drive (nextNet hello) clientFirst 200
    (Net.start (program 20 [] [97] {})) = r at hrun htest
  rw [Bool.and_eq_true, decide_eq_true_eq] at htest
  obtain ⟨g', hp⟩ := exists_of_returnedZero htest.1
  exact ⟨_, _, g', ⟨fun _ => [], fun _ => none, fun _ => none⟩, hrun, hp, htest.2,
    clientRun_copies 20 hello [] [97] {} g' _ _ _ (by decide) rfl hrun hp⟩

end Rcopy
