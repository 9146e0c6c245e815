import RdmaExamples.Rcopy.Files
import RdmaExamples.Rcopy.Network
import RdmaExamples.Rcopy.ServerRuns

/-!
# The stages of a session

A session of the server on the stream that a client sends: the OPEN, the WRITE with its size and its
data, and the CLOSE.  Each stage takes its own bytes off the stream, however they were cut, and
leaves the rest to the next.  A run need not be complete: where the server stands, and that a stage
is over, is read off the responses that it has sent.

The lemmas here are about runs that may be under way (`CanDo`), since the client may have returned
before the server has ended its session.  A stage either has not sent its response, in which case
nothing is said, or it is over, and then its file is as described.
-/

namespace Rcopy

open ByteStrings MachineWords Programs

/-- The call is not an `rsend`. -/
def NoSend (c : Call) : Prop := ∀ bs, c ≠ .rsend bs

section

variable {fuel : ℕ} {msg hdr : MsgHdr} {g g' : Globals} {t : Trace}
  {s s' rest src path file r more : List UInt8} {m : Rcp Int} {k : Int → Rcp Unit} {d : Disk}
  {ret : Int}

/-! ## Handlers in a run -/

lemma sentBytes_of_noSend (h : ∀ e ∈ t, NoSend e.1) : sentBytes t = [] := by
  rw [sentBytes, List.flatMap_eq_nil_iff]
  rintro ⟨c, r⟩ he
  cases c <;> first | rfl | exact absurd rfl (h _ he _)

lemma keeps_recv {dest : Dest} {len : ℕ} {buf : List UInt8} {Q : Call → Prop}
    (hQ : ∀ offset n, Q (.rrecv dest offset n)) :
    Keeps (fun _ => ()) Q (recv fuel dest buf len) := by
  refine (keeps_recvFrom fuel 0 buf).weaken ?_ (f := fun _ => ())
  rintro c ⟨offset, n, rfl⟩
  exact hQ offset n

lemma serverOpenFile_noSend : Keeps (fun _ => ()) NoSend (serverOpenFile fuel msg) := by
  refine Keeps.bind Keeps.get fun g => Keeps.ite (Keeps.pure _) ?_
  refine Keeps.bind (Keeps.perform (by simp [NoSend])) fun heap => ?_
  cases heap with
  | none => exact Keeps.pure _
  | some heap =>
      refine Keeps.bind (keeps_recv (by simp [NoSend])) fun got => Keeps.ite (Keeps.pure _) ?_
      refine Keeps.bind (Keeps.perform (by simp [NoSend])) fun opened => ?_
      cases opened with
      | error e => exact Keeps.bind (Keeps.modify fun _ => rfl) fun _ => Keeps.pure _
      | ok fd => exact Keeps.bind (Keeps.modify fun _ => rfl) fun _ => Keeps.pure _

lemma serverWriteData_calls {Q : Call → Prop} (hrecv : ∀ dest offset n, Q (.rrecv dest offset n))
    (htruncate : ∀ fd n, Q (.ftruncate fd n)) (hmap : ∀ fd n, Q (.mmap fd n)) :
    Keeps (fun _ => ()) Q (serverWriteData fuel) := by
  refine Keeps.bind Keeps.get fun g => ?_
  refine Keeps.bind (Keeps.perform (htruncate _ _)) fun resized => ?_
  cases resized with
  | error e => exact Keeps.pure _
  | ok u =>
      refine Keeps.bind (Keeps.perform (hmap _ _)) fun mapped => ?_
      cases mapped with
      | error e => exact Keeps.bind (Keeps.modify fun _ => rfl) fun _ => Keeps.pure _
      | ok mapping =>
          refine Keeps.bind (Keeps.modify fun _ => rfl) fun _ => ?_
          exact Keeps.bind (keeps_recv (hrecv _)) fun got => Keeps.ite (Keeps.pure _) (Keeps.pure _)

/-- What `server_write` calls before its response. -/
lemma serverWriteFile_calls {Q : Call → Prop} (hrecv : ∀ dest offset n, Q (.rrecv dest offset n))
    (htruncate : ∀ fd n, Q (.ftruncate fd n)) (hmap : ∀ fd n, Q (.mmap fd n)) :
    Keeps (fun _ => ()) Q (serverWriteFile fuel msg) := by
  refine Keeps.bind Keeps.get fun g => Keeps.ite (Keeps.pure _) (Keeps.ite (Keeps.pure _) ?_)
  refine Keeps.bind ?_ fun ret => Keeps.ite (Keeps.pure _)
    (serverWriteData_calls hrecv htruncate hmap)
  refine Keeps.bind Keeps.get fun g => Keeps.bind (keeps_recv (hrecv _)) fun got => ?_
  exact Keeps.bind (Keeps.modify fun _ => rfl) fun _ => Keeps.pure _

lemma serverWriteFile_noSend : Keeps (fun _ => ()) NoSend (serverWriteFile fuel msg) :=
  serverWriteFile_calls (by simp [NoSend]) (by simp [NoSend]) (by simp [NoSend])

/-- **A handler in a run**: it has sent nothing yet, or it is over. -/
lemma canDo_respond (hquiet : Keeps (fun _ => ()) NoSend m)
    (h : CanDo (((m >>= fun ret => do
      msgSendResp msg ret
      return ret) >>= k).run g) t) :
    sentBytes t = [] ∨ ∃ t₁ t₂ ret g' r, t = t₁ ++ (⟨.rsend (respHdr msg ret).encode, r⟩ :: t₂) ∧
      Returns (m.run g) t₁ (ret, g') ∧ CanDo ((k ret).run g') t₂ := by
  have hnone : ∀ t, CanDo (m.run g) t → sentBytes t = [] :=
    fun t h => sentBytes_of_noSend (hquiet.calls _ _ h)
  rw [bind_assoc] at h
  rcases canDo_run_bind.mp h with h | ⟨t₁, t₂, ret, g', rfl, h₁, h₂⟩
  · exact Or.inl (hnone t h)
  · rw [bind_assoc, msgSendResp, bind_assoc] at h₂
    rcases canDo_run_perform_bind.mp h₂ with rfl | ⟨r, t₃, rfl, h₃⟩
    · rw [List.append_nil]
      exact Or.inl (hnone t₁ h₁.canDo)
    · exact Or.inr ⟨t₁, t₃, ret, g', r, rfl, h₁, h₃⟩

/-! ## The OPEN -/

/-- **The OPEN**: the path is received, and a file opened and emptied. -/
theorem serverOpen_stage (hfd : g.fd ≤ 0) (haddr : g.fileAddr = 0)
    (hpath : path.length = pathSize msg) (h : CanDo ((serverOpen fuel msg >>= k).run g) t)
    (hsucc : ∀ e ∈ t, succeeds src .server e = true) (hfeeds : Feeds (path ++ rest) t s')
    (hsent : sentBytes t ≠ []) :
    ∃ t₁ t₂ file fd, t = t₁ ++ t₂ ∧ sentBytes t₁ = (respHdr msg 0).encode ∧
      openedPaths t₁ = [file] ∧ (∀ d : Disk, (d.after t₁).fds (Nat.cast fd) = some file) ∧
      Feeds rest t₂ s' ∧ CanDo ((k 0).run { g with fd := Nat.cast fd }) t₂ := by
  rw [serverOpen] at h
  rcases canDo_respond serverOpenFile_noSend h with hnone | ⟨t₁, t₂, ret, g', r, rfl, h₁, h₂⟩
  · exact absurd hnone hsent
  · have hlen := pathSize_lt msg
    cases serverOpenFile_run h₁ with
    | busy hbusy => omega
    | noMemory _ =>
        exact absurd (hsucc ⟨.malloc (pathSize msg), none⟩ (by simp)) (by simp [succeeds])
    | noPath _ heap t n mem hrecv hn =>
        rw [List.cons_append, feeds_cons_nothing rfl] at hfeeds
        obtain ⟨s₁, hs₁, -⟩ := feeds_append.mp hfeeds
        exact absurd (recv_message hlen hpath hrecv hs₁).1 hn
    | notOpened _ heap t mem e hrecv =>
        exact absurd (hsucc ⟨.openFile (cString mem) .rdwrCreatTrunc msg.data, .error e⟩ (by simp))
          (by simp [succeeds])
    | opened _ heap t mem fd hrecv =>
        have honly := recv_onlyInto hrecv.canDo
        rw [List.cons_append, List.append_assoc, feeds_cons_nothing rfl] at hfeeds
        obtain ⟨s₁, hs₁, hs₂⟩ := feeds_append.mp hfeeds
        rw [List.singleton_append, feeds_cons_nothing rfl, feeds_cons_nothing rfl] at hs₂
        obtain ⟨-, -, rfl, -⟩ := recv_message hlen hpath hrecv hs₁
        refine ⟨⟨.malloc (pathSize msg), some heap⟩ ::
          (t ++ [⟨.openFile (cString mem) .rdwrCreatTrunc msg.data, .ok fd⟩,
            ⟨.rsend (respHdr msg 0).encode, r⟩]), t₂, cString mem, fd, by simp, ?_, ?_, ?_, hs₂, h₂⟩
        · simp [sentOf, honly.sentBytes_eq]
        · simp [openedPath, honly.openedPaths_eq]
        · intro d
          simp [Disk.apply]

/-! ## The WRITE -/

/-- **The data**: the file gets the length that was sent, and the bytes. -/
lemma dataRun_file (hbytes : g.bytes = src.length) (hlen : src.length < 2 ^ 63)
    (hfile : d.fds g.fd = some file) (h : DataRun fuel g t ret g')
    (hsucc : ∀ e ∈ t, succeeds src .server e = true) (hfeeds : Feeds (src ++ rest) t s') :
    ret = 0 ∧ openedPaths t = [] ∧ (d.after t).files file = src ∧ s' = rest := by
  have hlt : g.bytes < 2 ^ 64 := by omega
  cases h with
  | notResized e =>
      exact absurd (hsucc ⟨.ftruncate g.fd g.bytes, .error e⟩ (by simp)) (by simp [succeeds])
  | notMapped u e =>
      exact absurd (hsucc ⟨.mmap g.fd g.bytes, .error e⟩ (by simp)) (by simp [succeeds])
  | noData u mapping t n mem hrecv hn =>
      rw [feeds_cons_nothing rfl, feeds_cons_nothing rfl] at hfeeds
      exact absurd (recv_message hlt hbytes.symm hrecv hfeeds).1 hn
  | data u mapping t mem hrecv =>
      rw [feeds_cons_nothing rfl, feeds_cons_nothing rfl] at hfeeds
      have honly := recv_onlyInto hrecv.canDo
      refine ⟨rfl, by simp [openedPath, honly.openedPaths_eq], ?_,
        (recv_message hlt hbytes.symm hrecv hfeeds).2.2.1⟩
      rw [after_cons, after_cons]
      refine recv_file hlt hbytes.symm ?_ ?_ hrecv hfeeds
      · simp [Disk.apply, hfile]
      · simp [Disk.apply, hfile]

/-- **The WRITE**: the file gets the data, if the response says so.  A response that has been sent
is behind the data, so that the file has been resized and written by then. -/
theorem serverWrite_stage (hlen : src.length < 2 ^ 63)
    (hfile : d.fds g.fd = some file) (h : CanDo ((serverWrite fuel msg >>= k).run g) t)
    (hsucc : ∀ e ∈ t, succeeds src .server e = true)
    (hfeeds : Feeds (toBytes sizeofBytes src.length ++ (src ++ rest)) t s')
    (hsent : sentBytes t = r ++ more) (hgood : GoodResp cmdWrite r) :
    ∃ t₁ t₂ g', t = t₁ ++ t₂ ∧ openedPaths t₁ = [] ∧ (d.after t₁).files file = src ∧
      Feeds rest t₂ s' ∧ CanDo ((k 0).run g') t₂ := by
  rw [serverWrite] at h
  rcases canDo_respond serverWriteFile_noSend h with hnone | ⟨t₁, t₂, ret, g', reply, rfl, h₁, h₂⟩
  · exact absurd (hnone ▸ hsent) hgood.append_ne_nil
  · have hrun := serverWriteFile_run h₁
    have hresp : r = (respHdr msg ret).encode := by
      rw [sentBytes_append, sentBytes_of_noSend (serverWriteFile_noSend.calls _ _ h₁.canDo),
        sentBytes_cons, List.nil_append] at hsent
      exact (List.append_inj hsent (by simp [sentOf, hgood.length])).1.symm
    cases hrun with
    | refused _ =>
        have hdata := hgood.data
        rw [hresp, MsgHdr.decode_encode] at hdata
        exact absurd hdata (by show UInt32.ofNat (toUnsigned 32 einval) ≠ 0; decide)
    | noSize _ _ t n buf hrecv hn =>
        obtain ⟨s₁, hs₁, -⟩ := feeds_append.mp hfeeds
        exact absurd (recv_message (by decide) (by simp) hrecv hs₁).1 hn
    | size _ _ t t' buf ret g' hrecv hdata =>
        have honly := recv_onlyInto hrecv.canDo
        rw [List.append_assoc] at hfeeds
        obtain ⟨s₁, hs₁, hs₂⟩ := feeds_append.mp hfeeds
        obtain ⟨s₂, hs₂, hs₃⟩ := feeds_append.mp hs₂
        rw [feeds_cons_nothing rfl] at hs₃
        obtain ⟨-, hsize, rfl, heof⟩ := recv_message (by decide) (by simp) hrecv hs₁
        have hbytes : ofBytes buf = src.length := by
          rw [recv_buf_eq (by decide) (by simp) hrecv heof hs₁.not_hasError, hsize]
          exact ofBytes_toBytes (hlen.trans (by decide))
        obtain ⟨rfl, hopened, hsrc, rfl⟩ := dataRun_file (g := { g with bytes := ofBytes buf })
          hbytes hlen hfile hdata (fun e he => hsucc e (by simp [he])) hs₂
        refine ⟨t ++ (t' ++ [⟨.rsend (respHdr msg 0).encode, reply⟩]), t₂, g', by simp, ?_, ?_, hs₃,
          h₂⟩
        · simp [honly.openedPaths_eq, hopened, openedPath]
        · rw [after_append, honly.after_eq (by simp), after_append]
          exact hsrc

/-! ## The rounds of the loop -/

/-- **A round of the loop**: the session is over, or the server handles the command of the header
that comes next. -/
theorem serverLoop_round (h : CanDo ((serverLoop fuel msg).run g) t) (hfeeds : Feeds s t s') :
    OnlyInto .header t ∨
    ∃ fuel' hdr t₁ t₂, t = t₁ ++ t₂ ∧ OnlyInto .header t₁ ∧ sizeofHdr ≤ s.length ∧
      hdr = MsgHdr.decode (s.take sizeofHdr) ∧ sizeofHdr ≤ hdr.len.toNat ∧
      Feeds (s.drop sizeofHdr) t₂ s' ∧
      CanDo ((serverHandle fuel' hdr >>= fun ret =>
        if ret = 0 then serverLoop fuel' hdr else pure ()).run g) t₂ := by
  cases fuel with
  | zero =>
      rw [canDo_run_halt.mp h]
      exact Or.inl fun e he => absurd he (by simp)
  | succ fuel =>
      rw [serverLoop] at h
      rcases canDo_run_bind.mp h with h | ⟨t₁, t₂, ⟨ret, hdr⟩, g₁, rfl, h₁, h₂⟩
      · exact Or.inl (msgRecvHdr_onlyInto h)
      · have honly := msgRecvHdr_onlyInto h₁.canDo
        obtain ⟨rfl, n, buf, -, -, ⟨rfl, -⟩ | ⟨rfl, -⟩⟩ := msgRecvHdr_cases h₁
        · rw [canDo_run_pure.mp h₂, List.append_nil]
          exact Or.inl honly
        · obtain ⟨s₁, hs₁, hs₂⟩ := feeds_append.mp hfeeds
          obtain ⟨hlong, hhdr, -, hlen, rfl⟩ := msgRecvHdr_feeds h₁ hs₁
          exact Or.inr ⟨fuel, hdr, t₁, t₂, rfl, honly, hlong, hhdr, hlen, hs₂, h₂⟩

end

end Rcopy
