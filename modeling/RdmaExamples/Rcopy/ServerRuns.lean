import RdmaExamples.Rcopy.Client
import RdmaExamples.Rcopy.Receive
import RdmaExamples.Rcopy.Server

/-!
# The runs of the server's handlers

All that `server_open` and `server_write` can do before they send their response, one constructor
for each way through the code.

A way through the code ends where its last call failed or all went well.  What the globals are at
the end belongs to the constructor, since `bytes`, `fd` and `file_addr` are written on the way and
the label `out` does not undo it.
-/

namespace Rcopy

open ByteStrings MachineWords Programs Tiling

/-- The length of the path in an OPEN. -/
def pathSize (msg : MsgHdr) : ℕ := msg.len.toNat - sizeofHdr

lemma pathSize_lt (msg : MsgHdr) : pathSize msg < 2 ^ 64 := by
  have := msg.len.toNat_lt
  rw [pathSize]
  omega

/-- **All that `server_open` can do** before its response. -/
inductive OpenRun (fuel : ℕ) (msg : MsgHdr) (g : Globals) : Trace → Int → Globals → Prop
  | busy (hbusy : g.fileAddr ≠ 0 ∨ g.fd > 0) : OpenRun fuel msg g [] ebusy g
  | noMemory (hfree : ¬ (g.fileAddr ≠ 0 ∨ g.fd > 0)) :
      OpenRun fuel msg g [⟨.malloc (pathSize msg), none⟩] enomem g
  | noPath (hfree : ¬ (g.fileAddr ≠ 0 ∨ g.fd > 0)) (heap : Heap (pathSize msg)) (t : Trace)
      (n : ℕ) (mem : List UInt8)
      (hrecv : Returns ((recv fuel .path heap.mem (pathSize msg)).run g) t ((n, mem), g))
      (hn : n ≠ pathSize msg) :
      OpenRun fuel msg g (⟨.malloc (pathSize msg), some heap⟩ :: t) (toInt32 n) g
  | notOpened (hfree : ¬ (g.fileAddr ≠ 0 ∨ g.fd > 0)) (heap : Heap (pathSize msg)) (t : Trace)
      (mem : List UInt8) (e : Errno)
      (hrecv : Returns ((recv fuel .path heap.mem (pathSize msg)).run g) t
        ((pathSize msg, mem), g)) :
      OpenRun fuel msg g (⟨.malloc (pathSize msg), some heap⟩ :: (t ++
        [⟨.openFile (cString mem) .rdwrCreatTrunc msg.data, .error e⟩])) e.value
        { g with fd := -1 }
  | opened (hfree : ¬ (g.fileAddr ≠ 0 ∨ g.fd > 0)) (heap : Heap (pathSize msg)) (t : Trace)
      (mem : List UInt8) (fd : ℕ)
      (hrecv : Returns ((recv fuel .path heap.mem (pathSize msg)).run g) t
        ((pathSize msg, mem), g)) :
      OpenRun fuel msg g (⟨.malloc (pathSize msg), some heap⟩ :: (t ++
        [⟨.openFile (cString mem) .rdwrCreatTrunc msg.data, .ok fd⟩])) 0 { g with fd := fd }

/-- **All that `server_write` can do** once it has a size. -/
inductive DataRun (fuel : ℕ) (g : Globals) : Trace → Int → Globals → Prop
  | notResized (e : Errno) : DataRun fuel g [⟨.ftruncate g.fd g.bytes, .error e⟩] (-1) g
  | notMapped (u : Unit) (e : Errno) :
      DataRun fuel g [⟨.ftruncate g.fd g.bytes, .ok u⟩, ⟨.mmap g.fd g.bytes, .error e⟩] e.value
        { g with fileAddr := mapFailed }
  | noData (u : Unit) (mapping : Mapping g.bytes) (t : Trace) (n : ℕ) (mem : List UInt8)
      (hrecv : Returns ((recv fuel (.mapping mapping.addr) [] g.bytes).run
        { g with fileAddr := mapping.addr }) t ((n, mem), { g with fileAddr := mapping.addr }))
      (hn : n ≠ g.bytes) :
      DataRun fuel g (⟨.ftruncate g.fd g.bytes, .ok u⟩ :: ⟨.mmap g.fd g.bytes, .ok mapping⟩ :: t)
        (toInt32 n) { g with fileAddr := mapping.addr }
  | data (u : Unit) (mapping : Mapping g.bytes) (t : Trace) (mem : List UInt8)
      (hrecv : Returns ((recv fuel (.mapping mapping.addr) [] g.bytes).run
        { g with fileAddr := mapping.addr }) t
        ((g.bytes, mem), { g with fileAddr := mapping.addr })) :
      DataRun fuel g (⟨.ftruncate g.fd g.bytes, .ok u⟩ :: ⟨.mmap g.fd g.bytes, .ok mapping⟩ :: t)
        0 { g with fileAddr := mapping.addr }

/-- **All that `server_write` can do** before its response. -/
inductive WriteRun (fuel : ℕ) (msg : MsgHdr) (g : Globals) : Trace → Int → Globals → Prop
  | refused (hrefused : g.fd ≤ 0 ∨ msg.len.toNat ≠ sizeofWrite) : WriteRun fuel msg g [] einval g
  | noSize (hfd : 0 < g.fd) (hlen : msg.len.toNat = sizeofWrite) (t : Trace) (n : ℕ)
      (buf : List UInt8)
      (hrecv : Returns ((recv fuel .size (toBytes sizeofBytes g.bytes) sizeofBytes).run g) t
        ((n, buf), g)) (hn : n ≠ sizeofBytes) :
      WriteRun fuel msg g t (toInt32 n) { g with bytes := ofBytes buf }
  | size (hfd : 0 < g.fd) (hlen : msg.len.toNat = sizeofWrite) (t t' : Trace) (buf : List UInt8)
      (ret : Int) (g' : Globals)
      (hrecv : Returns ((recv fuel .size (toBytes sizeofBytes g.bytes) sizeofBytes).run g) t
        ((sizeofBytes, buf), g))
      (hdata : DataRun fuel { g with bytes := ofBytes buf } t' ret g') :
      WriteRun fuel msg g (t ++ t') ret g'

section

variable {fuel : ℕ} {msg : MsgHdr} {g g' : Globals} {t : Trace} {ret : Int}

theorem serverOpenFile_run (h : Returns ((serverOpenFile fuel msg).run g) t (ret, g')) :
    OpenRun fuel msg g t ret g' := by
  rw [serverOpenFile, run_get_bind] at h
  split at h
  · rename_i hbusy
    obtain ⟨rfl, rfl, rfl⟩ := returns_run_pure.mp h
    exact OpenRun.busy hbusy
  · rename_i hfree
    obtain ⟨reply, t', rfl, h'⟩ := returns_run_perform_bind.mp h
    cases reply with
    | none =>
        obtain ⟨rfl, rfl, rfl⟩ := returns_run_pure.mp h'
        exact OpenRun.noMemory hfree
    | some heap =>
        obtain ⟨t₁, t₂, ⟨n, mem⟩, g₁, rfl, hrecv, h₂⟩ := returns_run_bind.mp h'
        obtain rfl := recv_globals hrecv
        dsimp only at h₂
        split at h₂
        · rename_i hn
          obtain ⟨rfl, rfl, rfl⟩ := returns_run_pure.mp h₂
          rw [List.append_nil]
          exact OpenRun.noPath hfree heap t₁ n mem hrecv hn
        · rename_i hn
          obtain rfl := not_not.mp hn
          obtain ⟨reply, t₃, rfl, h₃⟩ := returns_run_perform_bind.mp h₂
          cases reply with
          | error e =>
              dsimp only at h₃
              rw [run_modify_bind] at h₃
              obtain ⟨rfl, rfl, rfl⟩ := returns_run_pure.mp h₃
              exact OpenRun.notOpened hfree heap t₁ mem e hrecv
          | ok fd =>
              dsimp only at h₃
              rw [run_modify_bind] at h₃
              obtain ⟨rfl, rfl, rfl⟩ := returns_run_pure.mp h₃
              exact OpenRun.opened hfree heap t₁ mem fd hrecv

theorem serverWriteData_run (h : Returns ((serverWriteData fuel).run g) t (ret, g')) :
    DataRun fuel g t ret g' := by
  rw [serverWriteData, run_get_bind] at h
  obtain ⟨reply, t', rfl, h'⟩ := returns_run_perform_bind.mp h
  cases reply with
  | error e =>
      obtain ⟨rfl, rfl, rfl⟩ := returns_run_pure.mp h'
      exact DataRun.notResized e
  | ok u =>
      obtain ⟨reply, t₂, rfl, h₂⟩ := returns_run_perform_bind.mp h'
      cases reply with
      | error e =>
          dsimp only at h₂
          rw [run_modify_bind] at h₂
          obtain ⟨rfl, rfl, rfl⟩ := returns_run_pure.mp h₂
          exact DataRun.notMapped u e
      | ok mapping =>
          dsimp only at h₂
          rw [run_modify_bind] at h₂
          obtain ⟨t₃, t₄, ⟨n, mem⟩, g₁, rfl, hrecv, h₄⟩ := returns_run_bind.mp h₂
          obtain rfl := recv_globals hrecv
          dsimp only at h₄
          split at h₄
          · rename_i hn
            obtain ⟨rfl, rfl, rfl⟩ := returns_run_pure.mp h₄
            rw [List.append_nil]
            exact DataRun.noData u mapping t₃ n mem hrecv hn
          · rename_i hn
            obtain rfl := not_not.mp hn
            obtain ⟨rfl, rfl, rfl⟩ := returns_run_pure.mp h₄
            rw [List.append_nil]
            exact DataRun.data u mapping t₃ mem hrecv

theorem serverWriteFile_run (h : Returns ((serverWriteFile fuel msg).run g) t (ret, g')) :
    WriteRun fuel msg g t ret g' := by
  rw [serverWriteFile, run_get_bind] at h
  split at h
  · rename_i hfd
    obtain ⟨rfl, rfl, rfl⟩ := returns_run_pure.mp h
    exact WriteRun.refused (Or.inl hfd)
  · rename_i hfd
    split at h
    · rename_i hlen
      obtain ⟨rfl, rfl, rfl⟩ := returns_run_pure.mp h
      exact WriteRun.refused (Or.inr hlen)
    · rename_i hlen
      obtain ⟨t₁, t₂, n, g₁, rfl, h₁, h₂⟩ := returns_run_bind.mp h
      rw [recvBytes, run_get_bind] at h₁
      obtain ⟨t₃, t₄, ⟨m, buf⟩, g₂, rfl, hrecv, h₄⟩ := returns_run_bind.mp h₁
      obtain rfl := recv_globals hrecv
      dsimp only at h₄
      rw [run_modify_bind] at h₄
      obtain ⟨rfl, rfl, rfl⟩ := returns_run_pure.mp h₄
      rw [List.append_nil]
      split at h₂
      · rename_i hn
        obtain ⟨rfl, rfl, rfl⟩ := returns_run_pure.mp h₂
        rw [List.append_nil]
        exact WriteRun.noSize (not_le.mp hfd) (not_not.mp hlen) t₃ m buf hrecv hn
      · rename_i hn
        obtain rfl := not_not.mp hn
        exact WriteRun.size (not_le.mp hfd) (not_not.mp hlen) t₃ t₂ buf ret g' hrecv
          (serverWriteData_run h₂)

/-- `server_close`, the mapping. -/
lemma returns_unmapFile {u : Unit} : Returns (unmapFile.run g) t (u, g') ↔
    t = (if g.fileAddr ≠ 0 then [⟨.munmap g.fileAddr g.bytes, ()⟩] else []) ∧
      g' = { g with fileAddr := 0 } := by
  rw [unmapFile, run_get_bind]
  split
  · rw [returns_run_perform_bind]
    simp only [returns_run_modify]
    constructor
    · rintro ⟨_, t', rfl, rfl, rfl⟩
      exact ⟨rfl, rfl⟩
    · rintro ⟨rfl, rfl⟩
      exact ⟨(), [], rfl, rfl, rfl⟩
  · rename_i hnull
    have hsame : { g with fileAddr := 0 } = g := by rw [← not_not.mp hnull]
    rw [returns_run_pure, hsame]
    exact ⟨fun h => ⟨h.1, h.2.2.symm⟩, fun h => ⟨h.1, rfl, h.2.symm⟩⟩

/-- `server_close`, the file. -/
lemma returns_closeFile {u : Unit} : Returns (closeFile.run g) t (u, g') ↔
    t = (if g.fd > 0 then [⟨.close g.fd, ()⟩] else []) ∧
      g' = { g with fd := min g.fd 0 } := by
  rw [closeFile, run_get_bind]
  split
  · rename_i hfd
    rw [returns_run_perform_bind, min_eq_right (le_of_lt hfd)]
    simp only [returns_run_modify]
    constructor
    · rintro ⟨_, t', rfl, rfl, rfl⟩
      exact ⟨rfl, rfl⟩
    · rintro ⟨rfl, rfl⟩
      exact ⟨(), [], rfl, rfl, rfl⟩
  · rename_i hfd
    rw [returns_run_pure, min_eq_left (not_lt.mp hfd)]
    exact ⟨fun h => ⟨h.1, h.2.2.symm⟩, fun h => ⟨h.1, rfl, h.2.symm⟩⟩

/-- The globals after a CLOSE. -/
def Globals.closed (g : Globals) : Globals := { g with fd := min g.fd 0, fileAddr := 0 }

/-- **All that `server_close` can do.** -/
theorem returns_serverClose {u : Unit} : Returns ((serverClose msg).run g) t (u, g') ↔
    ∃ r, t = ⟨.rsend (respHdr msg 0).encode, r⟩ ::
      ((if g.fileAddr ≠ 0 then [⟨.munmap g.fileAddr g.bytes, ()⟩] else []) ++
        if g.fd > 0 then [⟨.close g.fd, ()⟩] else []) ∧ g' = g.closed := by
  rw [serverClose, msgSendResp, bind_assoc, returns_run_perform_bind]
  simp only [pure_bind]
  constructor
  · rintro ⟨r, t', rfl, h⟩
    obtain ⟨t₁, t₂, v, g₁, rfl, h₁, h₂⟩ := returns_run_bind.mp h
    obtain ⟨rfl, rfl⟩ := returns_unmapFile.mp h₁
    obtain ⟨rfl, rfl⟩ := returns_closeFile.mp h₂
    exact ⟨r, rfl, rfl⟩
  · rintro ⟨r, rfl, rfl⟩
    refine ⟨r, _, rfl, ?_⟩
    exact returns_run_bind.mpr ⟨_, _, (), _, rfl, returns_unmapFile.mpr ⟨rfl, rfl⟩,
      returns_closeFile.mpr ⟨rfl, rfl⟩⟩

/-- What `server_close` calls. -/
lemma serverClose_calls {Q : Call → Prop} (hsend : ∀ bs, Q (.rsend bs))
    (hunmap : ∀ addr length, Q (.munmap addr length)) (hclose : ∀ fd, Q (.close fd)) :
    Keeps (fun _ => ()) Q (serverClose msg) := by
  refine Keeps.bind (Keeps.bind (Keeps.perform (hsend _)) fun _ => Keeps.pure _) fun _ => ?_
  refine Keeps.bind ?_ fun _ => ?_
  · refine Keeps.bind Keeps.get fun g => Keeps.ite ?_ (Keeps.pure _)
    exact Keeps.bind (Keeps.perform (hunmap _ _)) fun _ => Keeps.modify fun _ => rfl
  · refine Keeps.bind Keeps.get fun g => Keeps.ite ?_ (Keeps.pure _)
    exact Keeps.bind (Keeps.perform (hclose _)) fun _ => Keeps.modify fun _ => rfl

/-! The `switch` of `server_process`. -/

lemma serverHandle_open (h : msg.command = cmdOpen) :
    serverHandle fuel msg = serverOpen fuel msg := if_pos h

lemma serverHandle_close (h : msg.command = cmdClose) :
    serverHandle fuel msg = (do serverClose msg; return 0) := by
  rw [serverHandle, if_neg (by rw [h]; decide), if_pos h]

lemma serverHandle_write (h : msg.command = cmdWrite) :
    serverHandle fuel msg = serverWrite fuel msg := by
  rw [serverHandle, if_neg (by rw [h]; decide), if_neg (by rw [h]; decide), if_pos h]

end

/-! ## A world to run the server in -/

/-- A world in which every call succeeds; `rrecv` brings what is left of a stream, and then its
end. -/
def reliable (s : List UInt8) : (c : Call) → Reply c × List UInt8
  | .uninitialised => (⟨0, 0, 0, 0, 0⟩, s)
  | .raccept => ((), s)
  | .getaddrinfo => (0, s)
  | .rsSocket => (3, s)
  | .rconnect => (0, s)
  | .rrecv _ _ len => (some ⟨s.take len, by simp⟩, s.drop len)
  | .rsend bs => (⟨bs.length, by omega, le_rfl⟩, s)
  | .rshutdown => ((), s)
  | .rclose => ((), s)
  | .malloc n => (some ⟨List.replicate n 0, by simp⟩, s)
  | .calloc _ => (true, s)
  | .openFile _ _ _ => (.ok 3, s)
  | .fstat _ => (.ok ⟨0, by norm_num, 0⟩, s)
  | .ftruncate _ _ => (.ok (), s)
  | .mmap _ length => (.ok ⟨4096, by norm_num, by norm_num, List.replicate length 0, by simp⟩, s)
  | .munmap _ _ => ((), s)
  | .close _ => ((), s)

/-- The header of an OPEN with a path of eight bytes. -/
def openHdr8 : MsgHdr := ⟨0, cmdOpen, 24, 0, 0⟩

end Rcopy
