import RdmaExamples.Multithreading.Handles

/-!
# The sizes of the regions

The threads of the local program write and read `rm_size` bytes in a region of the remote side.  The
remote side registers regions of the size that it finds behind the code in a message, and the local
program sends nothing there: every region is of length `0`.

* `remoteAccess` — the bytes on the remote side that a call of a thread names.
* `threadDo_access` — they are `rm_size` bytes from the address of the region on.
* `regions_empty` — a region is as long as the message with the code says, and that is zero bytes
  long since `send_comm_code` clears its buffer and stores the code only.
* `LargeEnough` — what is expected: a region of which the local program has the handle holds what
  the threads access.
-/

namespace Multithreading

open Programs Systems Monitors

/-! ## What the threads access -/

/-- Where a call reads or writes on the remote side, and how much. -/
def remoteAccess : Call → Option (Handle × UInt64)
  | .postWrite _ length _ remote => some (remote, length)
  | .postRead _ length _ remote => some (remote, length)
  | _ => none

/-- The bytes of a region. -/
def Mr.Holds (mr : Mr) (addr length : UInt64) : Prop :=
  mr.addr.toNat ≤ addr.toNat ∧ addr.toNat + length.toNat ≤ mr.addr.toNat + mr.length.toNat

namespace Local

/-- A call of a thread accesses `rm_size` bytes at the address that it was given. -/
def AccessOk (rmSize : UInt64) (remote : Handle) (c : Call) : Prop :=
  ∀ access, remoteAccess c = some access → access = (remote, rmSize)

variable {rmSize buff : UInt64} {remote : Handle} {globals : Globals} {threadIdx : ℕ} {c : Call}

lemma accessOk_of_none (h : remoteAccess c = none) : AccessOk rmSize remote c := by
  intro access haccess
  rw [h] at haccess
  exact absurd haccess (by simp)

lemma accessOk_free : Free (R := Reply) (watch (AccessOk rmSize remote)) Call.Teardown () := by
  intro c hc
  refine ⟨?_, fun _ => rfl⟩
  cases c <;> first | exact accessOk_of_none rfl | exact absurd hc id

lemma pollLoop_access : ∀ fuel,
    Obeys (watch (AccessOk rmSize remote)) (fun _ _ => True) ((pollLoop fuel).run globals) ()
  | 0 => trivial
  | fuel + 1 => by
      refine Obeys.perform_bind (accessOk_of_none rfl) fun ret _ => ?_
      exact Obeys.ite (fun _ => pollLoop_access fuel) fun _ => trivial

lemma threadRead_access (fuel : ℕ) :
    Obeys (watch (AccessOk rmSize remote)) (fun _ _ => True)
      ((threadRead fuel rmSize buff remote).run globals) () := by
  refine Obeys.perform_bind (accessOk_of_none rfl) fun _ _ => ?_
  refine Obeys.perform_bind (accessOk_of_none rfl) fun _ _ => ?_
  refine Obeys.perform_bind (accessOk_of_none rfl) fun mr _ => ?_
  refine Obeys.perform_bind (fun access haccess => (Option.some.inj haccess).symm) fun ret _ => ?_
  refine Obeys.ite (fun _ => outFunc_obeys accessOk_free .disconnect) fun _ => ?_
  refine Obeys.bind (pollLoop_access fuel) fun _ _ _ _ => ?_
  exact Obeys.perform_bind (accessOk_of_none rfl) fun _ _ => trivial

lemma threadWrite_access (fuel : ℕ) :
    Obeys (watch (AccessOk rmSize remote)) (fun _ _ => True)
      ((threadWrite fuel rmSize buff threadIdx remote).run globals) () := by
  refine Obeys.perform_bind (accessOk_of_none rfl) fun _ _ => ?_
  refine Obeys.perform_bind (accessOk_of_none rfl) fun _ _ => ?_
  refine Obeys.perform_bind (accessOk_of_none rfl) fun _ _ => ?_
  refine Obeys.perform_bind (accessOk_of_none rfl) fun mr _ => ?_
  refine Obeys.perform_bind (fun access haccess => (Option.some.inj haccess).symm) fun ret _ => ?_
  refine Obeys.ite (fun _ => outFunc_obeys accessOk_free .disconnect) fun _ => ?_
  exact Obeys.bind (pollLoop_access fuel) fun _ _ _ _ => threadRead_access fuel

/-- **What a thread accesses** on the remote side is what it was told to. -/
theorem threadDo_access {fuel : ℕ} {t : Trace}
    (ht : CanDo ((threadDo fuel threadIdx remote).run globals) t) :
    ∀ e ∈ t, AccessOk globals.rmSize remote e.1 := by
  obtain ⟨q, hq⟩ := ht
  refine Obeys.calls (Q := fun _ _ => True) ?_ hq
  refine Obeys.get_bind (Obeys.perform_bind (accessOk_of_none rfl) fun buff _ => ?_)
  exact Obeys.perform_bind (accessOk_of_none rfl) fun _ _ => threadWrite_access fuel

end Local

/-! ## What the remote side registers -/

section Sizes

variable {sendInline : Side → Bool} {rmSize : Side → UInt64} {rs : List Local.Request}
  {tr : NodeTrace} {s : Nodes} {mr : Mr}

/-- **Every region is empty.**  Its length is what was read in the message that asked for it, and
that message is the code and zeros behind it. -/
theorem regions_empty (h : NodeRun sendInline rmSize rs tr s)
    (hmr : mr ∈ regionsOf (traceOf .remoteNode tr)) : mr.length = 0 := by
  obtain ⟨inbox, hagrees, hports, hrecords⟩ := nodes_run h
  rw [← regions_record] at hmr
  obtain ⟨k, hk, hlength⟩ := (hrecords .remoteNode).regions mr hmr
  have hin := inbox_eq .remoteNode hagrees hports hrecords hk
  simp only [Side.other, outbox, List.getElem?_map, Option.map_eq_some_iff] at hin
  obtain ⟨code, -, hmessage⟩ := hin
  rw [hlength, ← hmessage, readSize_message]

/-- A region that `reg_new_mr` tells of is as long as `rm_size`, so that the threads stay inside. -/
def LargeEnough (rmSize : UInt64) (tr : NodeTrace) : Prop :=
  ∀ (k : ℕ) (handle : Handle) (mr : Mr), (handlesOf (traceOf .localNode tr))[k]? = some handle →
    (regionsOf (traceOf .remoteNode tr))[k]? = some mr →
      rmSize ≤ mr.length ∧
      ∀ fuel threadIdx sendInline t,
        CanDo ((Local.threadDo fuel threadIdx handle).run ⟨rmSize, sendInline⟩) t →
          ∀ e ∈ t, ∀ access, remoteAccess e.1 = some access → mr.Holds access.1.addr access.2

/-- A size of `0` asks for nothing. -/
lemma largeEnough_zero (h : NodeRun sendInline rmSize rs tr s) : LargeEnough 0 tr := by
  intro k handle mr hhandle hmr
  have hsame := getElem?_of_initial (handles_initial h) hhandle
  rw [List.getElem?_map, hmr] at hsame
  obtain rfl : mr.handle = handle := Option.some.inj hsame
  refine ⟨UInt64.le_iff_toNat_le.mpr (Nat.zero_le _), fun fuel threadIdx sendInline t ht e he => ?_⟩
  rintro access haccess
  obtain rfl := Local.threadDo_access ht e he access haccess
  exact ⟨le_rfl, Nat.add_le_add_left (Nat.zero_le _) _⟩

namespace Local

/-- A call that stores no handle. -/
def StoresNone (c : Call) : Prop := ∀ handle, c ≠ .storeHandle handle

lemma storesNone_free : Free (R := Reply) (watch StoresNone) Call.Teardown () := by
  refine fun c hc => ⟨fun handle heq => ?_, fun _ => rfl⟩
  rw [heq] at hc
  exact hc

lemma waitSendComp_storesNone {globals : Globals} : ∀ fuel,
    Obeys (watch StoresNone) (fun _ _ => True) ((waitSendComp fuel).run globals) ()
  | 0 => trivial
  | fuel + 1 => by
      refine Obeys.perform_bind (fun _ => by simp) fun ret _ => ?_
      exact Obeys.ite (fun _ => waitSendComp_storesNone fuel) fun _ => trivial

lemma sendCommCode_storesNone {globals : Globals} (fuel : ℕ) (code : CommCode) :
    Obeys (watch StoresNone) (fun _ _ => True) ((sendCommCode fuel code).run globals) () := by
  refine Obeys.perform_bind (fun _ => by simp) fun _ _ => ?_
  refine Obeys.perform_bind (fun _ => by simp) fun _ _ => ?_
  refine Obeys.perform_bind (fun _ => by simp) fun ret _ => ?_
  refine Obeys.ite (fun _ => outFunc_obeys storesNone_free .disconnect) fun _ => ?_
  refine Obeys.bind (waitSendComp_storesNone fuel) fun _ ret _ _ => ?_
  exact Obeys.ite (fun _ => trivial) fun _ => trivial

/-- Without requests there are no handles. -/
lemma requestRun_storesNone {globals : Globals} (fuel : ℕ) :
    Obeys (watch StoresNone) (fun _ _ => True) ((requestRun fuel []).run globals) () :=
  Obeys.bind (Q := fun _ _ => True) trivial fun _ _ _ _ =>
    Obeys.bind (sendCommCode_storesNone fuel .exit) fun _ _ _ _ =>
      outFunc_obeys storesNone_free .disconnect

end Local

lemma handles_nil (h : NodeRun sendInline rmSize [] tr s) :
    handlesOf (traceOf .localNode tr) = [] := by
  obtain ⟨fuel, rounds, h⟩ := h
  have hobeys : Obeys (watch Local.StoresNone) (fun _ _ => True)
      (sides sendInline rmSize fuel rounds [] .localNode) () :=
    Obeys.prog_bind (Local.requestRun_storesNone (fuel .localNode)) fun _ _ _ => trivial
  have hcalls := hobeys.calls (Run.steps h .localNode)
  refine List.filterMap_eq_nil_iff.mpr fun e he => ?_
  have hnone := hcalls e he
  obtain ⟨c, reply⟩ := e
  cases c with
  | storeHandle handle => exact absurd rfl (hnone handle)
  | _ => rfl

/-- The programs, where the local one is followed up to its first handle. -/
def upToHandle (rmSize : UInt64) : Side → Prog Call Reply Unit
  | .localNode => do
      let _ ← (Local.regNewMr 1).run ⟨rmSize, true⟩
      Prog.halt
  | .remoteNode => do
      let _ ← (Remote.remoteNodeRun 1 2).run { rmSize := 0, sendInline := true }

/-- The sizes that the two programs are started with. -/
def startSizes (rmSize : UInt64) : Side → UInt64
  | .localNode => rmSize
  | .remoteNode => 0

lemma cut_upToHandle (rmSize : UInt64) (rs : List Local.Request) (side : Side) :
    Cut (upToHandle rmSize side)
      (sides (fun _ => true) (startSizes rmSize) (fun _ => 1) 2 (.regNewMr :: rs) side) := by
  cases side with
  | localNode =>
      simp only [sides, Local.requestRun, Local.requests, StateT.run_bind, bind_assoc]
      exact cut_bind _ _
  | remoteNode => exact cut_refl _

/-- The first handle is stored. -/
lemma exists_handle (rmSize : UInt64) (rs : List Local.Request) : ∃ tr s,
    NodeRun (fun _ => true) (startSizes rmSize) (.regNewMr :: rs) tr s ∧
      handlesOf (traceOf .localNode tr) = [⟨7, 4096⟩] ∧
      regionsOf (traceOf .remoteNode tr) = [⟨4096, 0, 7⟩] := by
  obtain ⟨tr, s, hrun, htest⟩ := Runs.Run.exists_of_play (next (channel fun _ => true))
    (⟨upToHandle rmSize, Ports.start⟩ : Nodes) oneRegion
    (fun r => decide (handlesOf (traceOf .localNode r.2) = [⟨7, 4096⟩] ∧
      regionsOf (traceOf .remoteNode r.2) = [⟨4096, 0, 7⟩])) rfl
  obtain ⟨s', hrun', -, -⟩ := Run.of_cut (cut_upToHandle rmSize rs) hrun
  exact ⟨tr, s', ⟨_, _, hrun'⟩, of_decide_eq_true htest⟩

/-- **The regions are large enough** for nothing only: for every `rm_size` and every number of
calls of `reg_new_mr`.

Every region has the length that the remote program read behind a code, which is `0`
(`regions_empty`), and a thread names the whole `rm_size` (`threadDo_access`).  So as soon as there
is a region and something is to be accessed, the access leaves it; the run in which that shows is
the one in which nothing fails (`exists_handle`). -/
theorem regions_largeEnough_iff (size : UInt64) (n : ℕ) :
    (∀ sendInline rmSize tr s, rmSize .localNode = size →
      NodeRun sendInline rmSize (List.replicate n .regNewMr) tr s → LargeEnough size tr) ↔
      size = 0 ∨ n = 0 := by
  constructor
  · intro hall
    by_contra hnot
    obtain ⟨hsize, hn⟩ := not_or.mp hnot
    obtain ⟨m, rfl⟩ := Nat.exists_eq_succ_of_ne_zero hn
    obtain ⟨tr, s, hrun, hhandles, hregions⟩ :=
      exists_handle size (List.replicate m .regNewMr)
    have hlarge := hall _ _ tr s rfl hrun
    have hle := (hlarge 0 ⟨7, 4096⟩ ⟨4096, 0, 7⟩ (by rw [hhandles]; rfl) (by rw [hregions]; rfl)).1
    exact hsize (UInt64.le_antisymm hle (UInt64.le_iff_toNat_le.mpr (Nat.zero_le _)))
  · rintro (rfl | rfl) sendInline rmSize tr s - hrun
    · exact largeEnough_zero hrun
    · intro k handle mr hhandle
      rw [handles_nil hrun] at hhandle
      exact absurd hhandle (by simp)

/-- With 32 bytes asked for, the one region that is registered is empty. -/
theorem oneRegion_tooSmall : ∃ tr s,
    NodeRun (fun _ => true) (startSizes 32) [.regNewMr] tr s ∧ ¬ LargeEnough 32 tr := by
  obtain ⟨tr, s, hrun, hhandles, hregions⟩ := exists_handle 32 []
  refine ⟨tr, s, hrun, fun hlarge => ?_⟩
  have hle := (hlarge 0 ⟨7, 4096⟩ ⟨4096, 0, 7⟩ (by rw [hhandles]; rfl) (by rw [hregions]; rfl)).1
  exact absurd hle (by decide)

end Sizes

end Multithreading
