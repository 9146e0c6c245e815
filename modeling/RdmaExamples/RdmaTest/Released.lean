import RdmaExamples.Messages.Released
import RdmaExamples.RdmaTest.Program

/-!
# What the program of the shared region releases

Two things are not released.  The region of `buff_local_send` has no label: where it was registered
it is left behind.  And where the second receive cannot be posted both sides go to `out_dereg_send`,
past `rdma_disconnect`, and the client also past its region.  `nodeRun_tidy_iff`: a side releases
everything just if neither happens.

* `RecvFailsLate` — the second receive of the run cannot be posted.
* `LocalRegistered` — `buff_local_send` was registered, which only the server does.
* `kept` — the replies that a side may count on: those with which neither happens.
* `seeing` — the monitor for the other direction: where a receive has failed late the connection is
  not given up, and the region of `buff_local_send` never is.
-/

namespace RdmaTest

open Programs Monitors Resources Messages

/-- A receive could not be posted any more when the connection was there. -/
def RecvFailsLate (t : Trace) : Prop :=
  ∃ (t₁ : Trace) (ret : Int) (t₂ : Trace), t = t₁ ++ (⟨.postRecv, ret⟩ : Event Call Reply) :: t₂ ∧
    ret ≠ 0 ∧ (⟨.established, (0 : Int)⟩ : Event Call Reply) ∈ t₁

/-- The region of `buff_local_send` was registered. -/
def LocalRegistered (t : Trace) : Prop :=
  ∃ mr : Mr, (⟨.regMr .buffLocalSend, some mr⟩ : Event Call Reply) ∈ t

/-! ## Where neither happens

The same walk as in the message program, with one more resource: the region of the client, which is
released by the label in front of the others. -/

/-- The replies with which nothing is left behind. -/
def kept (held : List Resource) : Event Call Reply → Prop
  | ⟨.postRecv, ret⟩ => .connection ∈ held → ret = 0
  | ⟨.regMr buf, mr⟩ => buf = .buffLocalSend → mr = none
  | _ => True

section

variable {side : Side} {sendInline : Bool} {label : Label} {fuel : ℕ} {rest : MsgM Exit}
  {addr : UInt64} {rkey : UInt32}

lemma pollCq_obeys : Obeys (resourceUse.expecting kept) (Waits side sendInline .disconnect)
    ((pollCq fuel).run sendInline) (heldAt side sendInline .disconnect) := by
  induction fuel with
  | zero => exact Obeys.halt
  | succ fuel ih =>
      refine obeys_use (fun _ => rfl) (usesOne ?_) fun ret _ => ?_
      · exact connected_disconnect (by simp [mem_buffersHeld])
      · exact Obeys.ite (fun _ => ih) fun _ => Obeys.pure ⟨rfl, rfl⟩

/-- The second receive is posted. -/
lemma postRecv_kept {held : List Resource} (hep : Resource.ep ∈ held)
    (hmr : Resource.mr .recvMsg ∈ held) (hconnection : Resource.connection ∈ held)
    (hrest : Obeys (resourceUse.expecting kept) (LeavesAt side) (rest.run sendInline) held) :
    Obeys (resourceUse.expecting kept) (LeavesAt side)
      ((attempt .deregSend (call .postRecv) rest).run sendInline) held :=
  postRecv_obeys hep hmr (fun _ hne hkept => absurd (hkept hconnection) hne) hrest

lemma serverAccess_obeys : Obeys (resourceUse.expecting kept) (LeavesAt .server)
    ((serverAccess fuel none addr rkey).run sendInline)
    (heldAt .server sendInline .disconnect) := by
  have hneeds : ∀ q ∈ [Resource.ep, .connection], q ∈ heldAt .server sendInline .disconnect := by
    refine List.forall_mem_cons.mpr ⟨?_, usesOne ?_⟩
    · exact connected_disconnect (by simp [mem_buffersHeld])
    · exact List.mem_cons_self
  refine obeys_use (fun _ => rfl) hneeds fun ret _ => Obeys.ite (fun _ => rfl) fun _ => ?_
  refine Obeys.bind pollCq_obeys ?_
  rintro _ _ _ ⟨rfl, rfl⟩
  refine obeys_use (fun _ => rfl) (List.forall_mem_nil _) fun _ _ => ?_
  refine obeys_use (fun _ => rfl) hneeds fun ret _ => Obeys.ite (fun _ => rfl) fun _ => ?_
  refine Obeys.bind pollCq_obeys ?_
  rintro _ _ _ ⟨rfl, rfl⟩
  refine postSend_obeys connected_disconnect ?_
  exact lastWait_holds (sendComp_obeys connected_disconnect)

lemma serverRun_obeys : Obeys (resourceUse.expecting kept) (fun held _ => held = [])
    ((serverRun fuel).run sendInline) [] := by
  refine leave_obeys (serverStart_obeys fun sendInline => ?_)
  refine attemptWait_holds (recvComp_obeys connected_disconnect) ?_
  refine postSend_obeys connected_disconnect ?_
  refine Obeys.bind (sendComp_obeys connected_disconnect) ?_
  rintro _ _ _ ⟨rfl, rfl⟩
  refine postRecv_kept ?_ ?_ List.mem_cons_self ?_
  · exact connected_disconnect (by simp [mem_buffersHeld])
  · exact connected_disconnect (by simp [mem_buffersHeld])
  refine attemptWait_holds (recvComp_obeys connected_disconnect) ?_
  refine obeys_use (fun _ => rfl) (List.forall_mem_nil _) fun _ _ => ?_
  refine obeys_use (fun _ => rfl) (List.forall_mem_nil _) fun _ _ => ?_
  refine obeys_use (fun _ => rfl) (List.forall_mem_nil _) fun _ _ => ?_
  refine obeys_acquire (.mr .buffLocalSend) (fun mr => mr.isSome = true) (fun _ => rfl) ?_ ?_ ?_ ?_
  · exact usesOne (connected_disconnect (by simp [mem_buffersHeld]))
  · simp [heldAt, mem_buffersHeld]
  · rintro mr hkept hmr
    rw [hkept rfl] at hmr
    exact absurd hmr (by simp)
  · rintro mr hkept -
    rw [hkept rfl]
    exact serverAccess_obeys

lemma clientTell_obeys : Obeys (resourceUse.expecting kept) (LeavesAt .client)
    ((clientTell fuel).run sendInline) (heldAt .client sendInline .deregRdmaMr) := by
  refine postSend_obeys connected_deregRdmaMr ?_
  refine attemptWait_holds (sendComp_obeys connected_deregRdmaMr) ?_
  refine postRecv_kept ?_ ?_ (connected_deregRdmaMr List.mem_cons_self) ?_
  · exact connected_deregRdmaMr (by simp [mem_buffersHeld])
  · exact connected_deregRdmaMr (by simp [mem_buffersHeld])
  exact lastWait_holds (recvComp_obeys connected_deregRdmaMr)

lemma segfault_obeys {held : List Resource} : Obeys (resourceUse.expecting kept) (LeavesAt side)
    (segfault.run sendInline) held :=
  obeys_use (fun _ => rfl) (List.forall_mem_nil _) fun _ _ => Obeys.halt

lemma clientShare_obeys {mr : Mr} : Obeys (resourceUse.expecting kept) (LeavesAt .client)
    ((clientShare fuel mr).run sendInline) (heldAt .client sendInline .deregRdmaMr) := by
  refine obeys_use (fun _ => rfl) (List.forall_mem_nil _) fun _ _ => ?_
  split
  · exact segfault_obeys
  · exact obeys_use (fun _ => rfl) (List.forall_mem_nil _) fun _ _ => clientTell_obeys

lemma clientRun_obeys : Obeys (resourceUse.expecting kept) (fun held _ => held = [])
    ((clientRun fuel).run sendInline) [] := by
  refine leave_obeys (clientStart_obeys fun sendInline => ?_)
  refine postSend_obeys connected_disconnect ?_
  refine attemptWait_holds (sendComp_obeys connected_disconnect) ?_
  refine Obeys.bind (recvComp_obeys connected_disconnect) ?_
  rintro _ _ _ ⟨rfl, rfl⟩
  refine obeys_acquire (.mr .rdmaBuff) (fun mr => mr.isSome = true) (fun _ => rfl) ?_ ?_ ?_ ?_
  · exact usesOne (connected_disconnect (by simp [mem_buffersHeld]))
  · simp [heldAt, mem_buffersHeld]
  · rintro mr - hmr
    obtain ⟨mr, rfl⟩ := Option.isSome_iff_exists.mp hmr
    exact clientShare_obeys
  · rintro mr - hmr
    obtain rfl : mr = none := by simpa using hmr
    exact segfault_obeys

end

/-! ## Where one of them does -/

/-- What is seen of the connection: whether it is there, whether a receive has failed after that,
and whether it has been given up. -/
structure Seen where
  up : Bool := false
  late : Bool := false
  down : Bool := false

/-- What a call adds. -/
def Seen.after (seen : Seen) : Event Call Reply → Seen
  | ⟨.established, ret⟩ => { seen with up := seen.up || decide (ret = 0) }
  | ⟨.postRecv, ret⟩ => { seen with late := seen.late || (seen.up && decide (ret ≠ 0)) }
  | ⟨.disconnect, _⟩ => { seen with down := true }
  | _ => seen

/-- A side never gives up the region of `buff_local_send`. -/
def seeing : Monitor Call Reply Seen :=
  ⟨fun _ c => c ≠ .deregMr .buffLocalSend, fun _ _ => True, Seen.after⟩

/-- Where a receive has failed late, the connection is not given up. -/
def Seen.Left (seen : Seen) : Prop := seen.late = true → seen.down = false

/-- A function may leave: no receive has failed late, or it leaves past the connection. -/
def Seen.Leaves (seen : Seen) (x : Exit × Bool) : Prop :=
  seen.late = false ∨ seen.down = false ∧ x.1.label = .deregSend

/-- No receive has failed late, and the connection has not been given up. -/
def Seen.Open (seen : Seen) : Prop := seen.late = false ∧ seen.down = false

/-- Nothing has been seen of the connection. -/
def Seen.Early (seen : Seen) : Prop := seen.up = false ∧ seen.Open

/-- A call that gives up neither the connection nor the region of `buff_local_send`. -/
def Kind (c : Call) : Prop := c ≠ .disconnect ∧ c ≠ .deregMr .buffLocalSend

section

variable {side : Side} {sendInline : Bool} {label : Label} {fuel : ℕ} {seen : Seen} {c : Call}
  {body rest : MsgM Exit} {verb wait : MsgM Int}

/-- What a verb leads to that may fail. -/
lemma next_open {ret : Int} (hopen : seen.Open)
    (hrest : Obeys seeing Seen.Leaves (rest.run sendInline) seen) :
    Obeys seeing Seen.Leaves
      ((if ret ≠ 0 then pure ⟨label, ret⟩ else rest : MsgM Exit).run sendInline) seen :=
  Obeys.ite (fun _ => Or.inl hopen.1) fun _ => hrest

/-! ### Up to the connection -/

lemma Seen.Early.after {reply : Reply c} (h : seen.Early) (hc : c ≠ .established)
    (hkind : Kind c) : (seen.after ⟨c, reply⟩).Early := by
  cases c with
  | established => exact absurd rfl hc
  | disconnect => exact absurd rfl hkind.1
  | postRecv =>
      refine ⟨h.1, ?_, h.2.2⟩
      show (seen.late || (seen.up && _)) = false
      rw [h.1, h.2.1]
      rfl
  | _ => exact h

lemma call_early (hc : c ≠ .established) (hkind : Kind c) (f : Reply c → MsgM Exit)
    (hearly : seen.Early)
    (hrest : ∀ reply seen, seen.Early → Obeys seeing Seen.Leaves ((f reply).run sendInline) seen) :
    Obeys seeing Seen.Leaves ((call c >>= f).run sendInline) seen :=
  Obeys.perform_bind hkind.2 fun reply _ => hrest reply _ (hearly.after hc hkind)

lemma queryCaps_early (hearly : seen.Early)
    (hrest : ∀ sendInline seen, seen.Early → Obeys seeing Seen.Leaves (rest.run sendInline) seen) :
    Obeys seeing Seen.Leaves ((queryCaps rest).run sendInline) seen := by
  refine call_early (by simp) ⟨by simp, by simp⟩ _ hearly fun _ seen hearly => ?_
  exact Obeys.ite (fun _ => Or.inl hearly.2.1) fun _ => Obeys.modify_bind (hrest _ seen hearly)

lemma createEp_early (hearly : seen.Early)
    (hrest : ∀ sendInline seen, seen.Early → Obeys seeing Seen.Leaves (rest.run sendInline) seen) :
    Obeys seeing Seen.Leaves ((createEp rest).run sendInline) seen := by
  refine call_early (by simp) ⟨by simp, by simp⟩ _ hearly fun _ seen hearly => Obeys.modify_bind ?_
  exact Obeys.ite (fun _ => Or.inl hearly.2.1) fun _ => hrest _ seen hearly

lemma regBuffers_early (hearly : seen.Early)
    (hrest : ∀ seen, seen.Early → Obeys seeing Seen.Leaves (rest.run sendInline) seen) :
    Obeys seeing Seen.Leaves ((regBuffers rest).run sendInline) seen := by
  refine call_early (by simp) ⟨by simp, by simp⟩ _ hearly fun _ seen hearly => ?_
  refine Obeys.ite (fun _ => Or.inl hearly.2.1) fun _ => Obeys.get_bind ?_
  refine Obeys.ite (fun _ => ?_) fun _ => hrest seen hearly
  refine call_early (by simp) ⟨by simp, by simp⟩ _ hearly fun _ seen hearly => ?_
  exact Obeys.ite (fun _ => Or.inl hearly.2.1) fun _ => hrest seen hearly

lemma serverStart_early
    (hrest : ∀ sendInline seen, seen.Open →
      Obeys seeing Seen.Leaves (rest.run sendInline) seen) :
    Obeys seeing Seen.Leaves ((serverStart rest).run sendInline) {} := by
  refine call_early (by simp) ⟨by simp, by simp⟩ _ ⟨rfl, rfl, rfl⟩ fun _ seen h => next_open h.2 ?_
  refine call_early (by simp) ⟨by simp, by simp⟩ _ h fun _ seen h => next_open h.2 ?_
  refine call_early (by simp) ⟨by simp, by simp⟩ _ h fun _ seen h => next_open h.2 ?_
  refine call_early (by simp) ⟨by simp, by simp⟩ _ h fun _ seen h => next_open h.2 ?_
  refine queryCaps_early h fun sendInline seen h => regBuffers_early h fun seen h => ?_
  refine call_early (by simp) ⟨by simp, by simp⟩ _ h fun _ seen h => next_open h.2 ?_
  rw [attempt_rdmaAccept]
  refine call_early (by simp) ⟨by simp, by simp⟩ _ h fun _ seen h => next_open h.2 ?_
  refine Obeys.perform_bind (by simp [seeing]) fun ret _ => ?_
  exact next_open h.2 (hrest _ _ h.2)

lemma clientStart_early
    (hrest : ∀ sendInline seen, seen.Open →
      Obeys seeing Seen.Leaves (rest.run sendInline) seen) :
    Obeys seeing Seen.Leaves ((clientStart rest).run sendInline) {} := by
  refine call_early (by simp) ⟨by simp, by simp⟩ _ ⟨rfl, rfl, rfl⟩ fun _ seen h => next_open h.2 ?_
  refine createEp_early h fun sendInline seen h => regBuffers_early h fun seen h => ?_
  refine call_early (by simp) ⟨by simp, by simp⟩ _ h fun _ seen h => next_open h.2 ?_
  rw [attempt_rdmaConnect]
  refine call_early (by simp) ⟨by simp, by simp⟩ _ h fun _ seen h => next_open h.2 ?_
  refine Obeys.perform_bind (by simp [seeing]) fun ret _ => ?_
  exact next_open h.2 (hrest _ _ h.2)

/-! ### From the connection on -/

lemma call_open (hc : c ≠ .postRecv) (hkind : Kind c) (f : Reply c → MsgM Exit)
    (hopen : seen.Open)
    (hrest : ∀ reply seen, seen.Open → Obeys seeing Seen.Leaves ((f reply).run sendInline) seen) :
    Obeys seeing Seen.Leaves ((call c >>= f).run sendInline) seen := by
  refine Obeys.perform_bind hkind.2 fun reply _ => hrest reply _ ?_
  cases c with
  | postRecv => exact absurd rfl hc
  | disconnect => exact absurd rfl hkind.1
  | _ => exact hopen

/-- A wait sees nothing. -/
def StaysOpen (seen : Seen) (_ : Int × Bool) : Prop := seen.Open

lemma sendComp_open (hopen : seen.Open) :
    Obeys seeing StaysOpen ((waitSendComp fuel).run sendInline) seen := by
  apply waitSendComp_obeys
  · exact show Call.getSendComp ≠ _ by simp
  · rfl
  · exact fun _ _ _ => hopen

lemma recvComp_open (hopen : seen.Open) :
    Obeys seeing StaysOpen ((waitRecvComp fuel).run sendInline) seen := by
  apply waitRecvComp_obeys
  · exact show Call.getRecvComp ≠ _ by simp
  · rfl
  · exact fun _ _ _ => hopen

lemma pollCq_open (hopen : seen.Open) :
    Obeys seeing StaysOpen ((pollCq fuel).run sendInline) seen := by
  induction fuel with
  | zero => exact Obeys.halt
  | succ fuel ih =>
      refine Obeys.perform_bind (show Call.pollCq ≠ _ by simp) fun ret _ => ?_
      exact Obeys.ite (fun _ => ih) fun _ => Obeys.pure hopen

lemma attemptWait_open (hwait : Obeys seeing StaysOpen (wait.run sendInline) seen)
    (hrest : ∀ sendInline seen, seen.Open → Obeys seeing Seen.Leaves (rest.run sendInline) seen) :
    Obeys seeing Seen.Leaves ((attemptWait label wait rest).run sendInline) seen :=
  Obeys.bind hwait fun _ _ _ hopen =>
    Obeys.ite (fun _ => Or.inl hopen.1) fun _ => hrest _ _ hopen

lemma lastWait_open (hwait : Obeys seeing StaysOpen (wait.run sendInline) seen) :
    Obeys seeing Seen.Leaves ((lastWait label wait).run sendInline) seen :=
  Obeys.bind hwait fun _ _ _ hopen => Or.inl hopen.1

lemma postSend_open (hopen : seen.Open)
    (hrest : ∀ seen, seen.Open → Obeys seeing Seen.Leaves (rest.run sendInline) seen) :
    Obeys seeing Seen.Leaves ((attempt label rdmaPostSend rest).run sendInline) seen :=
  call_open (by simp) ⟨by simp, by simp⟩ _ hopen fun _ seen h => next_open h (hrest seen h)

/-- **The second receive.** -/
lemma postRecv_open (hopen : seen.Open)
    (hrest : ∀ seen, seen.Open → Obeys seeing Seen.Leaves (rest.run sendInline) seen) :
    Obeys seeing Seen.Leaves
      ((attempt .deregSend (call .postRecv) rest).run sendInline) seen := by
  refine Obeys.perform_bind (show Call.postRecv ≠ _ by simp) fun ret _ => ?_
  refine Obeys.ite (fun _ => Or.inr ⟨hopen.2, rfl⟩) fun hret => hrest _ ⟨?_, hopen.2⟩
  show (seen.late || (seen.up && decide (ret ≠ 0))) = false
  rw [hopen.1, decide_eq_false hret, Bool.and_false]
  rfl

lemma serverAccess_open {localMr : Option Mr} {addr : UInt64} {rkey : UInt32} (hopen : seen.Open) :
    Obeys seeing Seen.Leaves ((serverAccess fuel localMr addr rkey).run sendInline) seen := by
  refine call_open (by simp) ⟨by simp, by simp⟩ _ hopen fun _ seen h => next_open h ?_
  refine Obeys.bind (pollCq_open h) fun seen _ _ h => ?_
  refine call_open (by simp) ⟨by simp, by simp⟩ _ h fun _ seen h => ?_
  refine call_open (by simp) ⟨by simp, by simp⟩ _ h fun _ seen h => next_open h ?_
  refine Obeys.bind (pollCq_open h) fun seen _ _ h => ?_
  exact postSend_open h fun seen h => lastWait_open (sendComp_open h)

lemma serverExchange_open (hopen : seen.Open) :
    Obeys seeing Seen.Leaves ((serverExchange fuel).run sendInline) seen := by
  refine attemptWait_open (recvComp_open hopen) fun sendInline seen h => ?_
  refine postSend_open h fun seen h => Obeys.bind (sendComp_open h) fun seen _ _ h => ?_
  refine postRecv_open h fun seen h => ?_
  refine attemptWait_open (recvComp_open h) fun sendInline seen h => ?_
  refine call_open (by simp) ⟨by simp, by simp⟩ _ h fun _ seen h => ?_
  refine call_open (by simp) ⟨by simp, by simp⟩ _ h fun _ seen h => ?_
  refine call_open (by simp) ⟨by simp, by simp⟩ _ h fun _ seen h => ?_
  refine call_open (by simp) ⟨by simp, by simp⟩ _ h fun _ seen h => ?_
  exact serverAccess_open h

lemma clientExchange_open (hopen : seen.Open) :
    Obeys seeing Seen.Leaves ((clientExchange fuel).run sendInline) seen := by
  have hsegfault : ∀ sendInline seen, seen.Open →
      Obeys seeing Seen.Leaves (segfault.run sendInline) seen := fun _ seen h =>
    call_open (by simp) ⟨by simp, by simp⟩ _ h fun _ _ _ => Obeys.halt
  refine postSend_open hopen fun seen h => ?_
  refine attemptWait_open (sendComp_open h) fun sendInline seen h => ?_
  refine Obeys.bind (recvComp_open h) fun seen _ _ h => ?_
  refine call_open (by simp) ⟨by simp, by simp⟩ _ h fun mr seen h => ?_
  cases mr with
  | none => exact hsegfault _ _ h
  | some mr =>
      refine call_open (by simp) ⟨by simp, by simp⟩ _ h fun _ seen h => ?_
      split
      · exact hsegfault _ _ h
      · refine call_open (by simp) ⟨by simp, by simp⟩ _ h fun _ seen h => ?_
        refine postSend_open h fun seen h => ?_
        refine attemptWait_open (sendComp_open h) fun sendInline seen h => ?_
        exact postRecv_open h fun seen h => lastWait_open (recvComp_open h)

/-- A function that leaves. -/
lemma leave_left (hbody : Obeys seeing Seen.Leaves (body.run sendInline) seen) :
    Obeys seeing (fun seen _ => seen.Left) ((leave side body).run sendInline) seen := by
  refine Obeys.bind hbody ?_
  rintro seen ⟨label, ret⟩ sendInline (hlate | ⟨hdown, rfl⟩)
  · refine Obeys.bind (Obeys.of_watch (J := fun seen => seen.late = false) ?_ (goto_calls label)
      hlate) fun seen _ _ h => Obeys.pure fun hlate => absurd (hlate.symm.trans h.1) (by simp)
    intro seen c hlate hc
    cases c with
    | disconnect | destroyEp | destroyListenEp | freeaddrinfo =>
        exact ⟨by simp [seeing], fun _ => hlate⟩
    | deregMr buf => exact ⟨fun h => hc (Call.deregMr.inj h), fun _ => hlate⟩
    | _ => exact hc.elim
  · -- past the connection
    refine Obeys.bind (Obeys.of_watch (J := fun seen => seen.down = false) ?_ outDeregSend_calls
      hdown) fun seen _ _ h => Obeys.pure fun _ => h.1
    rintro seen c hdown ⟨hc, hne⟩
    cases c with
    | disconnect => exact absurd rfl hne
    | destroyEp | destroyListenEp | freeaddrinfo => exact ⟨by simp [seeing], fun _ => hdown⟩
    | deregMr buf => exact ⟨fun h => hc (Call.deregMr.inj h), fun _ => hdown⟩
    | _ => exact hc.elim

lemma nodeRun_left (side : Side) : Obeys seeing (fun seen _ => seen.Left)
    ((nodeRun fuel side).run sendInline) {} := by
  cases side with
  | server => exact leave_left (serverStart_early fun _ _ h => serverExchange_open h)
  | client => exact leave_left (clientStart_early fun _ _ h => clientExchange_open h)

end

/-! ## Together -/

section

variable {side : Side} {sendInline : Bool} {fuel : ℕ} {t : Trace} {x : Int × Bool}

lemma Seen.up_foldl {seen : Seen}
    (h : seen.up = true ∨ (⟨.established, (0 : Int)⟩ : Event Call Reply) ∈ t) :
    (t.foldl Seen.after seen).up = true := by
  induction t generalizing seen with
  | nil => exact h.resolve_right (by simp)
  | cons e t ih =>
      refine ih ?_
      rcases h with hup | hmem
      · left
        obtain ⟨c, reply⟩ := e
        cases c with
        | established => exact (congrArg (· || decide (reply = 0)) hup).trans (Bool.true_or _)
        | _ => exact hup
      · rcases List.mem_cons.mp hmem with rfl | hmem
        · exact Or.inl (Bool.or_true _)
        · exact Or.inr hmem

lemma Seen.late_foldl {seen : Seen} (h : seen.late = true) :
    (t.foldl Seen.after seen).late = true := by
  induction t generalizing seen with
  | nil => exact h
  | cons e t ih =>
      refine ih ?_
      obtain ⟨c, reply⟩ := e
      cases c with
      | postRecv => exact (congrArg (· || _) h).trans (Bool.true_or _)
      | _ => exact h

lemma Seen.down_foldl {seen : Seen} (h : seen.down = true ∨ ∃ e ∈ t, e.1 = .disconnect) :
    (t.foldl Seen.after seen).down = true := by
  induction t generalizing seen with
  | nil => exact h.resolve_right (by simp)
  | cons e t ih =>
      refine ih ?_
      obtain ⟨c, reply⟩ := e
      rcases h with hdown | ⟨e', he', hdisconnect⟩
      · left
        cases c with
        | disconnect => rfl
        | _ => exact hdown
      · rcases List.mem_cons.mp he' with rfl | he'
        · obtain rfl : c = .disconnect := hdisconnect
          exact Or.inl rfl
        · exact Or.inr ⟨e', he', hdisconnect⟩

lemma effect_acquire_connection {e : Event Call Reply} :
    effect e = .acquire .connection ↔ e = ⟨.established, (0 : Int)⟩ := by
  constructor
  · intro h
    obtain ⟨c, reply⟩ := e
    cases c with
    | established =>
        simp only [effect] at h
        split at h
        · rename_i hret
          rw [hret]
        · exact absurd h (by simp)
    | _ =>
        simp only [effect] at h
        first | exact absurd h (by simp) | split at h <;> exact absurd h (by simp)
  · rintro rfl
    simp [effect]

lemma effect_release {e : Event Call Reply} {r : Resource} (h : effect e = .release r) :
    (r = .connection → e.1 = .disconnect) ∧
      (r = .mr .buffLocalSend → e.1 = .deregMr .buffLocalSend) := by
  obtain ⟨c, reply⟩ := e
  cases c with
  | disconnect | destroyEp | destroyListenEp | freeaddrinfo | deregMr _ =>
      obtain rfl := Effect.release.inj h
      simp
  | _ =>
      simp only [effect] at h
      first | exact absurd h (by simp) | split at h <;> exact absurd h (by simp)

/-- Where a receive failed late, the connection is not given up. -/
lemma not_disconnect_of_late (h : Returns ((nodeRun fuel side).run sendInline) t x)
    (hlate : RecvFailsLate t) : ∀ e ∈ t, e.1 ≠ .disconnect := by
  intro e he hdisconnect
  have hobeys : Obeys seeing (fun seen _ => seen.Left) ((nodeRun fuel side).run sendInline) {} :=
    nodeRun_left side
  have hleft : (t.foldl Seen.after {}).Left :=
    (hobeys.steps h (Monitor.countsOn_of_forall fun _ _ _ _ => trivial)).2
  have hdown : (t.foldl Seen.after {}).down = true := Seen.down_foldl (Or.inr ⟨e, he, hdisconnect⟩)
  obtain ⟨t₁, ret, t₂, rfl, hret, hup⟩ := hlate
  have hseen : (t₁.foldl Seen.after {}).up = true := Seen.up_foldl (Or.inr hup)
  refine absurd (hdown.symm.trans (hleft ?_)) (by simp)
  rw [List.foldl_append, List.foldl_cons]
  refine Seen.late_foldl ?_
  show ((t₁.foldl Seen.after {}).late || ((t₁.foldl Seen.after {}).up && decide (ret ≠ 0))) = true
  rw [hseen, decide_eq_true hret, Bool.and_self, Bool.or_true]

lemma nodeRun_kept (side : Side) : Obeys (resourceUse.expecting kept) (fun held _ => held = [])
    ((nodeRun fuel side).run sendInline) [] := by
  cases side with
  | server => exact serverRun_obeys
  | client => exact clientRun_obeys

/-- **What is left behind.**  A side that has returned has released all that it acquired, each
resource before those that it is built on, just if no receive failed late and the region of
`buff_local_send` was not registered.

Where neither happens a side holds at every exit what its label releases (`leave_obeys`, with
`kept` for the replies that it may count on).  The other way round, a run with one of them has
acquired something that no call behind it releases: the connection, or the region of
`buff_local_send`. -/
theorem nodeRun_tidy_iff (h : Returns ((nodeRun fuel side).run sendInline) t x) :
    resourceUse.Tidy t ↔ ¬ RecvFailsLate t ∧ ¬ LocalRegistered t := by
  constructor
  · intro htidy
    refine ⟨fun hlate => ?_, ?_⟩
    · have hacquired : Resource.connection ∈ resourceUse.acquired t := by
        obtain ⟨t₁, ret, t₂, rfl, -, hup⟩ := hlate
        exact Use.mem_acquired.mpr
          ⟨_, List.mem_append_left _ hup, effect_acquire_connection.mpr rfl⟩
      obtain ⟨e, he, heff⟩ := Use.mem_released.mp (htidy.released.mem_iff.mpr hacquired)
      exact not_disconnect_of_late h hlate e he ((effect_release heff).1 rfl)
    · rintro ⟨mr, hmr⟩
      have hacquired : Resource.mr .buffLocalSend ∈ resourceUse.acquired t :=
        Use.mem_acquired.mpr ⟨_, hmr, rfl⟩
      obtain ⟨e, he, heff⟩ := Use.mem_released.mp (htidy.released.mem_iff.mpr hacquired)
      have hobeys : Obeys seeing (fun seen _ => seen.Left)
          ((nodeRun fuel side).run sendInline) {} :=
        nodeRun_left side
      have hallows := (hobeys.steps h (Monitor.countsOn_of_forall fun _ _ _ _ => trivial)).1
      exact hallows.forall (fun _ _ hc => hc) e he ((effect_release heff).2 rfl)
  · rintro ⟨hlate, hlocal⟩
    refine tidy_of_obeys (nodeRun_kept side) h (Monitor.countsOn_of_forall ?_)
    rintro t₁ ⟨c, reply⟩ t₂ rfl
    cases c with
    | postRecv =>
        intro hheld
        by_contra hret
        rcases Use.mem_acquired_of_mem_held hheld with hnone | hacquired
        · exact absurd hnone (by simp)
        · obtain ⟨e, he, heff⟩ := Use.mem_acquired.mp hacquired
          obtain rfl := effect_acquire_connection.mp heff
          exact hlate ⟨t₁, reply, t₂, rfl, hret, he⟩
    | regMr buf =>
        rintro rfl
        by_contra hmr
        obtain ⟨mr, hsome⟩ := Option.ne_none_iff_exists'.mp hmr
        exact hlocal ⟨mr, by rw [← hsome]; simp⟩
    | _ => trivial

/-- A receive could not be posted. -/
def recvFails : Event Call Reply → Bool
  | ⟨.postRecv, ret⟩ => decide (ret ≠ 0)
  | _ => false

/-- The region of `buff_local_send` is registered. -/
def registersLocal : Event Call Reply → Bool
  | ⟨.regMr .buffLocalSend, some _⟩ => true
  | _ => false

/-- Where no verb fails, the client leaves nothing behind, and the server its region. -/
theorem nodeRun_tidy_iff_obliging :
    (∃ t x, Returns ((nodeRun 1 .client).run false) t x ∧ resourceUse.Tidy t) ∧
      ∃ t x, Returns ((nodeRun 1 .server).run false) t x ∧ ¬ resourceUse.Tidy t := by
  constructor
  · obtain ⟨t, x, hrun, htest⟩ := exists_of_play
      (fun (_ : Unit) c => (obliging (fun _ => ⟨0, 0⟩) (fun _ => []) c, ())) ()
      ((nodeRun 1 .client).run false)
      (fun t _ => t.all fun e => !recvFails e && !registersLocal e) (by decide +kernel)
    refine ⟨t, x, hrun, (nodeRun_tidy_iff hrun).mpr ⟨?_, ?_⟩⟩
    · rintro ⟨t₁, ret, t₂, rfl, hret, -⟩
      have hgood := List.all_eq_true.mp htest _ (List.mem_append_right _ List.mem_cons_self)
      simp [recvFails, hret] at hgood
    · rintro ⟨mr, hmr⟩
      have hgood := List.all_eq_true.mp htest _ hmr
      simp [registersLocal] at hgood
  · obtain ⟨t, x, hrun, htest⟩ := exists_of_play
      (fun (_ : Unit) c => (obliging (fun _ => ⟨0, 0⟩) (fun _ => []) c, ())) ()
      ((nodeRun 1 .server).run false) (fun t _ => t.any registersLocal) (by decide +kernel)
    refine ⟨t, x, hrun, fun htidy => ((nodeRun_tidy_iff hrun).mp htidy).2 ?_⟩
    obtain ⟨⟨c, reply⟩, he, hlocal⟩ := List.any_eq_true.mp htest
    cases c with
    | regMr buf =>
        cases buf with
        | buffLocalSend =>
            cases reply with
            | none => exact absurd hlocal (by simp [registersLocal])
            | some mr => exact ⟨mr, he⟩
        | _ => exact absurd hlocal (by simp [registersLocal])
    | _ => exact absurd hlocal (by simp [registersLocal])

end

end RdmaTest
