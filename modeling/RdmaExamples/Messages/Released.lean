import RdmaExamples.Library.Resources
import RdmaExamples.Messages.Connection

/-!
# What a message program holds

Both sides acquire the address, the endpoints, the regions and the connection one after the other,
and each of the verbs may fail.  `heldAt` says what a side holds where it comes to a label; from
there on it releases just that (`goto_obeys`), so that a function releases everything as soon as it
goes to each label with what `heldAt` says (`leave_obeys`).  For the connection that is
`serverStart_obeys` and `clientStart_obeys`; what follows on it is the concern of each program.
-/

namespace Messages

open Programs Monitors Resources

/-! ## The resources -/

/-- What a side acquires. -/
inductive Resource
  | addrinfo
  | listenEp
  | ep
  | mr (buf : Buffer)
  | connection
  deriving DecidableEq

/-- What a call has done to the resources. -/
def effect : Event Call Reply → Effect Resource
  | ⟨.getaddrinfo _, ret⟩ => if ret = 0 then .acquire .addrinfo else .none
  | ⟨.createListenEp, ret⟩ => if ret = 0 then .acquire .listenEp else .none
  | ⟨.getRequest, ret⟩ => if ret = 0 then .acquire .ep else .none
  | ⟨.createEp, caps⟩ => if caps.1 = 0 then .acquire .ep else .none
  | ⟨.regMsgs buf, mr⟩ => if mr = true then .acquire (.mr buf) else .none
  | ⟨.regMr buf, mr⟩ => if mr.isSome = true then .acquire (.mr buf) else .none
  | ⟨.established, ret⟩ => if ret = 0 then .acquire .connection else .none
  | ⟨.disconnect, _⟩ => .release .connection
  | ⟨.deregMr buf, _⟩ => .release (.mr buf)
  | ⟨.destroyEp, _⟩ => .release .ep
  | ⟨.destroyListenEp, _⟩ => .release .listenEp
  | ⟨.freeaddrinfo, _⟩ => .release .addrinfo
  | _ => .none

/-- What a call uses.  A send that is not inline is sent from a registered buffer; an access without
a region of its own uses none. -/
def needs : Call → List Resource
  | .createListenEp => [.addrinfo]
  | .createEp => [.addrinfo]
  | .listen => [.listenEp]
  | .getRequest => [.listenEp]
  | .queryQp => [.ep]
  | .regMsgs _ => [.ep]
  | .regMr _ => [.ep]
  | .postRecv => [.ep, .mr .recvMsg]
  | .accept => [.ep]
  | .connect => [.ep]
  | .established => [.ep]
  | .postSend true => [.ep, .connection]
  | .postSend false => [.ep, .connection, .mr .sendMsg]
  | .getSendComp => [.ep]
  | .getRecvComp => [.ep]
  | .postWrite none _ _ => [.ep, .connection]
  | .postWrite (some _) _ _ => [.ep, .connection, .mr .buffLocalSend]
  | .postRead none _ _ => [.ep, .connection]
  | .postRead (some _) _ _ => [.ep, .connection, .mr .buffLocalSend]
  | .pollCq => [.ep]
  | .disconnect => [.connection]
  | _ => []

/-- Regions and connections are those of an endpoint. -/
def builtOn (q r : Resource) : Prop := r = .ep ∧ (q = .connection ∨ ∃ buf, q = .mr buf)

/-- How the calls concern the resources. -/
def resourceUse : Use Call Reply Resource := ⟨effect, needs, builtOn⟩

/-! ## The labels

From the last label to the first: each one releases its own and goes on with the one below, which
has its lemma already. -/

/-- What a side holds with its endpoint. -/
def epHeld : Side → List Resource
  | .server => [.ep, .listenEp, .addrinfo]
  | .client => [.ep, .addrinfo]

/-- What a side holds with its buffers registered. -/
def buffersHeld (side : Side) (sendInline : Bool) : List Resource :=
  if sendInline = false then .mr .sendMsg :: .mr .recvMsg :: epHeld side
  else .mr .recvMsg :: epHeld side

/-- What a side holds at a label. -/
def heldAt (side : Side) (sendInline : Bool) : Label → List Resource
  | .deregRdmaMr => .mr .rdmaBuff :: .connection :: buffersHeld side sendInline
  | .disconnect => .connection :: buffersHeld side sendInline
  | .deregSend => buffersHeld side sendInline
  | .deregRecv => .mr .recvMsg :: epHeld side
  | .destroyEp => epHeld side
  | .destroyListenEp => [.listenEp, .addrinfo]
  | .freeAddrinfo => [.addrinfo]
  | .out => []

/-- Where a function may leave, with what it holds there. -/
def LeavesAt (side : Side) (held : List Resource) (r : Exit × Bool) : Prop :=
  held = heldAt side r.2 r.1.label

section

variable {side : Side} {sendInline : Bool} {label : Label} {held : List Resource} {fuel : ℕ}
  {expected : List Resource → Event Call Reply → Prop} {body rest : MsgM Exit}

/-- A call that uses one resource. -/
lemma usesOne {r : Resource} (h : r ∈ held) : ∀ q ∈ [r], q ∈ held := by
  intro q hq
  rwa [List.mem_singleton.mp hq]

/-- Nothing is built on a region or on a connection. -/
lemma not_builtOn {r : Resource} (hr : r ≠ .ep) (q : Resource) : ¬ builtOn q r :=
  fun h => hr h.1

lemma outFreeAddrinfo_obeys : Obeys (resourceUse.expecting expected) (fun held _ => held = [])
    (outFreeAddrinfo.run sendInline) [.addrinfo] := by
  refine Obeys.perform ⟨List.forall_mem_nil _, fun reply => ?_⟩ fun _ _ => rfl
  exact ⟨List.mem_singleton_self _, fun q _ => not_builtOn (by simp) q⟩

lemma outDestroyListenEp_obeys : Obeys (resourceUse.expecting expected) (fun held _ => held = [])
    (outDestroyListenEp.run sendInline) [.listenEp, .addrinfo] := by
  refine obeys_release (fun _ => rfl) (List.forall_mem_nil _) ?_ fun _ _ => outFreeAddrinfo_obeys
  exact fun q _ => not_builtOn (by simp) q

lemma outDestroyEp_obeys : Obeys (resourceUse.expecting expected) (fun held _ => held = [])
    ((outDestroyEp side).run sendInline) (epHeld side) := by
  cases side with
  | server =>
      refine obeys_release (fun _ => rfl) (List.forall_mem_nil _) ?_
        fun _ _ => outDestroyListenEp_obeys
      simp [resourceUse, builtOn]
  | client =>
      refine obeys_release (fun _ => rfl) (List.forall_mem_nil _) ?_
        fun _ _ => outFreeAddrinfo_obeys
      simp [resourceUse, builtOn]

lemma outDeregRecv_obeys : Obeys (resourceUse.expecting expected) (fun held _ => held = [])
    ((outDeregRecv side).run sendInline) (.mr .recvMsg :: epHeld side) := by
  refine obeys_release (fun _ => rfl) (List.forall_mem_nil _) ?_ fun _ _ => outDestroyEp_obeys
  exact fun q _ => not_builtOn (by simp) q

lemma outDeregSend_obeys : Obeys (resourceUse.expecting expected) (fun held _ => held = [])
    ((outDeregSend side).run sendInline) (buffersHeld side sendInline) := by
  refine Obeys.get_bind (Obeys.ite (fun hinline => ?_) fun hinline => ?_)
  · rw [buffersHeld, if_pos hinline]
    refine obeys_release (fun _ => rfl) (List.forall_mem_nil _) ?_ fun _ _ => outDeregRecv_obeys
    exact fun q _ => not_builtOn (by simp) q
  · rw [buffersHeld, if_neg hinline]
    exact outDeregRecv_obeys

lemma outDisconnect_obeys : Obeys (resourceUse.expecting expected) (fun held _ => held = [])
    ((outDisconnect side).run sendInline) (.connection :: buffersHeld side sendInline) := by
  refine obeys_release (fun _ => rfl) (usesOne List.mem_cons_self) ?_ fun _ _ => outDeregSend_obeys
  exact fun q _ => not_builtOn (by simp) q

lemma outDeregRdmaMr_obeys : Obeys (resourceUse.expecting expected) (fun held _ => held = [])
    ((outDeregRdmaMr side).run sendInline)
    (.mr .rdmaBuff :: .connection :: buffersHeld side sendInline) := by
  refine obeys_release (fun _ => rfl) (List.forall_mem_nil _) ?_ fun _ _ => outDisconnect_obeys
  exact fun q _ => not_builtOn (by simp) q

/-- **A label releases what is held there**, each resource before those that it is built on.  A
label releases one thing and falls through to the next, so that one lemma for each label is enough,
in the order of the source from the last one on. -/
theorem goto_obeys (label : Label) :
    Obeys (resourceUse.expecting expected) (fun held _ => held = [])
      ((goto side label).run sendInline) (heldAt side sendInline label) := by
  cases label with
  | deregRdmaMr => exact outDeregRdmaMr_obeys
  | disconnect => exact outDisconnect_obeys
  | deregSend => exact outDeregSend_obeys
  | deregRecv => exact outDeregRecv_obeys
  | destroyEp => exact outDestroyEp_obeys
  | destroyListenEp => exact outDestroyListenEp_obeys
  | freeAddrinfo => exact outFreeAddrinfo_obeys
  | out => exact Obeys.pure rfl

/-- A function that leaves with what its label is for. -/
theorem leave_obeys
    (hbody : Obeys (resourceUse.expecting expected) (LeavesAt side) (body.run sendInline) held) :
    Obeys (resourceUse.expecting expected) (fun held _ => held = [])
      ((leave side body).run sendInline) held := by
  refine Obeys.bind hbody ?_
  rintro _ exit sendInline rfl
  refine Obeys.bind (goto_obeys exit.label) ?_
  rintro _ _ _ rfl
  exact Obeys.pure rfl

/-! ## The connection -/

/-- What a side holds when its buffers are registered. -/
lemma mem_buffersHeld {r : Resource} : r ∈ buffersHeld side sendInline ↔
    r ∈ epHeld side ∨ r = .mr .recvMsg ∨ sendInline = false ∧ r = .mr .sendMsg := by
  rw [buffersHeld]
  cases sendInline <;> simp [or_comm, or_assoc]

@[simp] lemma ep_mem_epHeld : Resource.ep ∈ epHeld side := by cases side <;> simp [epHeld]

@[simp] lemma mr_notMem_epHeld {buf : Buffer} : Resource.mr buf ∉ epHeld side := by
  cases side <;> simp [epHeld]

@[simp] lemma connection_notMem_epHeld : Resource.connection ∉ epHeld side := by
  cases side <;> simp [epHeld]

lemma regBuffers_obeys
    (hrest : Obeys (resourceUse.expecting expected) (LeavesAt side) (rest.run sendInline)
      (buffersHeld side sendInline)) :
    Obeys (resourceUse.expecting expected) (LeavesAt side) ((regBuffers rest).run sendInline)
      (epHeld side) := by
  refine obeys_acquire (.mr .recvMsg) (fun mr => mr = true) (fun _ => rfl) ?_ ?_ ?_ ?_
  · exact usesOne (by simp)
  · simp
  · rintro mr - rfl
    refine Obeys.get_bind (Obeys.ite (fun hinline => ?_) fun hinline => ?_)
    · rw [buffersHeld, if_pos hinline] at hrest
      refine obeys_acquire (.mr .sendMsg) (fun mr => mr = true) (fun _ => rfl) ?_ ?_ ?_ ?_
      · exact usesOne (by simp)
      · simp
      · rintro mr - rfl
        exact hrest
      · rintro mr - hmr
        obtain rfl : mr = false := by simpa using hmr
        exact Obeys.pure rfl
    · rw [buffersHeld, if_neg hinline] at hrest
      exact hrest
  · rintro mr - hmr
    obtain rfl : mr = false := by simpa using hmr
    exact Obeys.pure rfl

lemma queryCaps_obeys
    (hrest : ∀ sendInline, Obeys (resourceUse.expecting expected) (LeavesAt side)
      (rest.run sendInline) (epHeld side)) :
    Obeys (resourceUse.expecting expected) (LeavesAt side) ((queryCaps rest).run sendInline)
      (epHeld side) := by
  refine obeys_use (fun _ => rfl) ?_ fun caps _ => ?_
  · exact usesOne (by simp)
  · refine Obeys.ite (fun _ => Obeys.pure rfl) fun _ => ?_
    exact Obeys.modify_bind (hrest _)

lemma postRecv_obeys (hep : Resource.ep ∈ held) (hmr : Resource.mr .recvMsg ∈ held)
    (hfail : ∀ ret : Int, ret ≠ 0 → expected held ⟨.postRecv, ret⟩ →
      heldAt side sendInline label = held)
    (hrest : Obeys (resourceUse.expecting expected) (LeavesAt side) (rest.run sendInline) held) :
    Obeys (resourceUse.expecting expected) (LeavesAt side)
      ((attempt label (call .postRecv) rest).run sendInline) held := by
  refine obeys_use (fun _ => rfl) ?_ fun ret hret => ?_
  · exact List.forall_mem_cons.mpr ⟨hep, usesOne hmr⟩
  · refine Obeys.ite (fun hne => ?_) fun _ => hrest
    exact Obeys.pure (hfail ret hne hret).symm

lemma established_obeys
    (hrest : Obeys (resourceUse.expecting expected) (LeavesAt side) (rest.run sendInline)
      (.connection :: buffersHeld side sendInline)) :
    Obeys (resourceUse.expecting expected) (LeavesAt side)
      ((attempt .deregSend (call .established) rest).run sendInline)
      (buffersHeld side sendInline) := by
  refine obeys_acquire .connection (fun ret => ret = 0) (fun _ => rfl) ?_ ?_ ?_ ?_
  · exact usesOne (by simp [mem_buffersHeld])
  · simp [mem_buffersHeld]
  · exact fun ret _ hret => goesOn hret hrest
  · exact fun ret _ hret => leaves hret rfl

/-- From the buffers on, up to the connection. -/
lemma accept_obeys
    (hrest : Obeys (resourceUse.expecting expected) (LeavesAt side) (rest.run sendInline)
      (.connection :: buffersHeld side sendInline)) :
    Obeys (resourceUse.expecting expected) (LeavesAt side)
      ((attempt .deregSend (call .postRecv) (attempt .deregSend rdmaAccept rest)).run sendInline)
      (buffersHeld side sendInline) := by
  rw [attempt_rdmaAccept]
  refine postRecv_obeys ?_ ?_ (fun _ _ _ => rfl) (obeys_use (fun _ => rfl) ?_ fun ret _ => ?_)
  · simp [mem_buffersHeld]
  · simp [mem_buffersHeld]
  · exact usesOne (by simp [mem_buffersHeld])
  · exact Obeys.ite (fun _ => Obeys.pure rfl) fun _ => established_obeys hrest

/-- From the endpoint to listen at on. -/
lemma listen_obeys
    (hrest : Obeys (resourceUse.expecting expected) (LeavesAt .server) (rest.run sendInline)
      (epHeld .server)) :
    Obeys (resourceUse.expecting expected) (LeavesAt .server)
      ((attempt .destroyListenEp (call .listen)
        (attempt .destroyListenEp (call .getRequest) rest)).run sendInline)
      [.listenEp, .addrinfo] := by
  refine obeys_use (fun _ => rfl) ?_ fun ret _ => ?_
  · exact usesOne (by simp)
  · refine Obeys.ite (fun _ => Obeys.pure rfl) fun _ => ?_
    refine obeys_acquire .ep (fun ret => ret = 0) (fun _ => rfl) ?_ ?_ ?_ ?_
    · exact usesOne (by simp)
    · simp
    · exact fun ret _ hret => goesOn hret hrest
    · exact fun ret _ hret => leaves hret rfl

/-- **The server up to the connection**, which it holds then. -/
theorem serverStart_obeys
    (hrest : ∀ sendInline, Obeys (resourceUse.expecting expected) (LeavesAt .server)
      (rest.run sendInline) (.connection :: buffersHeld .server sendInline)) :
    Obeys (resourceUse.expecting expected) (LeavesAt .server)
      ((serverStart rest).run sendInline) [] := by
  have hlisten : Obeys (resourceUse.expecting expected) (LeavesAt .server)
      ((attempt .destroyListenEp (call .listen) (attempt .destroyListenEp (call .getRequest)
        (queryCaps (regBuffers (attempt .deregSend (call .postRecv)
          (attempt .deregSend rdmaAccept rest)))))).run sendInline) [.listenEp, .addrinfo] :=
    listen_obeys (queryCaps_obeys fun sendInline => regBuffers_obeys (accept_obeys (hrest _)))
  refine obeys_acquire .addrinfo (fun ret => ret = 0) (fun _ => rfl) (List.forall_mem_nil _)
    List.not_mem_nil ?_ ?_
  · intro ret _ hret
    refine goesOn hret (obeys_acquire .listenEp (fun ret => ret = 0) (fun _ => rfl) ?_ ?_ ?_ ?_)
    · exact usesOne (by simp)
    · simp
    · exact fun ret _ hret => goesOn hret hlisten
    · exact fun ret _ hret => leaves hret rfl
  · exact fun ret _ hret => leaves hret rfl

/-- **The client up to the connection**, which it holds then. -/
theorem clientStart_obeys
    (hrest : ∀ sendInline, Obeys (resourceUse.expecting expected) (LeavesAt .client)
      (rest.run sendInline) (.connection :: buffersHeld .client sendInline)) :
    Obeys (resourceUse.expecting expected) (LeavesAt .client)
      ((clientStart rest).run sendInline) [] := by
  refine obeys_acquire .addrinfo (fun ret => ret = 0) (fun _ => rfl) (List.forall_mem_nil _)
    List.not_mem_nil ?_ ?_
  · intro ret _ hret
    refine goesOn hret (obeys_acquire .ep (fun caps => caps.1 = 0) (fun _ => rfl) ?_ ?_ ?_ ?_)
    · exact usesOne (by simp)
    · simp
    · intro caps _ hcaps
      refine Obeys.modify_bind (Obeys.ite (fun hne => absurd hcaps hne) fun _ => ?_)
      refine regBuffers_obeys (postRecv_obeys ?_ ?_ (fun _ _ _ => rfl) ?_)
      · simp [mem_buffersHeld]
      · simp [mem_buffersHeld]
      · rw [attempt_rdmaConnect]
        refine obeys_use (fun _ => rfl) ?_ fun ret _ => ?_
        · exact usesOne (by simp [mem_buffersHeld])
        · exact Obeys.ite (fun _ => Obeys.pure rfl) fun _ => established_obeys (hrest _)
    · intro caps _ hcaps
      refine Obeys.modify_bind (Obeys.ite (fun _ => Obeys.pure rfl) fun heq => absurd heq ?_)
      exact not_not_intro hcaps
  · exact fun ret _ hret => leaves hret rfl

/-! ## The messages -/

/-- A label that a side goes to with its connection. -/
def Label.Connected (label : Label) (side : Side) (sendInline : Bool) : Prop :=
  .connection :: buffersHeld side sendInline ⊆ heldAt side sendInline label

lemma connected_disconnect : Label.Connected .disconnect side sendInline := List.Subset.refl _

lemma connected_deregRdmaMr : Label.Connected .deregRdmaMr side sendInline :=
  List.subset_cons_self _ _

lemma postSend_obeys (hlabel : label.Connected side sendInline)
    (hrest : Obeys (resourceUse.expecting expected) (LeavesAt side) (rest.run sendInline)
      (heldAt side sendInline label)) :
    Obeys (resourceUse.expecting expected) (LeavesAt side)
      ((attempt label rdmaPostSend rest).run sendInline) (heldAt side sendInline label) := by
  refine attempt_obeys (K := fun held r => held = heldAt side sendInline label ∧
    r.2 = sendInline) ?_ ?_ ?_
  · refine Obeys.get_bind (Obeys.perform ⟨fun r hr => hlabel ?_, fun _ => trivial⟩
      fun _ _ => ⟨rfl, rfl⟩)
    revert r
    cases sendInline with
    | false =>
        refine List.forall_mem_cons.mpr ⟨?_, List.forall_mem_cons.mpr ⟨?_, usesOne ?_⟩⟩
        all_goals simp [mem_buffersHeld]
    | true =>
        refine List.forall_mem_cons.mpr ⟨?_, usesOne ?_⟩
        all_goals simp [mem_buffersHeld]
  · rintro _ ret _ - ⟨rfl, rfl⟩
    rfl
  · rintro _ _ ⟨rfl, rfl⟩
    exact hrest

/-- What does not change while a side waits. -/
def Waits (side : Side) (sendInline : Bool) (label : Label) (held : List Resource)
    (r : Int × Bool) : Prop := held = heldAt side sendInline label ∧ r.2 = sendInline

lemma sendComp_obeys (hlabel : label.Connected side sendInline) :
    Obeys (resourceUse.expecting expected) (Waits side sendInline label)
      ((waitSendComp fuel).run sendInline) (heldAt side sendInline label) := by
  apply waitSendComp_obeys
  · exact ⟨usesOne (hlabel (by simp [mem_buffersHeld])), fun _ => trivial⟩
  · rfl
  · exact fun _ _ _ => ⟨rfl, rfl⟩

lemma recvComp_obeys (hlabel : label.Connected side sendInline) :
    Obeys (resourceUse.expecting expected) (Waits side sendInline label)
      ((waitRecvComp fuel).run sendInline) (heldAt side sendInline label) := by
  apply waitRecvComp_obeys
  · exact ⟨usesOne (hlabel (by simp [mem_buffersHeld])), fun _ => trivial⟩
  · rfl
  · exact fun _ _ _ => ⟨rfl, rfl⟩

/-- A wait that is left for a label if it fails. -/
lemma attemptWait_holds {wait : MsgM Int}
    (hwait : Obeys (resourceUse.expecting expected) (Waits side sendInline label)
      (wait.run sendInline) (heldAt side sendInline label))
    (hrest : Obeys (resourceUse.expecting expected) (LeavesAt side) (rest.run sendInline)
      (heldAt side sendInline label)) :
    Obeys (resourceUse.expecting expected) (LeavesAt side)
      ((attemptWait label wait rest).run sendInline) (heldAt side sendInline label) := by
  refine attemptWait_obeys hwait ?_ ?_
  · rintro _ ret _ - ⟨rfl, rfl⟩
    rfl
  · rintro _ ret _ - ⟨rfl, rfl⟩
    exact hrest

/-- The last wait, in front of a label. -/
lemma lastWait_holds {wait : MsgM Int}
    (hwait : Obeys (resourceUse.expecting expected) (Waits side sendInline label)
      (wait.run sendInline) (heldAt side sendInline label)) :
    Obeys (resourceUse.expecting expected) (LeavesAt side)
      ((lastWait label wait).run sendInline) (heldAt side sendInline label) := by
  refine lastWait_obeys hwait ?_
  rintro _ ret _ ⟨rfl, rfl⟩
  rfl

end

end Messages
