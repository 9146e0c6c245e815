import RdmaExamples.RdmaFc.Setup

/-!
# Runs of the setup phase

What an observer sees of a run of the setup phase: the rdma_cm events it took (`cmEvents`) and the
slots of `conns` it wrote (`storedSlots`).

Everything below `add_connection` and the counters is quiet: it takes no event, writes no slot and
leaves the roster alone (`Keeps roster Quiet`).  So the events alone decide the roster:
`Roster.after` says what one event does to it, and `waitConnections_returns` and
`waitConnections_canDo` say that the wait loop does this for each event it takes, no more and no
less.  The DC objects are followed on the side: `init_dc_qps` brings them up once, and nothing else
in this phase touches them.

The lemmas about the wait loop come in two kinds.  The ones about `Returns` take a run apart that
ended with `0`, and are equalities: the roster is what the events make it.  The ones about `CanDo`
take the beginning of a run apart, and say that its writes are a prefix of what the events demand;
they are what a statement about every moment of a run needs.

A handler that fails ends the phase with its result, so that its partial effects matter to no
result about a phase that went well, and are visible in the calls of one that did not.
-/

namespace RdmaFc

open MachineWords Programs

/-- A run of the setup phase: the calls and their answers. -/
abbrev Trace := List (Event Verb Reply)

/-- The event a call takes from the channel. -/
def cmEvent? : Event Verb Reply → Option CmEvent
  | ⟨.getCmEvent, r⟩ => if r.1 = 0 then some r.2 else none
  | _ => none

/-- The slot a call writes. -/
def storedSlot? : Event Verb Reply → Option ℕ
  | ⟨.storeConn i, _⟩ => some i
  | _ => none

/-- The rdma_cm events of a run, in order. -/
def cmEvents (t : Trace) : List CmEvent := t.filterMap cmEvent?

/-- The slots of `conns` a run writes, in order. -/
def storedSlots (t : Trace) : List ℕ := t.filterMap storedSlot?

@[simp] lemma cmEvents_append (t t' : Trace) : cmEvents (t ++ t') = cmEvents t ++ cmEvents t' :=
  List.filterMap_append
@[simp] lemma storedSlots_append (t t' : Trace) :
    storedSlots (t ++ t') = storedSlots t ++ storedSlots t' := List.filterMap_append
@[simp] lemma cmEvents_nil : cmEvents [] = [] := rfl
@[simp] lemma storedSlots_nil : storedSlots [] = [] := rfl
@[simp] lemma cmEvents_getCmEvent (r : Int × CmEvent) (t : Trace) :
    cmEvents (⟨.getCmEvent, r⟩ :: t) = if r.1 = 0 then r.2 :: cmEvents t else cmEvents t := by
  by_cases hr : r.1 = 0 <;> simp [cmEvents, cmEvent?, hr]
@[simp] lemma storedSlots_getCmEvent (r : Int × CmEvent) (t : Trace) :
    storedSlots (⟨.getCmEvent, r⟩ :: t) = storedSlots t := rfl
@[simp] lemma cmEvents_ackCmEvent (r : Int) (t : Trace) :
    cmEvents (⟨.ackCmEvent, r⟩ :: t) = cmEvents t := rfl
@[simp] lemma storedSlots_ackCmEvent (r : Int) (t : Trace) :
    storedSlots (⟨.ackCmEvent, r⟩ :: t) = storedSlots t := rfl
@[simp] lemma cmEvents_storeConn (i : ℕ) (r : Unit) (t : Trace) :
    cmEvents (⟨.storeConn i, r⟩ :: t) = cmEvents t := rfl
@[simp] lemma storedSlots_storeConn (i : ℕ) (r : Unit) (t : Trace) :
    storedSlots (⟨.storeConn i, r⟩ :: t) = i :: storedSlots t := rfl

/-- A call that takes no event and writes no slot. -/
def Quiet : Verb → Prop
  | .getCmEvent => False
  | .storeConn _ => False
  | _ => True

/-- A call that is quiet and has nothing to do with a buffer either. -/
def Plain : Verb → Prop
  | .getCmEvent => False
  | .storeConn _ => False
  | .memalign .. => False
  | .postSrqRecv .. => False
  | _ => True

lemma Plain.quiet (v : Verb) (h : Plain v) : Quiet v := by
  cases v <;> trivial

/-- A call that brings up a queue or a queue pair. -/
def QueueCall : Verb → Prop
  | .createCq .. => True
  | .createQp .. => True
  | .queryPort _ => True
  | .createDct .. => True
  | .expCreateQp .. => True
  | .expModifyQp .. => True
  | _ => False

/-- A call that `init_transport` makes. -/
def TransportCall : Verb → Prop
  | .createSrq .. => True
  | .memalign .. => True
  | .regMr .. => True
  | .postSrqRecv .. => True
  | v => QueueCall v

lemma QueueCall.plain (v : Verb) (h : QueueCall v) : Plain v := by
  cases v <;> trivial

lemma QueueCall.transport (v : Verb) (h : QueueCall v) : TransportCall v := by
  cases v <;> trivial

lemma TransportCall.quiet (v : Verb) (h : TransportCall v) : Quiet v := by
  cases v <;> trivial

lemma cmEvents_of_quiet {t : Trace} (h : ∀ e ∈ t, Quiet e.1) : cmEvents t = [] := by
  refine List.filterMap_eq_nil_iff.mpr fun e he => ?_
  obtain ⟨v, r⟩ := e
  cases v <;> first | rfl | exact absurd (h _ he) id

lemma storedSlots_of_quiet {t : Trace} (h : ∀ e ∈ t, Quiet e.1) : storedSlots t = [] := by
  refine List.filterMap_eq_nil_iff.mpr fun e he => ?_
  obtain ⟨v, r⟩ := e
  cases v <;> first | rfl | exact absurd (h _ he) id

/-! ## The parts of the context

The results about the setup phase look at two parts of the context only, the roster of the
connections and the DC objects.  Most functions change neither, and then nothing more has to be
known of them. -/

/-- Who is connected, and what is counted about it. -/
structure Roster where
  ids : ℕ → Handle
  numConns : ℕ
  numEstablished : ℕ
  numDisconnect : ℕ
  numFinRecvd : ℕ

/-- The roster of a context. -/
def TestContext.roster (s : TestContext) : Roster where
  ids i := (s.conns i).rdmaId
  numConns := s.numConns
  numEstablished := s.numEstablished
  numDisconnect := s.numDisconnect
  numFinRecvd := s.numFinRecvd

/-- The DC objects. -/
structure DcPool where
  dct : Option Dct
  dcis : Fin numDci → Option Qp
  dciOutstanding : Fin numDci → ℕ
  freeDciBitmap : BitVec 64

/-- The DC objects of a context. -/
def TestContext.dcPool (s : TestContext) : DcPool where
  dct := s.dct
  dcis := s.dcis
  dciOutstanding := s.dciOutstanding
  freeDciBitmap := s.freeDciBitmap

/-- The context with other DC objects. -/
def TestContext.setPool (s : TestContext) (p : DcPool) : TestContext :=
  { s with
    dct := p.dct
    dcis := p.dcis
    dciOutstanding := p.dciOutstanding
    freeDciBitmap := p.freeDciBitmap }

/-- Both. -/
def TestContext.rosterAndPool (s : TestContext) : Roster × DcPool := (s.roster, s.dcPool)

/-- `init_dc_qps` has run: every DCI is there, idle, and marked free, as are 56 more that are
not. -/
structure DcPool.Ready (p : DcPool) : Prop where
  dct : p.dct.isSome
  dcis : ∀ d, (p.dcis d).isSome
  idle : ∀ d, p.dciOutstanding d = 0
  free : p.freeDciBitmap = BitVec.allOnes 64

/-- Over DC, the DC objects are ready once there is a DCT. -/
def Pooled (o : Options) (s : TestContext) : Prop :=
  o.transport = .dc → s.dct.isSome → s.dcPool.Ready

/-! ## The quiet functions

A quiet function takes no event and adds no connection.  For each it is enough to say which calls
it makes and that it keeps both parts. -/

section Quiet

variable (o : Options) (id : Handle) {Q : Verb → Prop}

lemma initBuffer_keeps {γ : Type} {view : TestContext → γ} (size : ℕ) (buf : TestContext → Buffer)
    (set : Buffer → TestContext → TestContext) (hset : ∀ b s, view (set b s) = view s)
    (hQ : ∀ v, TransportCall v → Q v) : Keeps view Q (initBuffer id size buf set) := by
  refine Keeps.bind Keeps.get fun ctx => Keeps.ite (Keeps.pure _) ?_
  refine Keeps.bind (Keeps.perform (hQ _ trivial)) fun ptr => ?_
  refine Keeps.bind (Keeps.modify (hset _)) fun _ => Keeps.ite (Keeps.pure _) ?_
  refine Keeps.bind (Keeps.perform (hQ _ trivial)) fun mr => ?_
  exact Keeps.bind (Keeps.modify (hset _)) fun _ => Keeps.ite (Keeps.pure _) (Keeps.pure _)

lemma postReceivesFrom_keeps {γ : Type} {view : TestContext → γ} (ptr lkey : ℕ)
    (hQ : ∀ v, TransportCall v → Q v) : ∀ i left, Keeps view Q (postReceivesFrom ptr lkey i left)
  | _, 0 => Keeps.pure _
  | i, left + 1 => by
      refine Keeps.bind Keeps.get fun ctx => ?_
      refine Keeps.bind (Keeps.perform (hQ _ trivial)) fun ret => ?_
      exact Keeps.ite (Keeps.pure _) (postReceivesFrom_keeps ptr lkey hQ (i + 1) left)

lemma postReceives_keeps {γ : Type} {view : TestContext → γ}
    (hset : ∀ n s, view { s with recvAvailable := n } = view s)
    (hQ : ∀ v, TransportCall v → Q v) : Keeps view Q postReceives := by
  refine Keeps.bind Keeps.get fun ctx => ?_
  cases ctx.recvBuf.mr with
  | none => exact Keeps.halt
  | some mr =>
      refine Keeps.bind (postReceivesFrom_keeps _ _ hQ _ _) fun ret => Keeps.ite (Keeps.pure _) ?_
      exact Keeps.bind (Keeps.modify (hset _)) fun _ => Keeps.pure _

lemma createCq_keeps {γ : Type} {view : TestContext → γ}
    (hset : ∀ cq s, view { s with cq := cq } = view s) (hQ : ∀ v, QueueCall v → Q v) :
    Keeps view Q (createCq o id) := by
  refine Keeps.bind Keeps.get fun ctx => Keeps.ite (Keeps.pure _) ?_
  refine Keeps.bind (Keeps.perform (hQ _ trivial)) fun cq => ?_
  exact Keeps.bind (Keeps.modify (hset _)) fun _ => Keeps.ite (Keeps.pure _) (Keeps.pure _)

lemma createSrq_keeps {γ : Type} {view : TestContext → γ}
    (hset : ∀ srq n s, view { s with srq := srq, recvAvailable := n } = view s)
    (hQ : ∀ v, TransportCall v → Q v) : Keeps view Q (createSrq o id) := by
  refine Keeps.bind Keeps.get fun ctx => Keeps.ite (Keeps.pure _) ?_
  refine Keeps.bind (Keeps.perform (hQ _ trivial)) fun srq => ?_
  refine Keeps.bind (Keeps.modify fun s => hset srq s.recvAvailable s) fun _ => ?_
  refine Keeps.ite (Keeps.pure _) ?_
  exact Keeps.bind (Keeps.modify fun s => hset s.srq _ s) fun _ => Keeps.pure _

variable {γ : Type} {view : TestContext → γ} (hpool : ∀ p s, view (s.setPool p) = view s)
  (hQ : ∀ v, QueueCall v → Q v)

include hpool hQ

lemma initDcis_keeps : ∀ is, Keeps view Q (initDcis o id is)
  | [] => by
      refine Keeps.bind (Keeps.modify fun s => ?_) fun _ => Keeps.pure _
      exact hpool { s.dcPool with freeDciBitmap := BitVec.allOnes 64 } s
  | i :: is => by
      refine Keeps.bind Keeps.get fun ctx => Keeps.bind (Keeps.perform (hQ _ trivial)) fun qp => ?_
      refine Keeps.bind (Keeps.modify fun s =>
        hpool { s.dcPool with dcis := Function.update s.dcis i qp } s) fun _ => ?_
      cases qp with
      | none => exact Keeps.pure _
      | some qp =>
          refine Keeps.bind (Keeps.perform (hQ _ trivial)) fun _ => Keeps.ite (Keeps.pure _) ?_
          refine Keeps.bind (Keeps.perform (hQ _ trivial)) fun _ => Keeps.ite (Keeps.pure _) ?_
          refine Keeps.bind (Keeps.perform (hQ _ trivial)) fun _ => Keeps.ite (Keeps.pure _) ?_
          refine Keeps.bind (Keeps.modify fun s => hpool { s.dcPool with
            dciOutstanding := Function.update s.dciOutstanding i 0 } s) fun _ => ?_
          exact initDcis_keeps is

lemma initDcQps_keeps : Keeps view Q (initDcQps o id) := by
  refine Keeps.bind Keeps.get fun ctx => Keeps.ite (Keeps.pure _) ?_
  refine Keeps.bind (Keeps.perform (hQ _ trivial)) fun ⟨ret, port⟩ => Keeps.ite (Keeps.pure _) ?_
  refine Keeps.ite (Keeps.pure _) (Keeps.bind (Keeps.perform (hQ _ trivial)) fun dct => ?_)
  refine Keeps.bind (Keeps.modify fun s => hpool { s.dcPool with dct := dct } s) fun _ => ?_
  exact Keeps.ite (Keeps.pure _) (initDcis_keeps o id hpool hQ _)

lemma createQps_keeps : Keeps view Q (createQps o id) := by
  rw [createQps]
  cases o.transport with
  | rc => exact Keeps.bind Keeps.get fun ctx => Keeps.perform (hQ _ trivial)
  | dc => exact initDcQps_keeps o id hpool hQ

omit hpool hQ

lemma getConnParam_keeps {γ : Type} {view : TestContext → γ} (connIndex : ℕ)
    (hQ : ∀ index, Q (.queryGid id index)) : Keeps view Q (getConnParam o id connIndex) := by
  refine Keeps.bind Keeps.get fun ctx => ?_
  cases ctx.rdmaBuf.mr with
  | none => exact Keeps.halt
  | some mr =>
      dsimp only
      cases o.transport with
      | rc => exact Keeps.pure _
      | dc =>
          dsimp only
          cases ctx.dct with
          | none => exact Keeps.halt
          | some dct =>
              exact Keeps.bind (Keeps.perform (hQ _)) fun ⟨ret, gid⟩ =>
                Keeps.ite (Keeps.pure _) (Keeps.pure _)

end Quiet

/-! ## One event -/

/-- A new connection, in the next slot. -/
def Roster.add (r : Roster) (id : Handle) : Roster :=
  { r with ids := Function.update r.ids r.numConns id, numConns := incr 32 r.numConns }

/-- `++num_established`. -/
def Roster.establish (r : Roster) : Roster :=
  { r with numEstablished := incr 32 r.numEstablished }

/-- The event makes `add_connection` run. -/
def Adds (o : Options) (ev : CmEvent) : Prop :=
  ev.type = .connectRequest ∨ ev.type = .established ∧ o.isClient

instance (o : Options) (ev : CmEvent) : Decidable (Adds o ev) :=
  inferInstanceAs (Decidable (_ ∨ _))

lemma adds_connectRequest {o : Options} {ev : CmEvent} (hty : ev.type = .connectRequest) :
    Adds o ev := Or.inl hty

lemma adds_established {o : Options} {ev : CmEvent} (hty : ev.type = .established)
    (hc : o.isClient) : Adds o ev := Or.inr ⟨hty, hc⟩

/-- What one event does to the roster. -/
def Roster.after (o : Options) (r : Roster) (ev : CmEvent) : Roster :=
  match ev.type with
  | .connectRequest =>
      match o.transport with
      | .rc => r.add ev.id
      | .dc => (r.add ev.id).establish
  | .established => if o.isClient then (r.add ev.id).establish else r.establish
  | .disconnected => { r with numDisconnect := incr 32 r.numDisconnect }
  | _ => r

/-- The slots that are written for a list of events. -/
def slotsFor (o : Options) : Roster → List CmEvent → List ℕ
  | _, [] => []
  | r, ev :: evs => (if Adds o ev then [r.numConns] else []) ++ slotsFor o (r.after o ev) evs

/-- The wait loop takes these events one after the other: none is unexpected, and connections were
missing before each. -/
def Waits (o : Options) (mask : BitVec 64) : Roster → List CmEvent → Prop
  | _, [] => True
  | r, ev :: evs =>
      r.numEstablished < o.numConnections ∧ Admits mask ev.type ∧ Waits o mask (r.after o ev) evs

/-- A program takes no event, writes no slot, and leaves the roster alone. -/
abbrev KeepsRoster {α : Type} (m : Setup α) : Prop := Keeps TestContext.roster Quiet m

/-- The same, with no word on the roster. -/
abbrev KeepsCalls {α : Type} (m : Setup α) : Prop := Keeps (fun _ : TestContext => ()) Quiet m

section Handlers

variable {o : Options} {ev : CmEvent} {s s' : TestContext} {t : Trace}

lemma KeepsRoster.returns {α : Type} {m : Setup α} {a : α} (hm : KeepsRoster m)
    (h : Returns (m.run s) t (a, s')) :
    s'.roster = s.roster ∧ cmEvents t = [] ∧ storedSlots t = [] :=
  ⟨hm.state _ _ _ _ h, cmEvents_of_quiet (hm.calls _ _ h.canDo),
    storedSlots_of_quiet (hm.calls _ _ h.canDo)⟩

lemma KeepsRoster.canDo {α : Type} {m : Setup α} (hm : KeepsRoster m) (h : CanDo (m.run s) t) :
    cmEvents t = [] ∧ storedSlots t = [] :=
  ⟨cmEvents_of_quiet (hm.calls _ _ h), storedSlots_of_quiet (hm.calls _ _ h)⟩

/-- What `init_transport` leaves alone. -/
def TestContext.peers (s : TestContext) : Option Handle × (ℕ → Connection) × Roster :=
  (s.listenCmId, s.conns, s.roster)

lemma initTransport_peers (o : Options) (ev : CmEvent) :
    Keeps TestContext.peers TransportCall (initTransport o ev) := by
  have hall : ∀ v, TransportCall v → TransportCall v := fun _ => id
  refine Keeps.bind (createCq_keeps o _ (fun _ _ => rfl) QueueCall.transport) fun _ =>
    Keeps.ite (Keeps.pure _) ?_
  refine Keeps.bind (createSrq_keeps o _ (fun _ _ _ => rfl) hall) fun _ =>
    Keeps.ite (Keeps.pure _) ?_
  refine Keeps.bind (initBuffer_keeps _ _ _ _ (fun _ _ => rfl) hall) fun _ =>
    Keeps.ite (Keeps.pure _) ?_
  refine Keeps.bind (initBuffer_keeps _ _ _ _ (fun _ _ => rfl) hall) fun _ =>
    Keeps.ite (Keeps.pure _) ?_
  refine Keeps.bind (postReceives_keeps (fun _ _ => rfl) hall) fun _ =>
    Keeps.ite (Keeps.pure _) ?_
  exact createQps_keeps o _ (fun _ _ => rfl) QueueCall.transport

lemma initTransport_keeps (o : Options) (ev : CmEvent) : KeepsRoster (initTransport o ev) :=
  Keeps.weaken (f := fun peers : Option Handle × (ℕ → Connection) × Roster => peers.2.2)
    TransportCall.quiet (initTransport_peers o ev)

/-- A new peer of a connection is neither another connection nor another offset. -/
def KeepsConn (f : Connection → Connection) : Prop :=
  ∀ c, (f c).rdmaId = c.rdmaId ∧ (f c).readOffset = c.readOffset

lemma setConn_rosterAndPool (s : TestContext) (i : ℕ) {f : Connection → Connection}
    (hf : KeepsConn f) : (s.setConn i f).rosterAndPool = s.rosterAndPool := by
  have hids : ∀ j, ((s.setConn i f).conns j).rdmaId = (s.conns j).rdmaId := by
    intro j
    by_cases hj : j = i
    · subst hj
      simp [(hf _).1]
    · simp [hj]
  simp only [TestContext.rosterAndPool, TestContext.roster, hids]
  rfl

lemma setConnParam_keeps {γ : Type} {view : TestContext → γ} {Q : Verb → Prop} (o : Options)
    (i : ℕ) (ev : CmEvent)
    (hset : ∀ f, KeepsConn f → ∀ s : TestContext, view (s.setConn i f) = view s)
    (hQ : ∀ attr, Q (.createAh ev.id attr)) : Keeps view Q (setConnParam o i ev) := by
  refine Keeps.bind (Keeps.modify (hset _ fun _ => ⟨rfl, rfl⟩)) fun _ => ?_
  cases o.transport with
  | rc => exact Keeps.pure _
  | dc =>
      refine Keeps.bind (Keeps.perform (hQ _)) fun ah => ?_
      refine Keeps.bind (Keeps.modify (hset _ fun _ => ⟨rfl, rfl⟩)) fun _ => ?_
      refine Keeps.ite (Keeps.pure _) ?_
      exact Keeps.bind (Keeps.modify (hset _ fun _ => ⟨rfl, rfl⟩)) fun _ => Keeps.pure _

lemma roster_storeId (s : TestContext) (i : ℕ) (id : Handle) :
    (s.setConn i fun c => { c with rdmaId := id }).roster
      = { s.roster with ids := Function.update s.roster.ids i id } := by
  have hids : (fun j => ((s.setConn i fun c => { c with rdmaId := id }).conns j).rdmaId)
      = Function.update s.roster.ids i id := by
    funext j
    by_cases hj : j = i
    · subst hj
      simp
    · simp [hj, TestContext.roster]
  rw [TestContext.roster, hids]
  rfl

/-- What `add_connection` does when it succeeds. -/
theorem addConnection_returns {i : ℕ}
    (h : Returns ((addConnection o ev).run s) t (some i, s')) :
    s'.roster = s.roster.add ev.id ∧ s'.dcPool = s.dcPool ∧ cmEvents t = [] ∧
      storedSlots t = [s.numConns] := by
  simp only [addConnection, run_get_bind, run_perform_bind, run_modify_bind] at h
  obtain ⟨_, t', rfl, h₁⟩ := returns_call.mp h
  obtain ⟨t₁, t₂, ret, s₁, rfl, h₂, h₃⟩ := returns_run_bind.mp h₁
  have hkeep : Keeps TestContext.rosterAndPool Quiet (setConnParam o s.numConns ev) :=
    setConnParam_keeps o s.numConns ev (fun _ hf s => setConn_rosterAndPool s _ hf) fun _ => trivial
  have hview := hkeep.state _ _ _ _ h₂
  have hquiet := hkeep.calls _ _ h₂.canDo
  split at h₃
  · simp at h₃
  · rw [run_modify_bind, returns_run_pure] at h₃
    obtain ⟨rfl, -, rfl⟩ := h₃
    simp only [TestContext.rosterAndPool, Prod.mk.injEq] at hview
    refine ⟨?_, hview.2, ?_, ?_⟩
    · rw [roster_storeId] at hview
      exact congrArg (fun r : Roster => { r with numConns := incr 32 r.numConns }) hview.1
    · simp [cmEvents_of_quiet hquiet]
    · simp [storedSlots_of_quiet hquiet]

theorem addConnection_canDo (h : CanDo ((addConnection o ev).run s) t) :
    cmEvents t = [] ∧ storedSlots t <+: [s.numConns] := by
  simp only [addConnection, run_get_bind, run_perform_bind, run_modify_bind] at h
  rcases canDo_call.mp h with rfl | ⟨_, t', rfl, h₁⟩
  · simp
  · have hrest : KeepsCalls (do
        let ret ← setConnParam o s.numConns ev
        if ret ≠ 0 then return none
        modify fun ctx => { ctx with numConns := incr 32 ctx.numConns }
        return some s.numConns) := by
      refine Keeps.bind (setConnParam_keeps o _ ev (fun _ _ _ => rfl) fun _ => trivial) ?_
      intro ret
      exact Keeps.ite (Keeps.pure _) (Keeps.bind (Keeps.modify fun _ => rfl) fun _ => Keeps.pure _)
    have hquiet := hrest.calls _ _ h₁
    simp [cmEvents_of_quiet hquiet, storedSlots_of_quiet hquiet]

/-! ## The DC objects -/

/-- The loop of `init_dc_qps` brings up the DCIs it is given. -/
lemma initDcis_ready {id : Handle} : ∀ {is : List (Fin numDci)} {s : TestContext} {t : Trace},
    (∀ d ∉ is, (s.dcis d).isSome ∧ s.dciOutstanding d = 0) → s.dct.isSome →
    Returns ((initDcis o id is).run s) t (0, s') → s'.dcPool.Ready
  | [], s, t, hdone, hdct, h => by
      rw [initDcis, run_modify_bind, returns_run_pure] at h
      obtain ⟨-, -, rfl⟩ := h
      exact ⟨hdct, fun d => (hdone d (by simp)).1, fun d => (hdone d (by simp)).2, rfl⟩
  | i :: is, s, t, hdone, hdct, h => by
      rw [initDcis, run_get_bind, returns_run_perform_bind] at h
      obtain ⟨qp, t₁, -, h₁⟩ := h
      rw [run_modify_bind] at h₁
      cases qp with
      | none => simp at h₁
      | some qp =>
          obtain ⟨ret₁, t₂, -, h₂⟩ := returns_run_perform_bind.mp h₁
          rw [returns_run_guard (by decide)] at h₂
          obtain ⟨ret₂, t₃, -, h₃⟩ := returns_run_perform_bind.mp h₂.2
          rw [returns_run_guard (by decide)] at h₃
          obtain ⟨ret₃, t₄, -, h₄⟩ := returns_run_perform_bind.mp h₃.2
          rw [returns_run_guard (by decide), run_modify_bind] at h₄
          refine initDcis_ready ?_ ?_ h₄.2
          · intro d hd
            by_cases hdi : d = i
            · subst hdi
              simp
            · simpa [hdi] using hdone d (by simp [hdi, hd])
          · exact hdct

lemma initDcQps_ready {id : Handle} (hp : s.dct.isSome → s.dcPool.Ready)
    (h : Returns ((initDcQps o id).run s) t (0, s')) : s'.dcPool.Ready := by
  rw [initDcQps, run_get_bind] at h
  split at h
  · rename_i hdct
    obtain ⟨-, -, rfl⟩ := returns_run_pure.mp h
    exact hp hdct
  · obtain ⟨⟨ret, port⟩, t₁, -, h₁⟩ := returns_run_perform_bind.mp h
    dsimp only at h₁
    rw [returns_run_check, returns_run_guard (by decide)] at h₁
    obtain ⟨dct, t₂, -, h₂⟩ := returns_run_perform_bind.mp h₁.2.2
    rw [run_modify_bind, returns_run_guard (by decide)] at h₂
    refine initDcis_ready ?_ ?_ h₂.2
    · intro d hd
      exact absurd (List.mem_finRange d) hd
    · simpa [Option.isSome_iff_ne_none] using h₂.1

/-- `init_transport` over DC, when it succeeds. -/
lemma initTransport_ready (hdc : o.transport = .dc) (hp : s.dct.isSome → s.dcPool.Ready)
    (h : Returns ((initTransport o ev).run s) t (0, s')) : s'.dcPool.Ready := by
  have hstep : ∀ {m : Setup Int} {s₁ s₂ t₁ a}, Keeps TestContext.rosterAndPool Quiet m →
      Returns (m.run s₁) t₁ (a, s₂) → s₂.dcPool = s₁.dcPool := by
    intro m s₁ s₂ t₁ a hm hr
    exact congrArg Prod.snd (hm.state _ _ _ _ hr)
  rw [initTransport] at h
  obtain ⟨t₁, t₂, a, s₁, -, h₁, h₂⟩ := returns_run_bind.mp h
  have hp₁ :=
    hstep (createCq_keeps o _ (fun _ _ => rfl) fun v hv => (QueueCall.plain v hv).quiet) h₁
  rw [returns_run_check] at h₂
  obtain ⟨t₁, t₂, a, s₂, -, h₁, h₃⟩ := returns_run_bind.mp h₂.2
  have hp₂ := hstep (createSrq_keeps o _ (fun _ _ _ => rfl) TransportCall.quiet) h₁
  rw [returns_run_check] at h₃
  obtain ⟨t₁, t₂, a, s₃, -, h₁, h₄⟩ := returns_run_bind.mp h₃.2
  have hp₃ := hstep (initBuffer_keeps _ _ _ _ (by intro _ _; rfl) TransportCall.quiet) h₁
  rw [returns_run_check] at h₄
  obtain ⟨t₁, t₂, a, s₄, -, h₁, h₅⟩ := returns_run_bind.mp h₄.2
  have hp₄ := hstep (initBuffer_keeps _ _ _ _ (by intro _ _; rfl) TransportCall.quiet) h₁
  rw [returns_run_check] at h₅
  obtain ⟨t₁, t₂, a, s₅, -, h₁, h₆⟩ := returns_run_bind.mp h₅.2
  have hp₅ := hstep (postReceives_keeps (fun _ _ => rfl) TransportCall.quiet) h₁
  rw [returns_run_check, createQps, hdc] at h₆
  have hpool : s₅.dcPool = s.dcPool := by rw [hp₅, hp₄, hp₃, hp₂, hp₁]
  refine initDcQps_ready ?_ h₆.2
  intro hdct
  rw [hpool]
  exact hp (by rwa [show s.dct = s₅.dct from (congrArg DcPool.dct hpool).symm])

/-! ## One event, handled

`processEvent` goes to one handler, and where that succeeds it has done to the roster what
`Roster.after` says.  This is where the code and the lists of events meet. -/

/-- The event makes `init_transport` run. -/
def InitsTransport (ev : CmEvent) : Prop :=
  ev.type = .connectRequest ∨ ev.type = .routeResolved

/-- The event `ev` was handled, and everything went well. -/
structure Handled (o : Options) (ev : CmEvent) (s : TestContext) (t : Trace) (s' : TestContext) :
    Prop where
  roster : s'.roster = s.roster.after o ev
  events : cmEvents t = []
  slots : storedSlots t = if Adds o ev then [s.numConns] else []
  ready : InitsTransport ev → o.transport = .dc → Pooled o s → s'.dcPool.Ready
  same : ¬ InitsTransport ev → s'.dcPool = s.dcPool

lemma Pooled.congr (h : s'.dcPool = s.dcPool) (hp : Pooled o s) : Pooled o s' := by
  intro hdc hdct
  rw [h]
  refine hp hdc ?_
  rw [show s.dct = s'.dct from (congrArg DcPool.dct h).symm]
  exact hdct

lemma Handled.pooled (h : Handled o ev s t s') (hp : Pooled o s) : Pooled o s' := by
  intro hdc hdct
  by_cases hev : InitsTransport ev
  · exact h.ready hev hdc hp
  · exact Pooled.congr (h.same hev) hp hdc hdct

lemma Handled.ready_mono (h : Handled o ev s t s') (hdc : o.transport = .dc)
    (hr : s.dcPool.Ready) : s'.dcPool.Ready := by
  by_cases hev : InitsTransport ev
  · exact h.ready hev hdc fun _ _ => hr
  · rwa [h.same hev]

/-- The handling of `ev` has begun. -/
def Begun (o : Options) (ev : CmEvent) (s : TestContext) (t : Trace) : Prop :=
  cmEvents t = [] ∧ storedSlots t <+: if Adds o ev then [s.numConns] else []

lemma KeepsRoster.begun {α : Type} {m : Setup α} (hm : KeepsRoster m) (h : CanDo (m.run s) t) :
    Begun o ev s t := by
  obtain ⟨he, hs⟩ := hm.canDo h
  exact ⟨he, by simp [hs]⟩

lemma countEstablished_returns (h : Returns (countEstablished.run s) t ((), s')) :
    t = [] ∧ s'.roster = s.roster.establish ∧ s'.dcPool = s.dcPool := by
  obtain ⟨rfl, rfl⟩ := returns_run_modify.mp h
  exact ⟨rfl, rfl, rfl⟩

/-- `get_conn_param` fails with the value of the call that failed. -/
lemma getConnParam_error {id : Handle} {i : ℕ} {ret : Int}
    (h : Returns ((getConnParam o id i).run s) t (.error ret, s')) : ret ≠ 0 := by
  rw [getConnParam, run_get_bind] at h
  cases hmr : s.rdmaBuf.mr with
  | none => simp [hmr] at h
  | some mr =>
      simp only [hmr] at h
      cases hx : o.transport with
      | rc => simp [hx] at h
      | dc =>
          simp only [hx] at h
          cases hdct : s.dct with
          | none => simp [hdct] at h
          | some dct =>
              simp only [hdct] at h
              obtain ⟨⟨r, gid⟩, t', -, h₁⟩ := returns_run_perform_bind.mp h
              dsimp only at h₁
              split at h₁
              · rename_i hr
                obtain ⟨-, hret, -⟩ := returns_run_pure.mp h₁
                simp only [Except.error.injEq] at hret
                exact hret ▸ hr
              · simp at h₁

lemma acceptConnection_keeps {γ : Type} {view : TestContext → γ} {Q : Verb → Prop} (o : Options)
    (ev : CmEvent) (i : ℕ) (hset : ∀ n s, view { s with numEstablished := n } = view s)
    (hgid : ∀ index, Q (.queryGid ev.id index)) (haccept : ∀ param, Q (.accept ev.id param)) :
    Keeps view Q (acceptConnection o ev i) := by
  refine Keeps.bind (getConnParam_keeps o _ _ hgid) fun param => ?_
  cases param with
  | error ret => exact Keeps.pure _
  | ok param =>
      refine Keeps.bind (Keeps.perform (haccept _)) fun ret => Keeps.ite (Keeps.pure _) ?_
      cases o.transport with
      | rc => exact Keeps.pure _
      | dc => exact Keeps.bind (Keeps.modify fun s => hset _ s) fun _ => Keeps.pure _

lemma acceptConnection_returns {i : ℕ}
    (h : Returns ((acceptConnection o ev i).run s) t (0, s')) :
    s'.roster = match o.transport with
      | .rc => s.roster
      | .dc => s.roster.establish := by
  rw [acceptConnection] at h
  obtain ⟨t₁, t₂, param, s₁, -, h₁, h₂⟩ := returns_run_bind.mp h
  have hkeeps : Keeps id Plain (getConnParam o ev.id i) :=
    getConnParam_keeps o _ _ fun _ => trivial
  have hs₁ : s₁ = s := hkeeps.state _ _ _ _ h₁
  subst hs₁
  cases param with
  | error ret =>
      obtain ⟨-, hret, -⟩ := returns_run_pure.mp h₂
      exact absurd hret (getConnParam_error h₁)
  | ok param =>
      obtain ⟨ret, t₃, -, h₃⟩ := returns_run_perform_bind.mp h₂
      rw [returns_run_guard (by decide)] at h₃
      cases hx : o.transport with
      | rc =>
          rw [hx] at h₃
          obtain ⟨-, -, rfl⟩ := returns_run_pure.mp h₃.2
          rfl
      | dc =>
          rw [hx] at h₃
          obtain ⟨t₄, t₅, u, s₂, -, h₄, h₅⟩ := returns_run_bind.mp h₃.2
          obtain ⟨-, -, rfl⟩ := returns_run_pure.mp h₅
          exact (countEstablished_returns h₄).2.1

lemma handleConnectRequest_returns (hty : ev.type = .connectRequest)
    (h : Returns ((handleConnectRequest o ev).run s) t (0, s')) : Handled o ev s t s' := by
  rw [handleConnectRequest] at h
  obtain ⟨t₁, t₂, ret, s₁, rfl, h₁, h₂⟩ := returns_run_bind.mp h
  obtain ⟨hr₁, he₁, hs₁⟩ := (initTransport_keeps o ev).returns h₁
  rw [returns_run_check] at h₂
  obtain ⟨rfl, h₃⟩ := h₂
  obtain ⟨t₃, t₄, i, s₂, rfl, h₄, h₅⟩ := returns_run_bind.mp h₃
  cases i with
  | none => simp at h₅
  | some i =>
      obtain ⟨hr₂, hp₂, he₂, hs₂⟩ := addConnection_returns h₄
      have hr₃ := acceptConnection_returns h₅
      have hkeep : Keeps TestContext.dcPool Quiet (acceptConnection o ev i) :=
        acceptConnection_keeps o ev i (fun _ _ => rfl) (fun _ => trivial) fun _ => trivial
      have hp₃ := hkeep.state _ _ _ _ h₅
      have hquiet := hkeep.calls _ _ h₅.canDo
      have hready : o.transport = .dc → Pooled o s → s'.dcPool.Ready := by
        intro hdc hp
        rw [hp₃, hp₂]
        exact initTransport_ready hdc (hp hdc) h₁
      exact {
        roster := by
          simp only [Roster.after, hty]
          rw [hr₃, hr₂, hr₁]
        events := by simp [he₁, he₂, cmEvents_of_quiet hquiet]
        slots := by
          rw [if_pos (adds_connectRequest hty), storedSlots_append, storedSlots_append, hs₁, hs₂,
            storedSlots_of_quiet hquiet, show s₁.numConns = s.numConns from
              congrArg Roster.numConns hr₁]
          rfl
        ready := fun _ => hready
        same := fun hev => absurd (Or.inl hty) hev }

lemma handleConnectRequest_canDo (hty : ev.type = .connectRequest)
    (h : CanDo ((handleConnectRequest o ev).run s) t) : Begun o ev s t := by
  rw [handleConnectRequest] at h
  rcases canDo_run_bind.mp h with h₁ | ⟨t₁, t₂, ret, s₁, rfl, h₁, h₂⟩
  · exact (initTransport_keeps o ev).begun h₁
  · obtain ⟨hr₁, he₁, hs₁⟩ := (initTransport_keeps o ev).returns h₁
    have hn : s₁.numConns = s.numConns := congrArg Roster.numConns hr₁
    split at h₂
    · rw [canDo_run_pure] at h₂
      subst h₂
      simp [Begun, he₁, hs₁]
    · rw [Begun, if_pos (adds_connectRequest hty)]
      rcases canDo_run_bind.mp h₂ with h₃ | ⟨t₃, t₄, i, s₂, rfl, h₃, h₄⟩
      · obtain ⟨he₂, hs₂⟩ := addConnection_canDo h₃
        rw [hn] at hs₂
        simp [he₁, he₂, hs₁, hs₂]
      · obtain ⟨he₂, hs₂⟩ := addConnection_canDo h₃.canDo
        rw [hn] at hs₂
        have hquiet : ∀ e ∈ t₄, Quiet e.1 := by
          cases i with
          | none =>
              rw [canDo_run_pure] at h₄
              simp [h₄]
          | some i =>
              have hkeep : KeepsCalls (acceptConnection o ev i) :=
                acceptConnection_keeps o ev i (fun _ _ => rfl) (fun _ => trivial) fun _ => trivial
              exact hkeep.calls _ _ h₄
        simp [he₁, he₂, hs₁, hs₂, cmEvents_of_quiet hquiet, storedSlots_of_quiet hquiet]

lemma handleEstablished_returns (hty : ev.type = .established)
    (h : Returns ((handleEstablished o ev).run s) t (0, s')) : Handled o ev s t s' := by
  rw [handleEstablished] at h
  by_cases hc : o.isClient
  · rw [if_pos hc] at h
    obtain ⟨t₁, t₂, i, s₁, rfl, h₁, h₂⟩ := returns_run_bind.mp h
    cases i with
    | none => simp at h₂
    | some i =>
        obtain ⟨hr₁, hp₁, he₁, hs₁⟩ := addConnection_returns h₁
        obtain ⟨t₃, t₄, u, s₂, rfl, h₃, h₄⟩ := returns_run_bind.mp h₂
        obtain ⟨rfl, hr₂, hp₂⟩ := countEstablished_returns h₃
        obtain ⟨rfl, -, rfl⟩ := returns_run_pure.mp h₄
        exact {
          roster := by rw [hr₂, hr₁, Roster.after, hty, if_pos hc]
          events := by simp [he₁]
          slots := by simp [hs₁, Adds, hty, hc]
          ready := fun hev => absurd hev (by simp [InitsTransport, hty])
          same := fun _ => hp₂.trans hp₁ }
  · rw [if_neg hc] at h
    obtain ⟨t₃, t₄, u, s₂, rfl, h₃, h₄⟩ := returns_run_bind.mp h
    obtain ⟨rfl, hr₂, hp₂⟩ := countEstablished_returns h₃
    obtain ⟨rfl, -, rfl⟩ := returns_run_pure.mp h₄
    exact {
      roster := by rw [hr₂, Roster.after, hty, if_neg hc]
      events := rfl
      slots := by simp [Adds, hty, hc]
      ready := fun hev => absurd hev (by simp [InitsTransport, hty])
      same := fun _ => hp₂ }

lemma handleEstablished_canDo (hty : ev.type = .established)
    (h : CanDo ((handleEstablished o ev).run s) t) : Begun o ev s t := by
  have hcount : KeepsCalls (do countEstablished; return (0 : Int)) :=
    Keeps.bind (Keeps.modify fun _ => rfl) fun _ => Keeps.pure _
  rw [handleEstablished] at h
  by_cases hc : o.isClient
  · rw [if_pos hc] at h
    rw [Begun, if_pos (adds_established hty hc)]
    rcases canDo_run_bind.mp h with h₁ | ⟨t₁, t₂, i, s₁, rfl, h₁, h₂⟩
    · exact addConnection_canDo h₁
    · obtain ⟨he₁, hs₁⟩ := addConnection_canDo h₁.canDo
      have hquiet : ∀ e ∈ t₂, Quiet e.1 := by
        cases i with
        | none =>
            rw [canDo_run_pure] at h₂
            simp [h₂]
        | some i => exact hcount.calls _ _ h₂
      simp [he₁, hs₁, cmEvents_of_quiet hquiet, storedSlots_of_quiet hquiet]
  · rw [if_neg hc] at h
    have hquiet := hcount.calls _ _ h
    simp [Begun, cmEvents_of_quiet hquiet, storedSlots_of_quiet hquiet]

/-- After `init_transport` the case of `RDMA_CM_EVENT_ROUTE_RESOLVED` leaves the context alone. -/
lemma routeResolved_rest (o : Options) (ev : CmEvent) : Keeps id Plain (do
    match ← getConnParam o ev.id 0 with
    | .error ret => return (ret, false)
    | .ok param => do
        let ret ← verb (.connect ev.id param)
        if ret ≠ 0 then return (-1, false)
        return (0, true)) := by
  refine Keeps.bind (getConnParam_keeps o _ _ fun _ => trivial) fun param => ?_
  cases param with
  | error ret => exact Keeps.pure _
  | ok param =>
      exact Keeps.bind (Keeps.perform trivial) fun ret => Keeps.ite (Keeps.pure _) (Keeps.pure _)

lemma handleRouteResolved_keeps (o : Options) (ev : CmEvent) :
    KeepsRoster (handleRouteResolved o ev) := by
  refine Keeps.bind (initTransport_keeps o ev) fun ret => Keeps.ite (Keeps.pure _) ?_
  exact (routeResolved_rest o ev).weaken (f := TestContext.roster) Plain.quiet

lemma handleRouteResolved_ready
    (h : Returns ((handleRouteResolved o ev).run s) t ((0, true), s')) (hdc : o.transport = .dc)
    (hp : Pooled o s) : s'.dcPool.Ready := by
  rw [handleRouteResolved] at h
  obtain ⟨t₁, t₂, ret, s₁, rfl, h₁, h₂⟩ := returns_run_bind.mp h
  by_cases hret : ret = 0
  · subst hret
    rw [if_neg (by simp)] at h₂
    have hs : s' = s₁ := (routeResolved_rest o ev).state _ _ _ _ h₂
    rw [hs]
    exact initTransport_ready hdc (hp hdc) h₁
  · rw [if_pos hret] at h₂
    obtain ⟨-, hr, -⟩ := returns_run_pure.mp h₂
    exact absurd (congrArg Prod.fst hr) hret

/-- A handler whose event is always acknowledged. -/
lemma returns_run_acked {m : Setup Int} {ret : Int}
    (h : Returns ((do let r ← m; return (r, true)).run s) t ((ret, true), s')) :
    Returns (m.run s) t (ret, s') := by
  obtain ⟨t₁, t₂, r, s₁, rfl, h₁, h₂⟩ := returns_run_bind.mp h
  obtain ⟨rfl, hr, rfl⟩ := returns_run_pure.mp h₂
  obtain rfl : r = ret := congrArg Prod.fst hr
  rwa [List.append_nil]

lemma canDo_run_acked {m : Setup Int} (h : CanDo ((do let r ← m; return (r, true)).run s) t) :
    CanDo (m.run s) t := by
  rcases canDo_run_bind.mp h with h₁ | ⟨t₁, t₂, r, s₁, rfl, h₁, h₂⟩
  · exact h₁
  · rw [canDo_run_pure.mp h₂, List.append_nil]
    exact h₁.canDo

/-- The events that neither add connections nor count anything. -/
lemma processEvent_keeps {γ : Type} {view : TestContext → γ} (hreq : ev.type ≠ .connectRequest)
    (hest : ev.type ≠ .established)
    (hdisc : ev.type ≠ .disconnected) (hroute : ev.type ≠ .routeResolved) :
    Keeps view Plain (processEvent o ev) := by
  rw [processEvent]
  split
  · exact Keeps.bind (Keeps.perform trivial) fun ret => Keeps.pure _
  all_goals first | contradiction | exact Keeps.pure _

lemma after_of_other {r : Roster} (hreq : ev.type ≠ .connectRequest)
    (hest : ev.type ≠ .established) (hdisc : ev.type ≠ .disconnected) : r.after o ev = r := by
  rw [Roster.after]
  split
  all_goals first | contradiction | rfl

theorem processEvent_returns (h : Returns ((processEvent o ev).run s) t ((0, true), s')) :
    Handled o ev s t s' := by
  by_cases hreq : ev.type = .connectRequest
  · rw [processEvent, hreq] at h
    exact handleConnectRequest_returns hreq (returns_run_acked h)
  by_cases hest : ev.type = .established
  · rw [processEvent, hest] at h
    exact handleEstablished_returns hest (returns_run_acked h)
  have hadd : ¬ Adds o ev := by
    rintro (hadd | ⟨hadd, -⟩)
    · exact hreq hadd
    · exact hest hadd
  by_cases hdisc : ev.type = .disconnected
  · rw [processEvent, hdisc] at h
    rw [run_modify_bind, returns_run_pure] at h
    obtain ⟨rfl, -, rfl⟩ := h
    exact {
      roster := by rw [Roster.after, hdisc]; rfl
      events := rfl
      slots := by rw [if_neg hadd]; rfl
      ready := fun hev => absurd hev (by simp [InitsTransport, hdisc])
      same := fun _ => rfl }
  have hafter := after_of_other (o := o) (r := s.roster) hreq hest hdisc
  by_cases hroute : ev.type = .routeResolved
  · rw [processEvent, hroute] at h
    have hkeep := handleRouteResolved_keeps o ev
    have hquiet := hkeep.calls _ _ h.canDo
    exact {
      roster := (hkeep.state _ _ _ _ h).trans hafter.symm
      events := cmEvents_of_quiet hquiet
      slots := by rw [if_neg hadd, storedSlots_of_quiet hquiet]
      ready := fun _ hdc hp => handleRouteResolved_ready h hdc hp
      same := fun hev => absurd (Or.inr hroute) hev }
  · have hkeep : Keeps TestContext.rosterAndPool Quiet (processEvent o ev) :=
      (processEvent_keeps hreq hest hdisc hroute).calls_mono Plain.quiet
    have hview := hkeep.state _ _ _ _ h
    have hquiet := hkeep.calls _ _ h.canDo
    exact {
      roster := (congrArg Prod.fst hview).trans hafter.symm
      events := cmEvents_of_quiet hquiet
      slots := by rw [if_neg hadd, storedSlots_of_quiet hquiet]
      ready := fun hev => absurd hev (by simp [InitsTransport, hreq, hroute])
      same := fun _ => congrArg Prod.snd hview }

theorem processEvent_canDo (h : CanDo ((processEvent o ev).run s) t) : Begun o ev s t := by
  by_cases hreq : ev.type = .connectRequest
  · rw [processEvent, hreq] at h
    exact handleConnectRequest_canDo hreq (canDo_run_acked h)
  by_cases hest : ev.type = .established
  · rw [processEvent, hest] at h
    exact handleEstablished_canDo hest (canDo_run_acked h)
  by_cases hdisc : ev.type = .disconnected
  · rw [processEvent, hdisc, run_modify_bind, canDo_run_pure] at h
    subst h
    simp [Begun]
  by_cases hroute : ev.type = .routeResolved
  · rw [processEvent, hroute] at h
    exact (handleRouteResolved_keeps o ev).begun h
  · have hkeep : KeepsRoster (processEvent o ev) :=
      (processEvent_keeps hreq hest hdisc hroute).calls_mono Plain.quiet
    exact hkeep.begun h

/-- An event that is not acknowledged was not handled well either. -/
lemma processEvent_unacked (h : Returns ((processEvent o ev).run s) t ((0, false), s')) :
    False := by
  have hacked : ∀ {m : Setup Int}, ¬ Returns ((do let r ← m; return (r, true)).run s) t
      ((0, false), s') := by
    intro m hr
    obtain ⟨t₁, t₂, r, s₁, -, h₁, h₂⟩ := returns_run_bind.mp hr
    simp at h₂
  rw [processEvent] at h
  split at h
  · exact hacked h
  · rw [handleRouteResolved] at h
    obtain ⟨t₁, t₂, ret, s₁, -, h₁, h₂⟩ := returns_run_bind.mp h
    rw [returns_run_guard (by simp)] at h₂
    obtain ⟨t₃, t₄, param, s₂, -, h₃, h₄⟩ := returns_run_bind.mp h₂.2
    cases param with
    | error ret =>
        obtain ⟨-, hret, -⟩ := returns_run_pure.mp h₄
        exact getConnParam_error h₃ (congrArg Prod.fst hret)
    | ok param =>
        obtain ⟨ret, t₅, -, h₅⟩ := returns_run_perform_bind.mp h₄
        rw [returns_run_guard (by simp)] at h₅
        simp at h₅
  · exact hacked h
  · exact hacked h
  · rw [run_modify_bind, returns_run_pure] at h
    simp at h
  · simp at h

/-! ## The wait loop

By induction on the fuel, which is the number of events that may be handled.  A run that returns
`0` has handled all its events; a run that is cut off has handled all but perhaps the last one. -/

/-- **All a call of `wait_and_process_one_event` can do**: there is no event, or an unexpected one,
or the event is handled and acknowledged or not. -/
inductive OneEvent (o : Options) (mask : BitVec 64) (s : TestContext) :
    Trace → Int → TestContext → Prop
  | none (r : Int × CmEvent) (hr : r.1 ≠ 0) : OneEvent o mask s [⟨.getCmEvent, r⟩] (-1) s
  | refused (ev : CmEvent) (a : Int) (hadmits : ¬ Admits mask ev.type) :
      OneEvent o mask s [⟨.getCmEvent, (0, ev)⟩, ⟨.ackCmEvent, a⟩] (-1) s
  | unacked (ev : CmEvent) (t : Trace) (ret : Int) (s' : TestContext)
      (hadmits : Admits mask ev.type)
      (h : Returns ((processEvent o ev).run s) t ((ret, false), s')) :
      OneEvent o mask s (⟨.getCmEvent, (0, ev)⟩ :: t) ret s'
  | acked (ev : CmEvent) (t : Trace) (ret a : Int) (s' : TestContext)
      (hadmits : Admits mask ev.type)
      (h : Returns ((processEvent o ev).run s) t ((ret, true), s')) :
      OneEvent o mask s (⟨.getCmEvent, (0, ev)⟩ :: (t ++ [⟨.ackCmEvent, a⟩]))
        (if ret ≠ 0 then ret else a) s'

/-- Every call is one of those. -/
theorem waitAndProcessOneEvent_oneEvent {mask : BitVec 64} {ret : Int}
    (h : Returns ((waitAndProcessOneEvent o mask).run s) t (ret, s')) :
    OneEvent o mask s t ret s' := by
  rw [waitAndProcessOneEvent] at h
  obtain ⟨⟨r, ev⟩, t₁, rfl, h₁⟩ := returns_run_perform_bind.mp h
  dsimp only at h₁
  by_cases hr : r = 0
  · subst hr
    rw [if_neg (by simp)] at h₁
    by_cases hadmits : Admits mask ev.type
    · rw [if_neg (not_not.mpr hadmits)] at h₁
      obtain ⟨t₂, t₃, ⟨ret₂, ack⟩, s₁, rfl, h₂, h₃⟩ := returns_run_bind.mp h₁
      dsimp only at h₃
      cases ack with
      | false =>
          obtain ⟨rfl, rfl, rfl⟩ := returns_run_pure.mp h₃
          rw [List.append_nil]
          exact OneEvent.unacked ev t₂ ret₂ s₁ hadmits h₂
      | true =>
          rw [if_neg (by simp)] at h₃
          obtain ⟨a, t₄, rfl, h₄⟩ := returns_run_perform_bind.mp h₃
          have hcall := OneEvent.acked ev t₂ ret₂ a s₁ hadmits h₂
          split at h₄
          · rename_i hret
            obtain ⟨rfl, rfl, rfl⟩ := returns_run_pure.mp h₄
            rwa [if_pos hret] at hcall
          · rename_i hret
            obtain ⟨rfl, rfl, rfl⟩ := returns_run_pure.mp h₄
            rwa [if_neg hret] at hcall
    · rw [if_pos hadmits] at h₁
      obtain ⟨a, t₂, rfl, h₂⟩ := returns_run_perform_bind.mp h₁
      obtain ⟨rfl, rfl, rfl⟩ := returns_run_pure.mp h₂
      exact OneEvent.refused ev a hadmits
  · rw [if_pos hr] at h₁
    obtain ⟨rfl, rfl, rfl⟩ := returns_run_pure.mp h₁
    exact OneEvent.none (r, ev) hr

/-- **One call of `wait_and_process_one_event`** that returns 0. -/
theorem waitAndProcessOneEvent_returns {mask : BitVec 64}
    (h : Returns ((waitAndProcessOneEvent o mask).run s) t (0, s')) :
    ∃ ev t', cmEvents t = [ev] ∧ storedSlots t = storedSlots t' ∧ Admits mask ev.type ∧
      Handled o ev s t' s' := by
  have hcall := waitAndProcessOneEvent_oneEvent h
  generalize hzero : (0 : Int) = ret at hcall
  cases hcall with
  | none r hr => exact absurd hzero (by decide)
  | refused ev a => exact absurd hzero (by decide)
  | unacked ev t ret s' hadmits h =>
      subst hzero
      exact (processEvent_unacked h).elim
  | acked ev t ret a s' hadmits h =>
      obtain rfl : ret = 0 := by
        by_contra hne
        rw [if_pos hne] at hzero
        exact hne hzero.symm
      have hev := processEvent_returns h
      refine ⟨ev, t, ?_, ?_, hadmits, hev⟩
      · simp [hev.events]
      · simp

theorem waitAndProcessOneEvent_canDo {mask : BitVec 64}
    (h : CanDo ((waitAndProcessOneEvent o mask).run s) t) :
    (cmEvents t).length ≤ 1 ∧ (storedSlots t = [] ∨ ∃ ev, cmEvents t = [ev] ∧
      Admits mask ev.type ∧ Adds o ev ∧ storedSlots t = [s.numConns]) := by
  rw [waitAndProcessOneEvent] at h
  rcases canDo_run_perform_bind.mp h with rfl | ⟨⟨ret, ev⟩, t₁, rfl, h₁⟩
  · simp
  dsimp only at h₁
  by_cases hret : ret = 0
  · subst hret
    rw [if_neg (by simp)] at h₁
    split at h₁
    · rcases canDo_run_perform_bind.mp h₁ with rfl | ⟨_, t₂, rfl, h₂⟩
      · simp
      · rw [canDo_run_pure.mp h₂]
        simp
    · rename_i hadm
      have hrest : Begun o ev s t₁ := by
        rcases canDo_run_bind.mp h₁ with h₂ | ⟨t₂, t₃, ⟨ret, acked⟩, s₁, rfl, h₂, h₃⟩
        · exact processEvent_canDo h₂
        · have hquiet : KeepsCalls (if acked = false then return ret
              else do
                let ack ← verb .ackCmEvent
                if ret ≠ 0 then return ret
                return ack) :=
            Keeps.ite (Keeps.pure _) (Keeps.bind (Keeps.perform trivial) fun ack =>
              Keeps.ite (Keeps.pure _) (Keeps.pure _))
          have hcalls := hquiet.calls _ _ h₃
          have hbegun := processEvent_canDo h₂.canDo
          simpa [Begun, cmEvents_of_quiet hcalls, storedSlots_of_quiet hcalls] using hbegun
      obtain ⟨he, hs⟩ := hrest
      simp only [cmEvents_getCmEvent, if_pos, he, storedSlots_getCmEvent]
      refine ⟨by simp, ?_⟩
      by_cases hadd : Adds o ev
      · rw [if_pos hadd, List.prefix_cons_iff] at hs
        rcases hs with hs | ⟨l, hs, hl⟩
        · exact Or.inl hs
        · rw [List.prefix_nil] at hl
          exact Or.inr ⟨ev, rfl, not_not.mp hadm, hadd, by rw [hs, hl]⟩
      · rw [if_neg hadd, List.prefix_nil] at hs
        exact Or.inl hs
  · rw [if_pos hret, canDo_run_pure] at h₁
    subst h₁
    simp [hret]

/-- **A run of the wait loop** that returns 0 does to the roster what its events say, no more and no
less. -/
theorem waitConnections_returns {mask : BitVec 64} : ∀ {fuel : ℕ} {s : TestContext} {t : Trace},
    Returns ((waitConnections o mask fuel).run s) t (0, s') →
    Waits o mask s.roster (cmEvents t) ∧ storedSlots t = slotsFor o s.roster (cmEvents t) ∧
      s'.roster = (cmEvents t).foldl (Roster.after o) s.roster ∧
      o.numConnections ≤ s'.numEstablished
  | 0, s, t, h => absurd h returns_run_halt
  | fuel + 1, s, t, h => by
      rw [waitConnections, run_get_bind] at h
      split at h
      · rename_i hguard
        obtain ⟨t₁, t₂, ret, s₁, rfl, h₁, h₂⟩ := returns_run_bind.mp h
        rw [returns_run_check] at h₂
        obtain ⟨rfl, h₃⟩ := h₂
        obtain ⟨ev, t', hev, hslots, hadm, hh⟩ := waitAndProcessOneEvent_returns h₁
        obtain ⟨hw, hs, hr, hend⟩ := waitConnections_returns h₃
        rw [hh.roster] at hw hs hr
        refine ⟨?_, ?_, ?_, hend⟩
        · rw [cmEvents_append, hev]
          exact ⟨hguard, hadm, hw⟩
        · rw [cmEvents_append, storedSlots_append, hev, hslots, hh.slots, hs]
          rfl
        · rw [cmEvents_append, hev, hr]
          rfl
      · rename_i hguard
        obtain ⟨rfl, -, rfl⟩ := returns_run_pure.mp h
        exact ⟨trivial, rfl, rfl, not_lt.mp hguard⟩

/-- **The beginning of a run of the wait loop**: some events are handled, the next one may be on the
way. -/
theorem waitConnections_canDo {mask : BitVec 64} : ∀ {fuel : ℕ} {s : TestContext} {t : Trace},
    CanDo ((waitConnections o mask fuel).run s) t →
    ∃ evs rest, cmEvents t = evs ++ rest ∧ Waits o mask s.roster evs ∧
      storedSlots t <+: slotsFor o s.roster evs
  | 0, s, t, h => by
      rw [waitConnections, canDo_run_halt] at h
      subst h
      exact ⟨[], [], rfl, trivial, List.nil_prefix⟩
  | fuel + 1, s, t, h => by
      have hone : ∀ {t}, CanDo ((waitAndProcessOneEvent o mask).run s) t →
          s.numEstablished < o.numConnections →
          ∃ evs rest, cmEvents t = evs ++ rest ∧ Waits o mask s.roster evs ∧
            storedSlots t <+: slotsFor o s.roster evs := by
        intro t h₁ hguard
        obtain ⟨-, hs | ⟨ev, hev, hadm, hadd, hs⟩⟩ := waitAndProcessOneEvent_canDo h₁
        · exact ⟨[], cmEvents t, rfl, trivial, by simp [hs]⟩
        · refine ⟨[ev], [], hev, ⟨hguard, hadm, trivial⟩, ?_⟩
          rw [hs, slotsFor, if_pos hadd]
          exact List.prefix_append _ _
      rw [waitConnections, run_get_bind] at h
      split at h
      · rename_i hguard
        rcases canDo_run_bind.mp h with h₁ | ⟨t₁, t₂, ret, s₁, rfl, h₁, h₂⟩
        · exact hone h₁ hguard
        · split at h₂
          · rw [canDo_run_pure.mp h₂, List.append_nil]
            exact hone h₁.canDo hguard
          · rename_i hret
            rw [not_not.mp hret] at h₁
            obtain ⟨ev, t', hev, hslots, hadm, hh⟩ := waitAndProcessOneEvent_returns h₁
            obtain ⟨evs, rest, he, hw, hs⟩ := waitConnections_canDo h₂
            rw [hh.roster] at hw hs
            refine ⟨ev :: evs, rest, ?_, ⟨hguard, hadm, hw⟩, ?_⟩
            · rw [cmEvents_append, hev, he]
              rfl
            · rw [storedSlots_append, hslots, hh.slots, slotsFor]
              exact (List.prefix_append_right_inj _).mpr hs
      · rw [canDo_run_pure.mp h]
        exact ⟨[], [], rfl, trivial, List.nil_prefix⟩

/-- Once `init_transport` ran over DC, the DC objects are there. -/
theorem waitConnections_ready {mask : BitVec 64} (hdc : o.transport = .dc) :
    ∀ {fuel : ℕ} {s : TestContext} {t : Trace},
    Returns ((waitConnections o mask fuel).run s) t (0, s') → Pooled o s →
    (s.dcPool.Ready ∨ ∃ ev ∈ cmEvents t, InitsTransport ev) → s'.dcPool.Ready
  | 0, s, t, h => absurd h returns_run_halt
  | fuel + 1, s, t, h => by
      intro hp hreq
      rw [waitConnections, run_get_bind] at h
      split at h
      · obtain ⟨t₁, t₂, ret, s₁, rfl, h₁, h₂⟩ := returns_run_bind.mp h
        rw [returns_run_check] at h₂
        obtain ⟨rfl, h₃⟩ := h₂
        obtain ⟨ev, t', hev, -, -, hh⟩ := waitAndProcessOneEvent_returns h₁
        refine waitConnections_ready hdc h₃ (hh.pooled hp) ?_
        rw [cmEvents_append, hev] at hreq
        rcases hreq with hr | ⟨ev', hmem, hty⟩
        · exact Or.inl (hh.ready_mono hdc hr)
        · rcases List.mem_cons.mp hmem with rfl | hmem
          · exact Or.inl (hh.ready hty hdc hp)
          · exact Or.inr ⟨ev', hmem, hty⟩
      · obtain ⟨rfl, -, rfl⟩ := returns_run_pure.mp h
        rcases hreq with hr | ⟨ev, hmem, -⟩
        · exact hr
        · simp at hmem

/-- Where no connection is requested, a server's DC objects stay as they are. -/
theorem waitConnections_same : ∀ {fuel : ℕ} {s : TestContext} {t : Trace},
    Returns ((waitConnections o serverMask fuel).run s) t (0, s') →
    (∀ ev ∈ cmEvents t, ev.type ≠ .connectRequest) → s'.dcPool = s.dcPool
  | 0, s, t, h => absurd h returns_run_halt
  | fuel + 1, s, t, h => by
      intro hreq
      rw [waitConnections, run_get_bind] at h
      split at h
      · obtain ⟨t₁, t₂, ret, s₁, rfl, h₁, h₂⟩ := returns_run_bind.mp h
        rw [returns_run_check] at h₂
        obtain ⟨rfl, h₃⟩ := h₂
        obtain ⟨ev, t', hev, -, hadm, hh⟩ := waitAndProcessOneEvent_returns h₁
        rw [cmEvents_append, hev] at hreq
        have hrest := waitConnections_same h₃ fun ev' hmem => hreq ev' (by simp [hmem])
        rw [hrest]
        refine hh.same ?_
        rintro (hty | hty)
        · exact hreq ev (by simp) hty
        · rw [admits_serverMask, hty] at hadm
          simp at hadm
      · obtain ⟨rfl, -, rfl⟩ := returns_run_pure.mp h
        rfl

end Handlers

/-! ## The whole phase -/

/-- The roster before the first event. -/
def Roster.empty : Roster := TestContext.roster {}

/-- The mask a process waits with. -/
def Options.mask (o : Options) : BitVec 64 := if o.isClient then clientMask else serverMask

lemma slotsFor_raiseQueueLens (o : Options) :
    ∀ r evs, slotsFor o.raiseQueueLens r evs = slotsFor o r evs
  | _, [] => rfl
  | r, ev :: evs => congrArg ((if Adds o ev then [r.numConns] else []) ++ ·)
      (slotsFor_raiseQueueLens o (r.after o ev) evs)

lemma waits_raiseQueueLens (o : Options) (mask : BitVec 64) :
    ∀ r evs, Waits o.raiseQueueLens mask r evs ↔ Waits o mask r evs
  | _, [] => Iff.rfl
  | r, ev :: evs =>
      and_congr Iff.rfl (and_congr Iff.rfl (waits_raiseQueueLens o mask (r.after o ev) evs))

section Whole

variable {o : Options} {s s' : TestContext} {t : Trace}

/-- The calls of `setup` before the wait loop. -/
lemma initTest_keeps {γ : Type} {view : TestContext → γ} (o : Options)
    (hset : ∀ ch s, view { s with eventCh := ch } = view s) : Keeps view Plain (initTest o) := by
  refine Keeps.bind (Keeps.perform trivial) fun ch => Keeps.bind (Keeps.modify (hset ch)) ?_
  intro _
  refine Keeps.ite (Keeps.pure _) (Keeps.bind (Keeps.perform trivial) fun conns => ?_)
  exact Keeps.ite (Keeps.pure _) (Keeps.pure _)

lemma resolveAddrs_keeps {γ : Type} {view : TestContext → γ} (o : Options) : ∀ left,
    Keeps view Plain (resolveAddrs o left)
  | 0 => Keeps.pure _
  | left + 1 => by
      refine Keeps.bind (Keeps.perform trivial) fun ⟨ret, id⟩ => Keeps.ite (Keeps.pure _) ?_
      refine Keeps.bind (Keeps.perform trivial) fun ret => Keeps.ite (Keeps.pure _) ?_
      exact resolveAddrs_keeps o left

/-- `t` is a quiet beginning and then a run of the wait loop, which starts with the roster and the
DC objects of `s`. -/
def WaitsAfter (o : Options) (mask : BitVec 64) (s : TestContext) (t : Trace)
    (P : Setup Int → TestContext → Trace → Prop) : Prop :=
  ∃ fuel t₁ t₂ s₁, t = t₁ ++ t₂ ∧ (∀ e ∈ t₁, Quiet e.1) ∧ s₁.rosterAndPool = s.rosterAndPool ∧
    P (waitConnections o mask fuel) s₁ t₂

/-- `m` is quiet until it comes to the wait loop, and succeeds only through it. -/
structure Reaches (o : Options) (mask : BitVec 64) (m : Setup Int) : Prop where
  canDo : ∀ s t, CanDo (m.run s) t →
    (∀ e ∈ t, Quiet e.1) ∨ WaitsAfter o mask s t fun w s₁ t₁ => CanDo (w.run s₁) t₁
  returns : ∀ s t s', Returns (m.run s) t (0, s') →
    WaitsAfter o mask s t fun w s₁ t₁ => Returns (w.run s₁) t₁ (0, s')

namespace Reaches

variable {mask : BitVec 64}

lemma wait (fuel : ℕ) : Reaches o mask (waitConnections o mask fuel) where
  canDo s t h := Or.inr ⟨fuel, [], t, s, rfl, by simp, rfl, h⟩
  returns s t _ h := ⟨fuel, [], t, s, rfl, by simp, rfl, h⟩

lemma fail {a : Int} (ha : a ≠ 0) : Reaches o mask (pure a) where
  canDo s t h := Or.inl (by simp [canDo_run_pure.mp h])
  returns s t _ h := absurd (returns_run_pure.mp h).2.1 ha

lemma ite {c : Prop} [Decidable c] {m m' : Setup Int} (h : c → Reaches o mask m)
    (h' : Reaches o mask m') : Reaches o mask (if c then m else m') := by
  split
  · rename_i hc
    exact h hc
  · exact h'

lemma waitsAfter_append {P : Setup Int → TestContext → Trace → Prop} {s₁ : TestContext}
    {t₁ t₂ : Trace} (hview : s₁.rosterAndPool = s.rosterAndPool) (hq : ∀ e ∈ t₁, Quiet e.1)
    (h : WaitsAfter o mask s₁ t₂ P) : WaitsAfter o mask s (t₁ ++ t₂) P := by
  obtain ⟨fuel, t₃, t₄, s₂, rfl, hq', hview', hP⟩ := h
  refine ⟨fuel, t₁ ++ t₃, t₄, s₂, by simp, ?_, hview'.trans hview, hP⟩
  intro e he
  rcases List.mem_append.mp he with he | he
  · exact hq e he
  · exact hq' e he

lemma bind {α : Type} {m : Setup α} {f : α → Setup Int}
    (hm : Keeps TestContext.rosterAndPool Quiet m) (hf : ∀ a, Reaches o mask (f a)) :
    Reaches o mask (m >>= f) where
  canDo s t h := by
    rcases canDo_run_bind.mp h with h₁ | ⟨t₁, t₂, a, s₁, rfl, h₁, h₂⟩
    · exact Or.inl (hm.calls _ _ h₁)
    · have hq := hm.calls _ _ h₁.canDo
      rcases (hf a).canDo _ _ h₂ with hq' | hw
      · refine Or.inl fun e he => ?_
        rcases List.mem_append.mp he with he | he
        · exact hq e he
        · exact hq' e he
      · exact Or.inr (waitsAfter_append (hm.state _ _ _ _ h₁) hq hw)
  returns s t s' h := by
    obtain ⟨t₁, t₂, a, s₁, rfl, h₁, h₂⟩ := returns_run_bind.mp h
    exact waitsAfter_append (hm.state _ _ _ _ h₁) (hm.calls _ _ h₁.canDo)
      ((hf a).returns _ _ _ h₂)

end Reaches

/-- The options in force in the wait loop: `run_server` has raised the queue lengths. -/
def Options.inForce (o : Options) : Options := if o.isClient then o else o.raiseQueueLens

lemma serverSetup_reaches (o : Options) (fuel : ℕ) :
    Reaches o serverMask (serverSetup o fuel) := by
  refine Reaches.bind (Keeps.perform trivial) fun ⟨ret, id⟩ => Reaches.ite Reaches.fail ?_
  refine Reaches.bind (Keeps.modify fun _ => rfl) fun _ => ?_
  refine Reaches.bind (Keeps.perform trivial) fun ret => Reaches.ite Reaches.fail ?_
  refine Reaches.bind (Keeps.perform trivial) fun ret => Reaches.ite Reaches.fail ?_
  exact Reaches.wait fuel

lemma clientSetup_reaches (o : Options) (fuel : ℕ) :
    Reaches o clientMask (clientSetup o fuel) := by
  refine Reaches.bind (Keeps.perform trivial) fun found => ?_
  refine Reaches.ite (fun _ => Reaches.fail (by decide)) ?_
  refine Reaches.bind ((resolveAddrs_keeps o _).calls_mono Plain.quiet) fun ret =>
    Reaches.ite Reaches.fail ?_
  exact Reaches.wait fuel

theorem setup_reaches (o : Options) (fuel : ℕ) :
    Reaches o.inForce o.mask (setup o fuel) := by
  refine Reaches.bind ((initTest_keeps o fun _ _ => rfl).calls_mono Plain.quiet) fun ret =>
    Reaches.ite Reaches.fail ?_
  rw [Options.inForce, Options.mask]
  by_cases hc : o.isClient
  · rw [if_pos hc, if_pos hc, if_pos hc]
    exact clientSetup_reaches o fuel
  · rw [if_neg hc, if_neg hc, if_neg hc]
    exact serverSetup_reaches _ fuel

lemma slotsFor_inForce (o : Options) (r : Roster) (evs : List CmEvent) :
    slotsFor o.inForce r evs = slotsFor o r evs := by
  rw [Options.inForce]
  split
  · rfl
  · exact slotsFor_raiseQueueLens o r evs

lemma waits_inForce (o : Options) (mask : BitVec 64) (r : Roster) (evs : List CmEvent) :
    Waits o.inForce mask r evs ↔ Waits o mask r evs := by
  rw [Options.inForce]
  split
  · rfl
  · exact waits_raiseQueueLens o mask r evs

lemma after_inForce (o : Options) : Roster.after o.inForce = Roster.after o := by
  rw [Options.inForce]
  split <;> rfl

lemma inForce_numConnections (o : Options) : o.inForce.numConnections = o.numConnections := by
  rw [Options.inForce]
  split <;> rfl

lemma inForce_transport (o : Options) : o.inForce.transport = o.transport := by
  rw [Options.inForce]
  split <;> rfl

variable {fuel : ℕ}

/-- **A setup phase that returns 0**: the events it took decide the slots it wrote and the roster it
leaves behind. -/
theorem setup_returns (h : Returns ((setup o fuel).run {}) t (0, s')) :
    Waits o o.mask Roster.empty (cmEvents t) ∧
      storedSlots t = slotsFor o Roster.empty (cmEvents t) ∧
      s'.roster = (cmEvents t).foldl (Roster.after o) Roster.empty ∧
      o.numConnections ≤ s'.numEstablished := by
  obtain ⟨fuel', t₁, t₂, s₁, rfl, hq, hview, hr⟩ := (setup_reaches o fuel).returns _ _ _ h
  have hroster : s₁.roster = Roster.empty := congrArg Prod.fst hview
  obtain ⟨hw, hs, hr, hend⟩ := waitConnections_returns hr
  rw [hroster, waits_inForce] at hw
  rw [hroster, slotsFor_inForce] at hs
  rw [hroster, after_inForce] at hr
  rw [inForce_numConnections] at hend
  simp only [cmEvents_append, storedSlots_append, cmEvents_of_quiet hq, storedSlots_of_quiet hq,
    List.nil_append]
  exact ⟨hw, hs, hr, hend⟩

/-- **The beginning of a setup phase.** -/
theorem setup_canDo (h : CanDo ((setup o fuel).run {}) t) :
    ∃ evs rest, cmEvents t = evs ++ rest ∧ Waits o o.mask Roster.empty evs ∧
      storedSlots t <+: slotsFor o Roster.empty evs := by
  rcases (setup_reaches o fuel).canDo _ _ h with hq | ⟨fuel', t₁, t₂, s₁, rfl, hq, hview, hc⟩
  · exact ⟨[], [], cmEvents_of_quiet hq, trivial, by simp [storedSlots_of_quiet hq]⟩
  · have hroster : s₁.roster = Roster.empty := congrArg Prod.fst hview
    obtain ⟨evs, rest, he, hw, hs⟩ := waitConnections_canDo hc
    rw [hroster, waits_inForce] at hw
    rw [hroster, slotsFor_inForce] at hs
    refine ⟨evs, rest, ?_, hw, ?_⟩
    · rw [cmEvents_append, cmEvents_of_quiet hq, he, List.nil_append]
    · rwa [storedSlots_append, storedSlots_of_quiet hq, List.nil_append]

/-- **The DC objects** after a setup phase in which `init_transport` ran. -/
theorem setup_ready (hdc : o.transport = .dc) (h : Returns ((setup o fuel).run {}) t (0, s'))
    (hreq : ∃ ev ∈ cmEvents t, InitsTransport ev) : s'.dcPool.Ready := by
  obtain ⟨fuel', t₁, t₂, s₁, rfl, hq, hview, hr⟩ := (setup_reaches o fuel).returns _ _ _ h
  have hpool : s₁.dcPool = TestContext.dcPool {} := congrArg Prod.snd hview
  refine waitConnections_ready (by rw [inForce_transport, hdc]) hr ?_ (Or.inr ?_)
  · intro _ hdct
    have hnone : s₁.dct = none := congrArg DcPool.dct hpool
    simp [hnone] at hdct
  · simpa [cmEvents_of_quiet hq] using hreq

/-- Without a request a server's DC objects are never brought up. -/
theorem setup_same (hserver : ¬ o.isClient) (h : Returns ((setup o fuel).run {}) t (0, s'))
    (hreq : ∀ ev ∈ cmEvents t, ev.type ≠ .connectRequest) :
    s'.dcPool = TestContext.dcPool {} := by
  obtain ⟨fuel', t₁, t₂, s₁, rfl, hq, hview, hr⟩ := (setup_reaches o fuel).returns _ _ _ h
  rw [Options.mask, if_neg hserver] at hr
  rw [waitConnections_same hr]
  · exact congrArg Prod.snd hview
  · simpa [cmEvents_of_quiet hq] using hreq

end Whole

/-! ## The order of events -/

/-- The connections that events of one type are about, in order. -/
def idsOf (ty : CmEventType) (evs : List CmEvent) : List Handle :=
  (evs.filter fun ev => ev.type = ty).map CmEvent.id

/-- `ev` may come after the events `past`: a request is for a new connection, ESTABLISHED comes
after the connection's own request and DISCONNECTED after its ESTABLISHED, each once. -/
def MayFollow (past : List CmEvent) (ev : CmEvent) : Prop :=
  match ev.type with
  | .connectRequest => ev.id ∉ idsOf .connectRequest past
  | .established => ev.id ∈ idsOf .connectRequest past ∧ ev.id ∉ idsOf .established past
  | .disconnected => ev.id ∈ idsOf .established past ∧ ev.id ∉ idsOf .disconnected past
  | _ => True

/-- An order of events that a server can meet with, after the events `past`. -/
def WellOrdered : List CmEvent → List CmEvent → Prop
  | _, [] => True
  | past, ev :: evs => MayFollow past ev ∧ WellOrdered (past ++ [ev]) evs

instance (past : List CmEvent) (ev : CmEvent) : Decidable (MayFollow past ev) := by
  unfold MayFollow
  split <;> infer_instance

instance decidableWellOrdered : ∀ past evs, Decidable (WellOrdered past evs)
  | _, [] => isTrue trivial
  | past, ev :: evs =>
      haveI := decidableWellOrdered (past ++ [ev]) evs
      inferInstanceAs (Decidable (_ ∧ _))

/-! ## An obliging world

The concrete runs of the setup phase are found by evaluation.  In this world every call succeeds,
and the events come as they are given. -/

/-- A world in which every call succeeds and rdma_cm delivers the events it is given. -/
def obliging : List CmEvent → (v : Verb) → Reply v × List CmEvent
  | evs, .createEventChannel => (some 1, evs)
  | evs, .callocConns _ => (some 1, evs)
  | evs, .gethostbyname _ => (true, evs)
  | evs, .createId _ => ((0, 1), evs)
  | ev :: evs, .getCmEvent => ((0, ev), evs)
  | [], .getCmEvent => ((-1, ⟨.addrError, 0, ⟨0, 0, 0, 0, 0⟩⟩), [])
  | evs, .createCq .. => (some 1, evs)
  | evs, .createSrq .. => (some 1, evs)
  | evs, .memalign .. => (4096, evs)
  | evs, .regMr .. => (some ⟨1, 1, 1⟩, evs)
  | evs, .queryPort _ => ((0, ⟨true, 4⟩), evs)
  | evs, .createDct .. => (some ⟨1, 1⟩, evs)
  | evs, .expCreateQp .. => (some ⟨1, 1⟩, evs)
  | evs, .queryGid .. => ((0, 1), evs)
  | evs, .createAh .. => (some 1, evs)
  | evs, .storeConn _ => ((), evs)
  | evs, .resolveAddr .. => (0, evs)
  | evs, .bindAddr .. => (0, evs)
  | evs, .listen .. => (0, evs)
  | evs, .ackCmEvent => (0, evs)
  | evs, .resolveRoute .. => (0, evs)
  | evs, .connect .. => (0, evs)
  | evs, .accept .. => (0, evs)
  | evs, .postSrqRecv .. => (0, evs)
  | evs, .createQp .. => (0, evs)
  | evs, .expModifyQp .. => (0, evs)

/-- An event about the connection `id`. -/
def eventFor (ty : CmEventType) (id : Handle) : CmEvent :=
  ⟨ty, id, ⟨0, 0, 1, 4096, 0⟩⟩

end RdmaFc
