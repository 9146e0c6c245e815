import RdmaExamples.RdmaFc.SetupRuns

/-!
# The events that are acknowledged

Every event that `wait_and_process_one_event` takes from the channel is to be acknowledged before it
returns: an event that is not keeps its connection from being destroyed.

Its exits go through one of the two acknowledgements at its end, but for two: behind
`init_transport`, the case of `RDMA_CM_EVENT_ROUTE_RESOLVED` returns at once where `get_conn_param`
or `rdma_connect` fails.  Nothing else loses an event (`eventsAcked_iff`), whatever is delivered,
waited for or fails.

`EventsAcked` is about a sequence of calls of `wait_and_process_one_event`, with any results, masks
and contexts; it asks that as many events were acknowledged as were taken after each call.
`LosesEvent` names the exception: the client's route is resolved, `init_transport` goes well, and
then the parameters are not found or `rdma_connect` fails.
-/

namespace RdmaFc

open Programs

/-- An acknowledgement. -/
def isAck : Event Verb Reply → Bool
  | ⟨.ackCmEvent, _⟩ => true
  | _ => false

/-- How many events a run acknowledges. -/
def acked (t : Trace) : ℕ := t.countP isAck

/-- How many events a run takes from the channel. -/
def obtained (t : Trace) : ℕ := (cmEvents t).length

/-- A call of `wait_and_process_one_event`, with some mask and in some context. -/
def IsCall (o : Options) (t : Trace) : Prop :=
  ∃ mask s ret s', Returns ((waitAndProcessOneEvent o mask).run s) t (ret, s')

/-- Each call acknowledges what it takes, and before and behind each all events are acknowledged. -/
def EventsAcked (ts : List Trace) : Prop :=
  (∀ t ∈ ts, acked t = obtained t) ∧
    ∀ n, acked (ts.take n).flatten = obtained (ts.take n).flatten

/-- A call fails with which a client asks for a connection. -/
def connectFails : Event Verb Reply → Bool
  | ⟨.queryGid .., r⟩ => decide (r.1 ≠ 0)
  | ⟨.connect .., r⟩ => decide (r ≠ 0)
  | _ => false

/-- A route is resolved, and the client fails to ask for the connection. -/
def LosesEvent (t : Trace) : Prop :=
  (∃ ev ∈ cmEvents t, ev.type = .routeResolved) ∧ ∃ e ∈ t, connectFails e = true

/-- A call that has nothing to do with the channel of events. -/
def Inner : Verb → Prop
  | .getCmEvent => False
  | .ackCmEvent => False
  | _ => True

lemma TransportCall.inner (v : Verb) (h : TransportCall v) : Inner v := by
  cases v <;> trivial

lemma connectFails_transport {e : Event Verb Reply} (h : TransportCall e.1) :
    connectFails e = false := by
  obtain ⟨v, r⟩ := e
  cases v <;> first | rfl | exact h.elim

section

variable {o : Options} {ev : CmEvent} {s s' : TestContext} {t t' : Trace} {ret : Int}

lemma acked_append : acked (t ++ t') = acked t + acked t' := List.countP_append

lemma obtained_append : obtained (t ++ t') = obtained t + obtained t' := by
  rw [obtained, cmEvents_append, List.length_append, obtained, obtained]

lemma counts_of_inner (h : ∀ e ∈ t, Inner e.1) : acked t = 0 ∧ cmEvents t = [] := by
  constructor
  · refine List.countP_eq_zero.mpr fun e he => ?_
    have hinner := h e he
    obtain ⟨v, r⟩ := e
    cases v <;> first | exact Bool.false_ne_true | exact hinner.elim
  · refine List.filterMap_eq_nil_iff.mpr fun e he => ?_
    have hinner := h e he
    obtain ⟨v, r⟩ := e
    cases v <;> first | rfl | exact hinner.elim

/-! ## The handlers -/

/-- What no handler changes. -/
def TestContext.fixed (s : TestContext) : Option Handle × (ℕ → ℕ) :=
  (s.listenCmId, fun i => (s.conns i).readOffset)

lemma setConn_fixed (s : TestContext) (i : ℕ) {f : Connection → Connection}
    (hf : ∀ c, (f c).readOffset = c.readOffset) : (s.setConn i f).fixed = s.fixed := by
  refine Prod.ext rfl (funext fun j => ?_)
  by_cases hj : j = i
  · subst hj
    simp [TestContext.fixed, hf]
  · simp [TestContext.fixed, hj]

lemma addConnection_inner : Keeps TestContext.fixed Inner (addConnection o ev) := by
  refine Keeps.bind Keeps.get fun ctx => Keeps.bind (Keeps.perform trivial) fun _ => ?_
  refine Keeps.bind (Keeps.modify fun s => setConn_fixed s _ fun _ => rfl) fun _ => ?_
  refine Keeps.bind (setConnParam_keeps o _ ev
    (fun f hf s => setConn_fixed s _ fun c => (hf c).2) fun _ => trivial) fun ret => ?_
  exact Keeps.ite (Keeps.pure _) (Keeps.bind (Keeps.modify fun _ => rfl) fun _ => Keeps.pure _)

lemma initTransport_inner : Keeps TestContext.fixed Inner (initTransport o ev) :=
  Keeps.weaken (f := fun peers : Option Handle × (ℕ → Connection) × Roster =>
    (peers.1, fun i => (peers.2.1 i).readOffset)) TransportCall.inner (initTransport_peers o ev)

lemma handleConnectRequest_inner : Keeps TestContext.fixed Inner (handleConnectRequest o ev) := by
  refine Keeps.bind initTransport_inner fun ret => Keeps.ite (Keeps.pure _) ?_
  refine Keeps.bind addConnection_inner fun i => ?_
  cases i with
  | none => exact Keeps.pure _
  | some i =>
      exact acceptConnection_keeps o ev i (fun _ _ => rfl) (fun _ => trivial) fun _ => trivial

lemma handleEstablished_inner : Keeps TestContext.fixed Inner (handleEstablished o ev) := by
  have hcount : Keeps TestContext.fixed Inner (do countEstablished; return (0 : Int)) :=
    Keeps.bind (Keeps.modify fun _ => rfl) fun _ => Keeps.pure _
  refine Keeps.ite (Keeps.bind addConnection_inner fun i => ?_) hcount
  cases i with
  | none => exact Keeps.pure _
  | some i => exact hcount

lemma handleRouteResolved_inner : Keeps TestContext.fixed Inner (handleRouteResolved o ev) := by
  refine Keeps.bind initTransport_inner fun ret => Keeps.ite (Keeps.pure _) ?_
  refine Keeps.bind (getConnParam_keeps o _ _ fun _ => trivial) fun param => ?_
  cases param with
  | error ret => exact Keeps.pure _
  | ok param =>
      exact Keeps.bind (Keeps.perform trivial) fun ret => Keeps.ite (Keeps.pure _) (Keeps.pure _)

/-- No handler takes or acknowledges an event. -/
theorem processEvent_inner : Keeps TestContext.fixed Inner (processEvent o ev) := by
  rw [processEvent]
  split
  · exact Keeps.bind (Keeps.perform trivial) fun ret => Keeps.pure _
  · exact handleRouteResolved_inner
  · exact Keeps.bind handleConnectRequest_inner fun ret => Keeps.pure _
  · exact Keeps.bind handleEstablished_inner fun ret => Keeps.pure _
  · exact Keeps.bind (Keeps.modify fun _ => rfl) fun _ => Keeps.pure _
  · exact Keeps.pure _

lemma waitConnections_fixed (o : Options) (mask : BitVec 64) : ∀ fuel,
    Keeps TestContext.fixed (fun _ => True) (waitConnections o mask fuel)
  | 0 => Keeps.halt
  | fuel + 1 => by
      refine Keeps.bind Keeps.get fun s => Keeps.ite ?_ (Keeps.pure _)
      refine Keeps.bind ?_ fun ret => Keeps.ite (Keeps.pure _) (waitConnections_fixed o mask fuel)
      refine Keeps.bind (Keeps.perform trivial) fun r => Keeps.ite (Keeps.pure _) ?_
      refine Keeps.ite (Keeps.bind (Keeps.perform trivial) fun _ => Keeps.pure _) ?_
      refine Keeps.bind (processEvent_inner.calls_mono fun _ _ => trivial) fun res => ?_
      refine Keeps.ite (Keeps.pure _) (Keeps.bind (Keeps.perform trivial) fun ack => ?_)
      exact Keeps.ite (Keeps.pure _) (Keeps.pure _)

lemma clientSetup_fixed (o : Options) (fuel : ℕ) :
    Keeps TestContext.fixed (fun _ => True) (clientSetup o fuel) := by
  refine Keeps.bind (Keeps.perform trivial) fun found => Keeps.ite (Keeps.pure _) ?_
  refine Keeps.bind ((resolveAddrs_keeps o _).calls_mono fun _ _ => trivial) fun ret => ?_
  exact Keeps.ite (Keeps.pure _) (waitConnections_fixed o _ _)

/-- `get_conn_param` fails just where its query does. -/
lemma getConnParam_fails {id : Handle} {i : ℕ} {res : Except Int ConnParam}
    (h : Returns ((getConnParam o id i).run s) t (res, s')) :
    (∃ e ∈ t, connectFails e = true) ↔ ∃ ret, res = .error ret := by
  rw [getConnParam, run_get_bind] at h
  cases hmr : s.rdmaBuf.mr with
  | none => simp [hmr] at h
  | some mr =>
      simp only [hmr] at h
      cases hx : o.transport with
      | rc =>
          simp only [hx] at h
          obtain ⟨rfl, rfl, -⟩ := returns_run_pure.mp h
          simp
      | dc =>
          simp only [hx] at h
          cases hdct : s.dct with
          | none => simp [hdct] at h
          | some dct =>
              simp only [hdct] at h
              obtain ⟨⟨r, gid⟩, t', rfl, h₁⟩ := returns_run_perform_bind.mp h
              dsimp only at h₁
              split at h₁
              · rename_i hr
                obtain ⟨rfl, rfl, -⟩ := returns_run_pure.mp h₁
                simp [connectFails, hr]
              · rename_i hr
                obtain ⟨rfl, rfl, -⟩ := returns_run_pure.mp h₁
                simp [connectFails, not_not.mp hr]

/-- The case of `RDMA_CM_EVENT_ROUTE_RESOLVED` loses its event just where the connection cannot be
asked for. -/
lemma handleRouteResolved_loses {ack : Bool}
    (h : Returns ((handleRouteResolved o ev).run s) t ((ret, ack), s')) :
    ack = false ↔ ∃ e ∈ t, connectFails e = true := by
  obtain ⟨t₁, t₂, r₁, s₁, rfl, h₁, h₂⟩ := returns_run_bind.mp h
  have hquiet : ∀ e ∈ t₁, connectFails e = false :=
    fun e he => connectFails_transport ((initTransport_peers o ev).calls _ _ h₁.canDo e he)
  have hrest : (∃ e ∈ t₁ ++ t₂, connectFails e = true) ↔ ∃ e ∈ t₂, connectFails e = true := by
    constructor
    · rintro ⟨e, he, hfails⟩
      rcases List.mem_append.mp he with he | he
      · rw [hquiet e he] at hfails
        exact absurd hfails (by decide)
      · exact ⟨e, he, hfails⟩
    · rintro ⟨e, he, hfails⟩
      exact ⟨e, List.mem_append_right _ he, hfails⟩
  rw [hrest]
  split at h₂
  · obtain ⟨rfl, heq, -⟩ := returns_run_pure.mp h₂
    obtain ⟨-, rfl⟩ := Prod.mk.inj heq
    simp
  · obtain ⟨t₂, t₃, param, s₂, rfl, h₃, h₄⟩ := returns_run_bind.mp h₂
    have hparam := getConnParam_fails h₃
    cases param with
    | error r₂ =>
        obtain ⟨rfl, heq, -⟩ := returns_run_pure.mp h₄
        obtain ⟨-, rfl⟩ := Prod.mk.inj heq
        rw [List.append_nil]
        exact iff_of_true rfl (hparam.mpr ⟨r₂, rfl⟩)
    | ok param =>
        have hnone : ¬ ∃ e ∈ t₂, connectFails e = true := by
          rw [hparam]
          simp
        obtain ⟨r₂, t₄, rfl, h₅⟩ := returns_run_perform_bind.mp h₄
        split at h₅
        · rename_i hne
          obtain ⟨rfl, heq, -⟩ := returns_run_pure.mp h₅
          obtain ⟨-, rfl⟩ := Prod.mk.inj heq
          exact iff_of_true rfl ⟨⟨.connect ev.id param, r₂⟩, by simp, by simp [connectFails, hne]⟩
        · rename_i hzero
          obtain ⟨rfl, heq, -⟩ := returns_run_pure.mp h₅
          obtain ⟨-, rfl⟩ := Prod.mk.inj heq
          refine iff_of_false (by decide) ?_
          rintro ⟨e, he, hfails⟩
          rcases List.mem_append.mp he with he | he
          · exact hnone ⟨e, he, hfails⟩
          · rw [List.mem_singleton.mp he] at hfails
            simp [connectFails, not_not.mp hzero] at hfails

/-- A handler whose event is always acknowledged. -/
lemma ack_of_acked {m : Setup Int} {ack : Bool}
    (h : Returns ((do let r ← m; return (r, true)).run s) t ((ret, ack), s')) : ack = true := by
  obtain ⟨t₁, t₂, r, s₁, rfl, h₁, h₂⟩ := returns_run_bind.mp h
  obtain ⟨-, heq, -⟩ := returns_run_pure.mp h₂
  exact (Prod.mk.inj heq).2.symm

/-- **When the event is lost.** -/
theorem processEvent_loses {ack : Bool}
    (h : Returns ((processEvent o ev).run s) t ((ret, ack), s')) :
    ack = false ↔ ev.type = .routeResolved ∧ ∃ e ∈ t, connectFails e = true := by
  by_cases hroute : ev.type = .routeResolved
  · rw [processEvent, hroute] at h
    rw [handleRouteResolved_loses h]
    simp [hroute]
  · refine iff_of_false ?_ fun hloses => hroute hloses.1
    rw [Bool.not_eq_false]
    rw [processEvent] at h
    split at h
    · exact ack_of_acked h
    · rename_i hty
      exact absurd hty hroute
    · exact ack_of_acked h
    · exact ack_of_acked h
    · rw [run_modify_bind] at h
      obtain ⟨-, heq, -⟩ := returns_run_pure.mp h
      exact (Prod.mk.inj heq).2.symm
    · obtain ⟨-, heq, -⟩ := returns_run_pure.mp h
      exact (Prod.mk.inj heq).2.symm

/-! ## One call

Of the ways through `wait_and_process_one_event` two return without an acknowledgement: the one on
which no event was taken, and the one on which the handler of a resolved route fails. -/

/-- A call that takes an event, handles it and acknowledges it `u.length` times. -/
lemma handled_acked {ack : Bool} {u : Trace}
    (h : Returns ((processEvent o ev).run s) t ((ret, ack), s'))
    (hu : ∀ e ∈ u, isAck e = true ∧ connectFails e = false ∧ cmEvent? e = none) :
    obtained (⟨.getCmEvent, (0, ev)⟩ :: (t ++ u)) = 1 ∧
      acked (⟨.getCmEvent, (0, ev)⟩ :: (t ++ u)) = u.length ∧
      (LosesEvent (⟨.getCmEvent, (0, ev)⟩ :: (t ++ u)) ↔ ack = false) := by
  obtain ⟨hnone, hevents⟩ := counts_of_inner (processEvent_inner.calls _ _ h.canDo)
  have hall : cmEvents (⟨.getCmEvent, (0, ev)⟩ :: (t ++ u)) = [ev] := by
    have hrest : cmEvents u = [] := List.filterMap_eq_nil_iff.mpr fun e he => (hu e he).2.2
    rw [cmEvents_getCmEvent, if_pos rfl, cmEvents_append, hevents, hrest]
    rfl
  refine ⟨by rw [obtained, hall]; rfl, ?_, ?_⟩
  · rw [acked, List.countP_cons_of_neg (by simp [isAck]), ← acked, acked_append, hnone, acked,
      List.countP_eq_length.mpr fun e he => (hu e he).1, Nat.zero_add]
  · rw [processEvent_loses h, LosesEvent, hall]
    constructor
    · rintro ⟨⟨ev', hev, htype⟩, e, he, hfails⟩
      rw [List.mem_singleton] at hev
      refine ⟨hev ▸ htype, e, ?_, hfails⟩
      rcases List.mem_cons.mp he with rfl | he
      · simp [connectFails] at hfails
      · rcases List.mem_append.mp he with he | he
        · exact he
        · rw [(hu e he).2.1] at hfails
          exact absurd hfails (by decide)
    · rintro ⟨htype, e, he, hfails⟩
      exact ⟨⟨ev, List.mem_singleton_self ev, htype⟩, e, by simp [he], hfails⟩

/-- **One call** acknowledges what it takes, unless it loses it. -/
theorem waitAndProcessOneEvent_acked {mask : BitVec 64}
    (h : Returns ((waitAndProcessOneEvent o mask).run s) t (ret, s')) :
    acked t = obtained t ↔ ¬ LosesEvent t := by
  cases waitAndProcessOneEvent_oneEvent h with
  | none r hr =>
      have hnone : cmEvents [(⟨.getCmEvent, r⟩ : Event Verb Reply)] = [] := by
        rw [cmEvents_getCmEvent, if_neg hr, cmEvents_nil]
      rw [obtained, LosesEvent, hnone]
      simp [acked, isAck]
  | refused ev a hadmits =>
      refine iff_of_true rfl ?_
      rintro ⟨-, e, he, hfails⟩
      simp only [List.mem_cons, List.not_mem_nil, or_false] at he
      rcases he with rfl | rfl <;> simp [connectFails] at hfails
  | unacked ev t ret s' hadmits h =>
      obtain ⟨hobtained, hacked, hloses⟩ := handled_acked (u := []) h (by simp)
      rw [List.append_nil] at hobtained hacked hloses
      rw [hobtained, hacked, hloses]
      simp
  | acked ev t ret a s' hadmits h =>
      obtain ⟨hobtained, hacked, hloses⟩ := handled_acked (u := [⟨.ackCmEvent, a⟩]) h
        (List.forall_mem_singleton.mpr ⟨rfl, rfl, rfl⟩)
      rw [hobtained, hacked, hloses]
      simp

/-! ## Any number of calls -/

lemma balance_flatten {ts : List Trace} (h : ∀ t ∈ ts, acked t = obtained t) :
    acked ts.flatten = obtained ts.flatten := by
  induction ts with
  | nil => rfl
  | cons t ts ih =>
      obtain ⟨ht, hrest⟩ := List.forall_mem_cons.mp h
      rw [List.flatten_cons, acked_append, obtained_append, ht, ih hrest]

/-- **All events are acknowledged**, before and behind each of any number of calls, just where none
of the calls fails to ask for a connection.

An event is taken in one place and acknowledged in two, and between them a call goes through one
handler, which does neither (`processEvent_inner`).  So the balance of a call is decided by the way
it takes: every way but one comes to an acknowledgement (`waitAndProcessOneEvent_acked`).  A
sequence of calls is balanced after each of them just if each of them is. -/
theorem eventsAcked_iff {ts : List Trace} (hcalls : ∀ t ∈ ts, IsCall o t) :
    EventsAcked ts ↔ ∀ t ∈ ts, ¬ LosesEvent t := by
  have hcall : ∀ t ∈ ts, (acked t = obtained t ↔ ¬ LosesEvent t) := by
    intro t ht
    obtain ⟨mask, s, ret, s', h⟩ := hcalls t ht
    exact waitAndProcessOneEvent_acked h
  constructor
  · intro hacked t ht
    exact (hcall t ht).mp (hacked.1 t ht)
  · intro hkept
    have hbalance : ∀ t ∈ ts, acked t = obtained t := fun t ht => (hcall t ht).mpr (hkept t ht)
    exact ⟨hbalance, fun n => balance_flatten fun t ht => hbalance t (List.mem_of_mem_take ht)⟩

end

/-! ## A client whose route is resolved -/

/-- A world that delivers one event about a route, and in which `rdma_connect` answers so. -/
def routeWorld (connect : Int) : List CmEvent → (v : Verb) → Reply v × List CmEvent
  | evs, .connect .. => (connect, evs)
  | evs, v => obliging evs v

/-- What is looked at in a call: what it takes, what it acknowledges, and whether it fails to ask
for the connection. -/
def ackTest (acks : ℕ) (fails : Bool) (t : Trace) (_ : Int × TestContext) : Bool :=
  decide (obtained t = 1) && decide (acked t = acks) && decide (t.any connectFails = fails)

/-- A call that takes the event about a route, found by evaluation. -/
lemma exists_routeCall (connect : Int) (acks : ℕ) (fails : Bool)
    (h : (play (routeWorld connect) [eventFor .routeResolved 1]
      ((waitAndProcessOneEvent gOptions clientMask).run {})).2.any
      (ackTest acks fails (play (routeWorld connect) [eventFor .routeResolved 1]
        ((waitAndProcessOneEvent gOptions clientMask).run {})).1) = true) :
    ∃ t, IsCall gOptions t ∧ obtained t = 1 ∧ acked t = acks ∧ t.any connectFails = fails := by
  obtain ⟨t, ⟨ret, s'⟩, hrun, htest⟩ := exists_of_play _ _ _ (ackTest acks fails) h
  simp only [ackTest, Bool.and_eq_true, decide_eq_true_eq] at htest
  exact ⟨t, ⟨_, _, ret, s', hrun⟩, htest.1.1, htest.1.2, htest.2⟩

/-- The client asks for its connection. -/
theorem eventsAcked_iff_oneRoute : ∃ t, IsCall gOptions t ∧ obtained t = 1 ∧ EventsAcked [t] := by
  obtain ⟨t, hcall, hobtained, -, hnone⟩ := exists_routeCall 0 1 false (by decide +kernel)
  refine ⟨t, hcall, hobtained, (eventsAcked_iff (o := gOptions) ?_).mpr ?_⟩
  · simpa using hcall
  · rintro t' ht' ⟨-, e, he, hfails⟩
    rw [List.mem_singleton.mp ht'] at he
    exact List.any_eq_false.mp hnone e he hfails

/-- **An event that is lost**: `rdma_connect` fails. -/
theorem failedConnect_losesEvent :
    ∃ t, IsCall gOptions t ∧ obtained t = 1 ∧ acked t = 0 ∧ ¬ EventsAcked [t] := by
  obtain ⟨t, hcall, hobtained, hacked, -⟩ := exists_routeCall (-1) 0 true (by decide +kernel)
  refine ⟨t, hcall, hobtained, hacked, fun hall => ?_⟩
  have heq := hall.1 t (List.mem_singleton_self t)
  rw [hobtained, hacked] at heq
  exact absurd heq (by decide)

end RdmaFc
