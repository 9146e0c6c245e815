import RdmaExamples.RdmaFc.EventAcks

/-!
# The buffer of the reads

`init_transport` registers the buffer of the reads before there is a connection, and keeps it: what
`rdma_buf` holds, the run registered (`Accounted`), on every way out of the setup phase
(`roleSetup_accounts`).

A failure leaves the buffer in any state, and nothing more is done then.  Between two events it is
either untouched or registered (`AtRest`).  A server adds a connection with its request, behind
`init_transport`.  A client adds it when it is established, and relies on rdma_cm to report no
connection as established whose route was not resolved before (`InSequence`).

The functions are taken one by one, each with what it leaves of the buffer where it succeeds and
where it fails.  A lemma about a function names the calls it made before as `past`, since what the
run has registered is read off them; that makes the lemmas compose without a statement about the
whole run.
-/

namespace RdmaFc

open MachineWords Programs

/-- Where the buffer of the reads is registered, the run registered it; and it is registered where
there is a connection. -/
structure Accounted (past : Trace) (s : TestContext) : Prop where
  buffer : ∀ mr, s.rdmaBuf.mr = some mr → s.rdmaBuf.ptr ≠ 0 ∧
    ∃ id size, (⟨.regMr id s.rdmaBuf.ptr size, some mr⟩ : Event Verb Reply) ∈ past
  mapped : s.numConns ≠ 0 → s.rdmaBuf.mr.isSome

/-- The same, and it is registered. -/
def Mapped (past : Trace) (s : TestContext) : Prop := Accounted past s ∧ s.rdmaBuf.mr.isSome

/-- The same between two events: it is registered where there is memory for it, and where `K` says
that `init_transport` ran. -/
structure AtRest (K : Prop) (past : Trace) (s : TestContext) : Prop where
  accounted : Accounted past s
  whole : s.rdmaBuf.ptr ≠ 0 → s.rdmaBuf.mr.isSome
  inits : K → s.rdmaBuf.mr.isSome

/-- What this looks at. -/
def bufferView (s : TestContext) : Buffer × ℕ := (s.rdmaBuf, s.numConns)

/-- Whatever the function returns, the buffer is accounted for; where it returns `0`, the run and
the context satisfy `Q`. -/
abbrev Accounts (P : Trace → TestContext → Prop) (m : Setup Int)
    (Q : Trace → TestContext → Prop) : Prop :=
  Recorded P m fun ret past s => Accounted past s ∧ (ret = 0 → Q past s)

section Buffers

variable {o : Options} {ev : CmEvent} {K : Prop} {past t : Trace} {s s' : TestContext}

lemma Accounted.of_view (hs : Accounted past s) (h : bufferView s' = bufferView s) :
    Accounted (past ++ t) s' := by
  simp only [bufferView, Prod.mk.injEq] at h
  obtain ⟨hbuf, hnum⟩ := h
  refine ⟨fun mr hmr => ?_, ?_⟩
  · rw [hbuf] at hmr
    obtain ⟨hptr, id, size, hmem⟩ := hs.buffer mr hmr
    rw [hbuf]
    exact ⟨hptr, id, size, List.mem_append_left t hmem⟩
  · rw [hbuf, hnum]
    exact hs.mapped

lemma Mapped.of_view (hs : Mapped past s) (h : bufferView s' = bufferView s) :
    Mapped (past ++ t) s' := by
  refine ⟨hs.1.of_view h, ?_⟩
  rw [show s'.rdmaBuf = s.rdmaBuf from congrArg Prod.fst h]
  exact hs.2

lemma Mapped.same (hs : Mapped past s) (h : bufferView s' = bufferView s) : Mapped past s' := by
  have hsame : Mapped (past ++ []) s' := hs.of_view h
  rwa [List.append_nil] at hsame

lemma AtRest.of_view (hs : AtRest K past s) (h : bufferView s' = bufferView s) :
    AtRest K (past ++ t) s' := by
  have hbuf : s'.rdmaBuf = s.rdmaBuf := congrArg Prod.fst h
  refine ⟨hs.accounted.of_view h, ?_, ?_⟩
  · rw [hbuf]
    exact hs.whole
  · rw [hbuf]
    exact hs.inits

lemma Mapped.atRest (hs : Mapped past s) : AtRest K past s :=
  ⟨hs.1, fun _ => hs.2, fun _ => hs.2⟩

lemma AtRest.mono {K' : Prop} (hs : AtRest K past s) (h : K' → K) : AtRest K' past s :=
  ⟨hs.accounted, hs.whole, fun hK => hs.inits (h hK)⟩

/-- Before the buffer there is no connection. -/
lemma AtRest.fresh (hs : AtRest K past s) (hptr : s.rdmaBuf.ptr = 0) :
    s.rdmaBuf.mr = none ∧ s.numConns = 0 := by
  have hmr : s.rdmaBuf.mr = none := by
    rw [Option.eq_none_iff_forall_ne_some]
    exact fun mr hmr => (hs.accounted.buffer mr hmr).1 hptr
  refine ⟨hmr, ?_⟩
  by_contra hne
  have hsome := hs.accounted.mapped hne
  rw [hmr] at hsome
  exact Bool.false_ne_true hsome

/-- A buffer that is not registered is accounted for where there is no connection. -/
lemma accounted_of_none (hmr : s.rdmaBuf.mr = none) (hnum : s.numConns = 0) : Accounted past s :=
  ⟨fun mr hsome => absurd (hmr.symm.trans hsome) (by simp), fun hne => absurd hnum hne⟩

/-- A failure is handed on, otherwise the function goes on. -/
lemma Accounts.andThen {P Q S : Trace → TestContext → Prop} {m : Setup Int} {f : Int → Setup Int}
    (hm : Accounts P m Q) (hf : ∀ ret, Accounts Q (f ret) S) :
    Accounts P (m >>= fun ret => if ret ≠ 0 then pure ret else f ret) S := by
  refine Recorded.bind hm fun ret => Recorded.ite ?_ ?_
  · intro hret
    exact Recorded.pure fun _ _ hs => ⟨hs.1, fun hzero => absurd hzero hret⟩
  · intro hret
    exact (hf ret).weaken (fun _ _ hs => hs.2 (not_not.mp hret)) fun _ _ _ => id

/-- A function that has nothing to do with the buffer. -/
lemma atRest_of_keeps {m : Setup Int} {Q : Verb → Prop} (h : Keeps bufferView Q m) :
    Accounts (AtRest K) m (AtRest K) :=
  (Recorded.of_keeps h fun _ _ _ _ hview _ hs => AtRest.of_view hs hview).weaken (fun _ _ => id)
    fun _ _ _ hs => ⟨hs.accounted, fun _ => hs⟩

lemma mapped_of_keeps {m : Setup Int} {Q : Verb → Prop} (h : Keeps bufferView Q m) :
    Accounts Mapped m Mapped :=
  (Recorded.of_keeps h fun _ _ _ _ hview _ hs => Mapped.of_view hs hview).weaken (fun _ _ => id)
    fun _ _ _ hs => ⟨hs.1, fun _ => hs⟩

/-- The end of `init_buffer`. -/
lemma registered_accounts {id : Handle} {ptr size : ℕ} {mr : Option Mr} (hptr : ptr ≠ 0) :
    Accounts (fun past s => s.rdmaBuf = ⟨ptr, mr⟩ ∧ s.numConns = 0 ∧
      (⟨.regMr id ptr size, mr⟩ : Event Verb Reply) ∈ past)
      (if mr.isNone then pure (-1) else pure 0) Mapped := by
  refine Recorded.ite (fun hnone => Recorded.pure ?_) fun hsome => Recorded.pure ?_
  · rintro past s ⟨hbuf, hnum, -⟩
    refine ⟨accounted_of_none ?_ hnum, fun h => absurd h (by decide)⟩
    rw [hbuf]
    exact Option.isNone_iff_eq_none.mp hnone
  · rintro past s ⟨hbuf, hnum, hmem⟩
    have hacc : Accounted past s := by
      refine ⟨fun mr' hmr => ?_, fun hne => absurd hnum hne⟩
      rw [hbuf] at hmr ⊢
      obtain rfl : mr = some mr' := hmr
      exact ⟨hptr, id, size, hmem⟩
    refine ⟨hacc, fun _ => ⟨hacc, ?_⟩⟩
    rw [hbuf]
    exact Option.isSome_iff_ne_none.mpr fun hnone => hsome (Option.isNone_iff_eq_none.mpr hnone)

/-- `init_buffer` for the buffer of the reads. -/
lemma initBuffer_accounts (id : Handle) (size : ℕ) :
    Accounts (AtRest K) (initBuffer id size TestContext.rdmaBuf
      fun buf ctx => { ctx with rdmaBuf := buf }) Mapped := by
  refine Recorded.get_bind fun s₀ => Recorded.ite ?_ ?_
  · intro hptr
    refine Recorded.pure ?_
    rintro past s ⟨rfl, hs⟩
    exact ⟨hs.accounted, fun _ => ⟨hs.accounted, hs.whole hptr⟩⟩
  · intro hptr
    refine Recorded.perform_bind (K := fun _ _ s => s = s₀ ∧ s.rdmaBuf.mr = none ∧ s.numConns = 0)
      (fun ptr => ?_) ?_
    · refine Recorded.modify_bind (K := fun _ s => s.rdmaBuf.mr = none ∧ s.numConns = 0) ?_ ?_
      · refine Recorded.ite (fun _ => Recorded.pure ?_) fun hne => ?_
        · exact fun _ s hs => ⟨accounted_of_none hs.1 hs.2, fun h => absurd h (by decide)⟩
        · refine Recorded.perform_bind (K := fun mr past s => s.numConns = 0 ∧
            (⟨.regMr id ptr size, mr⟩ : Event Verb Reply) ∈ past) (fun mr => ?_) ?_
          · refine Recorded.modify_bind (K := fun past s => s.rdmaBuf = ⟨ptr, mr⟩ ∧
              s.numConns = 0 ∧ (⟨.regMr id ptr size, mr⟩ : Event Verb Reply) ∈ past) ?_ ?_
            · exact registered_accounts hne
            · exact fun past s hs => ⟨rfl, hs⟩
          · exact fun mr past s hs => ⟨hs.2, List.mem_append_right _ (List.mem_singleton_self _)⟩
      · rintro past s ⟨rfl, hmr, hnum⟩
        exact ⟨hmr, hnum⟩
    · rintro ptr past s ⟨rfl, hs⟩
      exact ⟨rfl, hs.fresh (not_not.mp hptr)⟩

lemma initTransport_accounts : Accounts (AtRest K) (initTransport o ev) Mapped := by
  refine Accounts.andThen (atRest_of_keeps
    (createCq_keeps o _ (fun _ _ => rfl) QueueCall.plain)) fun _ => ?_
  refine Accounts.andThen (atRest_of_keeps
    (createSrq_keeps o _ (fun _ _ _ => rfl) TransportCall.quiet)) fun _ => ?_
  refine Accounts.andThen (atRest_of_keeps
    (initBuffer_keeps _ _ _ _ (fun _ _ => rfl) TransportCall.quiet)) fun _ => ?_
  refine Accounts.andThen (initBuffer_accounts _ _) fun _ => ?_
  refine Accounts.andThen (mapped_of_keeps
    (postReceives_keeps (fun _ _ => rfl) TransportCall.quiet)) fun _ => ?_
  exact mapped_of_keeps (createQps_keeps o _ (fun _ _ => rfl) QueueCall.plain)

/-- A connection is added once the buffer is registered. -/
lemma addConnection_accounts : Recorded Mapped (addConnection o ev) fun _ => Mapped := by
  have hview : ∀ (past t : Trace) (s s' : TestContext), bufferView s' = bufferView s →
      (∀ e ∈ t, Plain e.1) → Mapped past s → Mapped (past ++ t) s' :=
    fun _ _ _ _ h _ hs => hs.of_view h
  refine Recorded.get_bind fun s₀ => ?_
  refine Recorded.perform_bind (K := fun _ => Mapped) (fun _ => ?_) ?_
  · refine Recorded.modify_bind (K := Mapped) ?_ fun past s hs => ?_
    · have hkeep : Keeps bufferView Plain (setConnParam o s₀.numConns ev) :=
        setConnParam_keeps o _ ev (fun _ _ _ => rfl) fun _ => trivial
      refine Recorded.bind (Recorded.of_keeps hkeep hview) fun ret => ?_
      refine Recorded.ite (fun _ => Recorded.pure fun _ _ => id) fun _ => ?_
      refine Recorded.modify_bind (K := Mapped) (Recorded.pure fun _ _ => id) fun past s hs => ?_
      exact ⟨⟨hs.1.buffer, fun _ => hs.2⟩, hs.2⟩
    · exact hs.same rfl
  · rintro _ past s ⟨rfl, hs⟩
    exact hs.of_view rfl

lemma handleConnectRequest_accounts :
    Accounts (AtRest K) (handleConnectRequest o ev) Mapped := by
  refine Accounts.andThen initTransport_accounts fun _ => ?_
  refine Recorded.bind addConnection_accounts fun i => ?_
  cases i with
  | none => exact Recorded.pure fun _ _ hs => ⟨hs.1, fun h => absurd h (by decide)⟩
  | some i =>
      have hkeep : Keeps bufferView Plain (acceptConnection o ev i) :=
        acceptConnection_keeps o ev i (fun _ _ => rfl) (fun _ => trivial) fun _ => trivial
      exact mapped_of_keeps hkeep

/-- On a client, an established connection is added to those there are. -/
lemma handleEstablished_accounts (hclient : o.isClient) :
    Accounts Mapped (handleEstablished o ev) Mapped := by
  rw [handleEstablished, if_pos hclient]
  refine Recorded.bind addConnection_accounts fun i => ?_
  cases i with
  | none => exact Recorded.pure fun _ _ hs => ⟨hs.1, fun h => absurd h (by decide)⟩
  | some i =>
      have hcount : Keeps bufferView Plain (do countEstablished; return (0 : Int)) :=
        Keeps.bind (Keeps.modify fun _ => rfl) fun _ => Keeps.pure _
      exact mapped_of_keeps hcount

/-- What one event leaves behind. -/
def AfterEvent (K : Prop) (ev : CmEvent) (ret : Int) (past : Trace) (s : TestContext) : Prop :=
  Accounted past s ∧ (ret = 0 → AtRest (K ∨ InitsTransport ev) past s)

lemma afterEvent_of_mapped {P : Trace → TestContext → Prop} {m : Setup Int}
    (hm : Accounts P m Mapped) :
    Recorded P (do let ret ← m; return (ret, true)) fun r => AfterEvent K ev r.1 :=
  Recorded.bind hm fun _ => Recorded.pure fun _ _ hs => ⟨hs.1, fun hzero => (hs.2 hzero).atRest⟩

lemma afterEvent_of_keeps {Q : Verb → Prop} {m : Setup (Int × Bool)} (hev : ¬ InitsTransport ev)
    (hm : Keeps bufferView Q m) : Recorded (AtRest K) m fun r => AfterEvent K ev r.1 := by
  refine (Recorded.of_keeps hm fun _ _ _ _ hview _ hs => AtRest.of_view hs hview).weaken
    (fun _ _ => id) fun _ _ _ hs => ⟨hs.accounted, fun _ => hs.mono ?_⟩
  exact fun hK => hK.resolve_right hev

lemma handleRouteResolved_accounts :
    Recorded (AtRest K) (handleRouteResolved o ev) fun r => AfterEvent K ev r.1 := by
  refine Recorded.bind initTransport_accounts fun ret =>
    Recorded.ite (fun hret => ?_) fun hret => ?_
  · exact Recorded.pure fun _ _ hs => ⟨hs.1, fun hzero => absurd hzero hret⟩
  · refine (Recorded.of_keeps (P := Mapped) (routeResolved_rest o ev)
      fun _ _ _ _ h _ hs => hs.of_view (congrArg bufferView h)).weaken ?_ ?_
    · exact fun _ _ hs => hs.2 (not_not.mp hret)
    · exact fun _ _ _ hs => ⟨hs.1, fun _ => hs.atRest⟩

/-- **One event**, handled: where a client has one established, `init_transport` has run. -/
theorem processEvent_accounts (hest : ev.type = .established → o.isClient → K) :
    Recorded (AtRest K) (processEvent o ev) fun r => AfterEvent K ev r.1 := by
  rw [processEvent]
  split
  · rename_i hty
    refine afterEvent_of_keeps (Q := Plain) (by simp [InitsTransport, hty]) ?_
    exact Keeps.bind (Keeps.perform trivial) fun ret => Keeps.pure _
  · exact handleRouteResolved_accounts
  · exact afterEvent_of_mapped handleConnectRequest_accounts
  · rename_i hty
    by_cases hclient : o.isClient
    · refine afterEvent_of_mapped ((handleEstablished_accounts hclient).weaken ?_ fun _ _ _ => id)
      exact fun _ _ hs => ⟨hs.accounted, hs.inits (hest hty hclient)⟩
    · refine afterEvent_of_keeps (Q := Plain) (by simp [InitsTransport, hty]) ?_
      rw [handleEstablished, if_neg hclient]
      exact Keeps.bind (Keeps.bind (Keeps.modify fun _ => rfl) fun _ => Keeps.pure _)
        fun ret => Keeps.pure _
  · rename_i hty
    refine afterEvent_of_keeps (Q := Plain) (by simp [InitsTransport, hty]) ?_
    exact Keeps.bind (Keeps.modify fun _ => rfl) fun _ => Keeps.pure _
  · refine afterEvent_of_keeps (Q := Plain) ?_ (Keeps.pure _)
    rintro (hty | hty)
    · contradiction
    · contradiction

/-! ## The wait loop

The loop may be left with any result and at any time, so that what is shown of it is what holds
then: the objects are accounted for, and if it was left with `0` nothing is half done. -/

lemma mem_cmEvents_taken (ev : CmEvent) (t : Trace) :
    ev ∈ cmEvents (⟨.getCmEvent, (0, ev)⟩ :: t) := by
  rw [cmEvents_getCmEvent, if_pos rfl]
  exact List.mem_cons_self

/-- A call that takes an event and handles it; what it does behind that is `u`. -/
lemma handled_accounts {ack : Bool} {ret : Int} {u : Trace} (hs : AtRest K past s)
    (hest : ev.type = .established → o.isClient → K) (hu : cmEvents u = [])
    (h : Returns ((processEvent o ev).run s) t ((ret, ack), s')) :
    Accounted (past ++ ⟨.getCmEvent, (0, ev)⟩ :: (t ++ u)) s' ∧ (ret = 0 →
      AtRest (K ∨ ∃ ev' ∈ cmEvents (⟨.getCmEvent, (0, ev)⟩ :: (t ++ u)), InitsTransport ev')
        (past ++ ⟨.getCmEvent, (0, ev)⟩ :: (t ++ u)) s') := by
  have hevents := (counts_of_inner (processEvent_inner.calls _ _ h.canDo)).2
  have htaken : AtRest K (past ++ [⟨.getCmEvent, (0, ev)⟩]) s := hs.of_view rfl
  obtain ⟨hacc, hrest⟩ := processEvent_accounts hest _ _ _ _ _ htaken h
  have hpast : past ++ ⟨.getCmEvent, (0, ev)⟩ :: (t ++ u)
      = past ++ [⟨.getCmEvent, (0, ev)⟩] ++ t ++ u := by simp
  rw [hpast]
  refine ⟨hacc.of_view rfl, fun hret => ((hrest hret).of_view rfl).mono ?_⟩
  rw [cmEvents_getCmEvent, if_pos rfl, cmEvents_append, hevents, hu]
  simp

/-- **One call** of `wait_and_process_one_event`. -/
theorem waitAndProcessOneEvent_accounts {mask : BitVec 64} {ret : Int} (hs : AtRest K past s)
    (hest : ∀ ev ∈ cmEvents t, ev.type = .established → o.isClient → K)
    (h : Returns ((waitAndProcessOneEvent o mask).run s) t (ret, s')) :
    Accounted (past ++ t) s' ∧
      (ret = 0 → AtRest (K ∨ ∃ ev ∈ cmEvents t, InitsTransport ev) (past ++ t) s') := by
  cases waitAndProcessOneEvent_oneEvent h with
  | none r => exact ⟨hs.accounted.of_view rfl, fun h => absurd h (by decide)⟩
  | refused ev a => exact ⟨hs.accounted.of_view rfl, fun h => absurd h (by decide)⟩
  | unacked ev t ret s' hadmits h =>
      have hcall := handled_accounts (u := []) hs (hest ev (mem_cmEvents_taken ev t)) rfl h
      rwa [List.append_nil] at hcall
  | acked ev t ret a s' hadmits h =>
      obtain ⟨hacc, hrest⟩ := handled_accounts hs (hest ev (mem_cmEvents_taken ev _))
        (u := [⟨.ackCmEvent, a⟩]) rfl h
      refine ⟨hacc, fun hzero => hrest ?_⟩
      by_contra hne
      rw [if_pos hne] at hzero
      exact hne hzero

/-- rdma_cm reports a connection as established only after a request for it or a route to it. -/
def InSequence (evs : List CmEvent) : Prop :=
  ∀ evs₁ ev evs₂, evs = evs₁ ++ ev :: evs₂ → ev.type = .established →
    ∃ ev' ∈ evs₁, InitsTransport ev'

lemma InSequence.left {evs evs' : List CmEvent} (h : InSequence (evs ++ evs')) :
    InSequence evs := by
  intro evs₁ ev evs₂ hevs hty
  refine h evs₁ ev (evs₂ ++ evs') ?_ hty
  rw [hevs, List.append_assoc, List.cons_append]

/-- Before the next event of the run. -/
def Waiting (past : Trace) (s : TestContext) : Prop :=
  AtRest (∃ ev ∈ cmEvents past, InitsTransport ev) past s

/-- What the wait loop leaves behind, where the events of a client come in sequence. -/
def Waited (o : Options) (ret : Int) (past : Trace) (s : TestContext) : Prop :=
  (o.isClient → InSequence (cmEvents past)) → Accounted past s ∧ (ret = 0 → Waiting past s)

lemma Waiting.of_view (hs : Waiting past s) (h : bufferView s' = bufferView s)
    (ht : cmEvents t = []) : Waiting (past ++ t) s' := by
  rw [Waiting, cmEvents_append, ht, List.append_nil]
  exact AtRest.of_view hs h

lemma Waiting.same (hs : Waiting past s) (h : bufferView s' = bufferView s) :
    Waiting past s' := by
  have hsame : Waiting (past ++ []) s' := hs.of_view h rfl
  rwa [List.append_nil] at hsame

lemma waiting_start : Waiting [] {} :=
  ⟨accounted_of_none rfl rfl, fun h => absurd rfl h, by simp⟩

/-- **The wait loop**, whatever it returns. -/
theorem waitConnections_accounts (o : Options) (mask : BitVec 64) : ∀ fuel,
    Recorded Waiting (waitConnections o mask fuel) (Waited o)
  | 0 => Recorded.halt
  | fuel + 1 => by
      intro past s t ret s' hs h hcm
      rw [waitConnections, run_get_bind] at h
      split at h
      · obtain ⟨t₁, t₂, ret₁, s₁, rfl, h₁, h₂⟩ := returns_run_bind.mp h
        have hest : ∀ ev ∈ cmEvents t₁, ev.type = .established → o.isClient →
            ∃ ev ∈ cmEvents past, InitsTransport ev := by
          intro ev hev hty hclient
          have hone : cmEvents t₁ = [ev] := by
            obtain ⟨ev', hev'⟩ := List.length_eq_one_iff.mp (le_antisymm
              (waitAndProcessOneEvent_canDo h₁.canDo).1 (List.length_pos_of_mem hev))
            rw [hev'] at hev ⊢
            rw [List.mem_singleton.mp hev]
          refine hcm hclient (cmEvents past) ev (cmEvents t₂) ?_ hty
          rw [cmEvents_append, cmEvents_append, hone]
          rfl
        obtain ⟨hacc, hrest⟩ := waitAndProcessOneEvent_accounts hs hest h₁
        rw [← List.append_assoc] at hcm ⊢
        split at h₂
        · rename_i hret
          obtain ⟨rfl, rfl, rfl⟩ := returns_run_pure.mp h₂
          rw [List.append_nil]
          exact ⟨hacc, fun hzero => absurd hzero hret⟩
        · rename_i hret
          refine waitConnections_accounts o mask fuel _ _ _ _ _ ?_ h₂ hcm
          refine (hrest (not_not.mp hret)).mono ?_
          rw [cmEvents_append]
          rintro ⟨ev, hev, hinits⟩
          rcases List.mem_append.mp hev with hev | hev
          · exact Or.inl ⟨ev, hev, hinits⟩
          · exact Or.inr ⟨ev, hev, hinits⟩
      · obtain ⟨rfl, -, rfl⟩ := returns_run_pure.mp h
        have hend := hs.of_view (t := []) rfl rfl
        exact ⟨hend.accounted, fun _ => hend⟩

/-! ## The whole phase -/

lemma initTest_waiting {ret : Int} (h : Returns ((initTest o).run {}) t (ret, s)) :
    Waiting t s := by
  have hkeep : Keeps bufferView Plain (initTest o) := initTest_keeps o fun _ _ => rfl
  refine waiting_start.of_view (hkeep.state _ _ _ _ h) (cmEvents_of_quiet fun e he => ?_)
  exact Plain.quiet e.1 (hkeep.calls _ _ h.canDo e he)

/-- `run_server` or `run_client`, up to the reads or `disconnect`. -/
def roleSetup (o : Options) (fuel : ℕ) : Setup Int :=
  if o.isClient then clientSetup o fuel else serverSetup o.raiseQueueLens fuel

/-- **The setup phase** behind `init_test`, whatever it returns. -/
theorem roleSetup_accounts (o : Options) (fuel : ℕ) :
    Recorded Waiting (roleSetup o fuel) (Waited o) := by
  have hfail : ∀ ret : Int, ret ≠ 0 → Recorded Waiting (pure ret : Setup Int) (Waited o) :=
    fun _ hret => Recorded.pure fun _ _ hs _ => ⟨hs.accounted, fun hzero => absurd hzero hret⟩
  have hcall : ∀ (v : Verb) (r : Reply v) (past : Trace) (s : TestContext), Quiet v →
      Waiting past s → Waiting (past ++ [⟨v, r⟩]) s :=
    fun _ _ _ _ hv hs => hs.of_view rfl (cmEvents_of_quiet (List.forall_mem_singleton.mpr hv))
  refine Recorded.ite (fun _ => ?_) fun _ => ?_
  · refine Recorded.perform_bind (K := fun _ => Waiting) (fun found => ?_) ?_
    · refine Recorded.ite (fun _ => hfail _ (by decide)) fun _ => ?_
      have hkeep : Keeps bufferView Plain (resolveAddrs o o.numConnections) :=
        resolveAddrs_keeps o _
      have hresolve : Recorded Waiting (resolveAddrs o o.numConnections) fun _ => Waiting :=
        Recorded.of_keeps hkeep fun _ _ _ _ hview hcalls hs =>
          hs.of_view hview (cmEvents_of_quiet fun e he => Plain.quiet e.1 (hcalls e he))
      exact Recorded.bind hresolve fun ret => Recorded.ite (hfail ret) fun _ =>
        waitConnections_accounts o clientMask fuel
    · exact fun r past s => hcall _ r past s trivial
  · refine Recorded.perform_bind (K := fun _ => Waiting) (fun r => ?_) ?_
    · refine Recorded.ite (hfail r.1) fun _ => ?_
      refine Recorded.modify_bind (K := Waiting) ?_ fun past s hs => ?_
      · refine Recorded.perform_bind (K := fun _ => Waiting) (fun ret => ?_)
          fun r past s => hcall _ r past s trivial
        refine Recorded.ite (hfail ret) fun _ => ?_
        refine Recorded.perform_bind (K := fun _ => Waiting) (fun ret => ?_)
          fun r past s => hcall _ r past s trivial
        exact Recorded.ite (hfail ret) fun _ =>
          waitConnections_accounts o.raiseQueueLens serverMask fuel
      · exact hs.same rfl
    · exact fun r past s => hcall _ r past s trivial

end Buffers

end RdmaFc
