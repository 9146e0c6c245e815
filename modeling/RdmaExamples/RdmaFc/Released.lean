import RdmaExamples.RdmaFc.Cleanup

/-!
# What is cleaned up

`cleanup_test` is to release what the run created, each object once, and none before an object that
still uses it.

An id that `add_connection` has not recorded yet is lost, and so are the DCT and the queue pairs of
the connections.  `cleanup_buffer` frees the memory of a buffer before it deregisters it.  So as
soon as a connection is begun, something is wrong (`released_iff`): an id is lost as long as there
is no connection, and from the first one on a buffer is freed too early.

* `begins` — the events and calls with which a connection begins: a CONNECT_REQUEST at a server, an
  id that is created at a client.
* `Accounted` — what the context says of the objects that the run created.
* `Released` — all created objects are released, once, and in an order in which nothing is released
  before what uses it.

The counting of ids is done once for both roles (`roleSetup_ids`), since one id is created for each
connection that begins, besides the one that listens.
-/

namespace RdmaFc

open MachineWords Programs

/-! ## A connection was begun

Either its id is not recorded, and then it is lost, or it is recorded, and then a buffer was
registered before.  In both cases something is wrong. -/

/-- The object is an id of a connection, or the one that listens. -/
def isId : Resource → Bool
  | .cmId _ => true
  | _ => false

/-- How many ids a run creates. -/
def ids (t : Trace) : ℕ := (t.flatMap created).countP isId

section Begun

variable {o : Options} {t t' : Trace} {s s' ctx : TestContext}

/-- **The memory of a registered buffer** is freed before it is deregistered. -/
theorem not_inOrder (hs : Accounted t s) (hmr : s.rdmaBuf.mr.isSome) :
    ¬ InOrder t (cleanupTest s) := by
  intro hin
  obtain ⟨mr, hmr⟩ := Option.isSome_iff_exists.mp hmr
  obtain ⟨hptr, id, size, hmem⟩ := hs.buffer mr hmr
  have huses : (Resource.mr mr.handle, Resource.buffer s.rdmaBuf.ptr) ∈
      uses ⟨.regMr id s.rdmaBuf.ptr size, some mr⟩ := by simp [uses]
  have hbuf : cleanupBuffer s.rdmaBuf = [.buffer s.rdmaBuf.ptr, .mr mr.handle] := by
    simp [cleanupBuffer, hmr, hptr]
  have hbefore := hin _ hmem _ huses (cleanupQueues s) _ (by rw [cleanupTest, hbuf]; rfl)
  simp [cleanupQueues, cleanupConn] at hbefore

lemma ids_append : ids (t ++ t') = ids t + ids t' := by
  rw [ids, List.flatMap_append, List.countP_append, ids, ids]

/-- Every connection that is begun comes with an id. -/
lemma begins_le_ids (o : Options) (t : Trace) : t.countP (begins o) ≤ ids t := by
  induction t with
  | nil => exact le_rfl
  | cons e t ih =>
      have hone : (if begins o e = true then 1 else 0) ≤ (created e).countP isId := by
        split
        · rename_i hbegins
          obtain ⟨v, r⟩ := e
          cases v <;> simp_all [begins, created, isId]
        · exact Nat.zero_le _
      rw [List.countP_cons, ids, List.flatMap_cons, List.countP_append, ← ids]
      omega

/-- Without a connection, the only id that is released is the one that listens. -/
lemma ids_cleanupTest (hnum : ctx.numConns = 0) :
    (cleanupTest ctx).countP isId = ctx.listenCmId.toList.length := by
  have hnone : ∀ {α : Type} (l : List α) (f : α → Resource), (∀ a, isId (f a) = false) →
      (l.map f).countP isId = 0 := by
    intro α l f hf
    exact List.countP_eq_zero.mpr (by simp [hf])
  have hqps : ((List.finRange numDci).flatMap fun i =>
      (ctx.dcis i).toList.map fun qp => Resource.qp qp.handle).countP isId = 0 := by
    refine List.countP_eq_zero.mpr fun a ha => ?_
    obtain ⟨i, -, hi⟩ := List.mem_flatMap.mp ha
    obtain ⟨qp, -, rfl⟩ := List.mem_map.mp hi
    exact Bool.false_ne_true
  have hbuf : ∀ buf : Buffer, (cleanupBuffer buf).countP isId = 0 := by
    intro buf
    rw [cleanupBuffer, List.countP_append, hnone _ _ fun _ => rfl]
    split <;> rfl
  have hlisten : (ctx.listenCmId.toList.map Resource.cmId).countP isId
      = ctx.listenCmId.toList.length := by
    cases ctx.listenCmId <;> rfl
  have hconns : ¬ isId .conns = true := Bool.false_ne_true
  simp only [cleanupTest, cleanupQueues, hnum, List.range_zero, List.flatMap_nil, List.nil_append,
    List.countP_append, hqps, hbuf, hlisten, hnone _ Resource.srq fun _ => rfl,
    hnone _ Resource.cq fun _ => rfl, List.countP_cons_of_neg hconns,
    hnone _ Resource.eventChannel fun _ => rfl]
  omega

/-- A call that creates nothing, whatever it answers. -/
def Idle : Verb → Prop
  | .gethostbyname _ => True
  | .bindAddr .. => True
  | .listen .. => True
  | .ackCmEvent => True
  | _ => False

/-- **All a server can do** up to the reads: it gets no id, it cannot listen, or it waits. -/
inductive ServerRun (o : Options) (fuel : ℕ) (s : TestContext) :
    Trace → Int → TestContext → Prop
  | noId (r : Int × Handle) (hr : r.1 ≠ 0) :
      ServerRun o fuel s [⟨.createId (o.transport = .rc), r⟩] r.1 s
  | noListen (id : Handle) (u : Trace) (ret : Int) (hu : ∀ e ∈ u, Idle e.1) :
      ServerRun o fuel s (⟨.createId (o.transport = .rc), (0, id)⟩ :: u) ret
        { s with listenCmId := some id }
  | waits (id : Handle) (u t : Trace) (ret : Int) (s' : TestContext) (hu : ∀ e ∈ u, Idle e.1)
      (h : Returns ((waitConnections o serverMask fuel).run { s with listenCmId := some id }) t
        (ret, s')) :
      ServerRun o fuel s (⟨.createId (o.transport = .rc), (0, id)⟩ :: (u ++ t)) ret s'

theorem serverSetup_serverRun {fuel : ℕ} {ret : Int}
    (h : Returns ((serverSetup o fuel).run s) t (ret, s')) : ServerRun o fuel s t ret s' := by
  obtain ⟨⟨r, id⟩, t₁, rfl, h₁⟩ := returns_run_perform_bind.mp h
  dsimp only at h₁
  by_cases hr : r = 0
  · subst hr
    rw [if_neg (by simp), run_modify_bind] at h₁
    obtain ⟨bound, t₂, rfl, h₂⟩ := returns_run_perform_bind.mp h₁
    split at h₂
    · obtain ⟨rfl, rfl, rfl⟩ := returns_run_pure.mp h₂
      exact ServerRun.noListen id _ bound (List.forall_mem_singleton.mpr trivial)
    · obtain ⟨heard, t₃, rfl, h₃⟩ := returns_run_perform_bind.mp h₂
      have hu : ∀ e ∈ [(⟨.bindAddr id o.portNum, bound⟩ : Event Verb Reply),
          ⟨.listen id o.connBacklog, heard⟩], Idle e.1 :=
        List.forall_mem_cons.mpr ⟨trivial, List.forall_mem_singleton.mpr trivial⟩
      split at h₃
      · obtain ⟨rfl, rfl, rfl⟩ := returns_run_pure.mp h₃
        exact ServerRun.noListen id _ heard hu
      · exact ServerRun.waits id _ t₃ ret s' hu h₃
  · rw [if_pos hr] at h₁
    obtain ⟨rfl, rfl, rfl⟩ := returns_run_pure.mp h₁
    exact ServerRun.noId (r, id) hr

/-- **The ids of a process**: one for the id that listens, and one for every connection begun.  The
id that listens is created before anything else, and is in the context where that went well; the
others come with the connections (`begins_le_ids`). -/
theorem roleSetup_ids {fuel : ℕ} {ret : Int} (hs : s.listenCmId = none)
    (h : Returns ((roleSetup o fuel).run s) t (ret, s')) :
    s'.listenCmId.toList.length + t.countP (begins o) ≤ ids t := by
  rw [roleSetup] at h
  split at h
  · have hlisten : s'.listenCmId = s.listenCmId :=
      congrArg Prod.fst ((clientSetup_fixed o fuel).state _ _ _ _ h)
    rw [hlisten, hs]
    simpa using begins_le_ids o t
  · rename_i hserver
    have hfirst : ∀ (tcp : Bool) (id : Handle) (u : Trace),
        1 + (⟨.createId tcp, (0, id)⟩ :: u : Trace).countP (begins o)
          ≤ ids (⟨.createId tcp, (0, id)⟩ :: u) := by
      intro tcp id u
      have hrest := begins_le_ids o u
      rw [List.countP_cons_of_neg (by simp [begins, hserver]), ids, List.flatMap_cons,
        List.countP_append, ← ids]
      exact Nat.add_le_add le_rfl hrest
    cases serverSetup_serverRun h with
    | noId r hr =>
        rw [hs]
        exact (Nat.zero_add _).le.trans (begins_le_ids o _)
    | noListen id u ret hu => exact hfirst _ id u
    | waits id u t ret s' hu h =>
        have hlisten : s'.listenCmId = some id :=
          congrArg Prod.fst ((waitConnections_fixed _ _ _).state _ _ _ _ h)
        rw [hlisten]
        exact hfirst _ id _

end Begun

/-! ## No connection was begun

Then there are no queue pairs, no regions and no buffers: what a run has created is the event
channel, the array and the id that listens, and all of it is released. -/

section NotBegun

variable {o : Options} {t t' : Trace} {s s' : TestContext}

/-- Nothing is created in the run. -/
def Barren (t : Trace) : Prop := ∀ e ∈ t, created e = [] ∧ uses e = []

lemma Barren.created_eq (h : Barren t) : t.flatMap created = [] :=
  List.flatMap_eq_nil_iff.mpr fun e he => (h e he).1

lemma barren_of_idle (h : ∀ e ∈ t, Idle e.1) : Barren t := by
  intro e he
  have hidle := h e he
  obtain ⟨v, r⟩ := e
  cases v <;> first | exact ⟨rfl, rfl⟩ | exact hidle.elim

lemma barren_of_channel (h : ∀ e ∈ t, ChannelCall e.1) (hnone : ∀ e ∈ t, begins o e = false) :
    Barren t := by
  intro e he
  have hcall := h e he
  have hbegins := hnone e he
  obtain ⟨v, r⟩ := e
  cases v
  case getCmEvent =>
    refine ⟨if_neg ?_, rfl⟩
    simpa [begins] using hbegins
  all_goals first | exact ⟨rfl, rfl⟩ | exact hcall.elim

lemma Barren.uses_eq (h : Barren t) : t.flatMap uses = [] :=
  List.flatMap_eq_nil_iff.mpr fun e he => (h e he).2

lemma request_begins {ev : CmEvent} (hev : ev ∈ cmEvents t) (hty : ev.type = .connectRequest) :
    ∃ e ∈ t, begins o e = true := by
  obtain ⟨e, he, hsome⟩ := List.mem_filterMap.mp hev
  refine ⟨e, he, ?_⟩
  obtain ⟨v, r⟩ := e
  cases v
  case getCmEvent =>
    obtain ⟨hr, hsame⟩ := Option.ite_none_right_eq_some.mp hsome
    obtain rfl := Option.some.inj hsame
    simpa [begins, hty] using hr
  all_goals cases hsome

/-- A wait loop of a server in which no connection is asked for. -/
lemma waitConnections_barren {ret : Int} (hserver : ¬ o.isClient) : ∀ {fuel : ℕ} {t : Trace}
    {s : TestContext}, (∀ e ∈ t, begins o e = false) →
    Returns ((waitConnections o serverMask fuel).run s) t (ret, s') →
    s'.objects = s.objects ∧ Barren t
  | 0, t, s, _, h => absurd h returns_run_halt
  | fuel + 1, t, s, hnone, h => by
      rw [waitConnections, run_get_bind] at h
      split at h
      · obtain ⟨t₁, t₂, ret₁, s₁, rfl, h₁, h₂⟩ := returns_run_bind.mp h
        obtain ⟨hnone₁, hnone₂⟩ := List.forall_mem_append.mp hnone
        have hmask : ∀ ev ∈ cmEvents t₁, Admits serverMask ev.type →
            ev.type = .disconnected ∨ ev.type = .established ∧ ¬ o.isClient := by
          intro ev hev hadmits
          rcases admits_serverMask.mp hadmits with hty | hty | hty
          · obtain ⟨e, he, hbegins⟩ := request_begins (o := o) hev hty
            rw [hnone₁ e he] at hbegins
            exact absurd hbegins (by decide)
          · exact Or.inr ⟨hty, hserver⟩
          · exact Or.inl hty
        obtain ⟨hobjects, hcalls⟩ := waitAndProcessOneEvent_counts hmask h₁
        have hbarren := barren_of_channel hcalls hnone₁
        split at h₂
        · obtain ⟨rfl, -, rfl⟩ := returns_run_pure.mp h₂
          rw [List.append_nil]
          exact ⟨hobjects, hbarren⟩
        · obtain ⟨hrest, hbarren₂⟩ := waitConnections_barren hserver hnone₂ h₂
          exact ⟨hrest.trans hobjects, List.forall_mem_append.mpr ⟨hbarren, hbarren₂⟩⟩
      · obtain ⟨rfl, -, rfl⟩ := returns_run_pure.mp h
        exact ⟨rfl, by simp [Barren]⟩

/-- A client that gets no id. -/
lemma resolveAddrs_barren {ret : Int} (hclient : o.isClient) : ∀ {left : ℕ} {t : Trace},
    (∀ e ∈ t, begins o e = false) → Returns ((resolveAddrs o left).run s) t (ret, s') →
    s' = s ∧ Barren t ∧ (ret = 0 → left = 0)
  | 0, t, _, h => by
      obtain ⟨rfl, -, rfl⟩ := returns_run_pure.mp h
      exact ⟨rfl, by simp [Barren], fun _ => rfl⟩
  | left + 1, t, hnone, h => by
      obtain ⟨⟨r, id⟩, t', rfl, h₁⟩ := returns_run_perform_bind.mp h
      have hr : r ≠ 0 := by
        have hfirst := hnone _ List.mem_cons_self
        simpa [begins, hclient] using hfirst
      dsimp only at h₁
      rw [if_pos hr] at h₁
      obtain ⟨rfl, rfl, rfl⟩ := returns_run_pure.mp h₁
      exact ⟨rfl, List.forall_mem_singleton.mpr ⟨if_neg hr, rfl⟩, fun hzero => absurd hzero hr⟩

lemma clientSetup_barren {fuel : ℕ} {ret : Int} (hclient : o.isClient)
    (hnone : ∀ e ∈ t, begins o e = false)
    (h : Returns ((clientSetup o fuel).run s) t (ret, s')) : s' = s ∧ Barren t := by
  obtain ⟨found, t₁, rfl, h₁⟩ := returns_run_perform_bind.mp h
  have hfirst : created ⟨.gethostbyname o.destAddress, found⟩ = [] ∧
      uses ⟨.gethostbyname o.destAddress, found⟩ = [] := ⟨rfl, rfl⟩
  split at h₁
  · obtain ⟨rfl, -, rfl⟩ := returns_run_pure.mp h₁
    exact ⟨rfl, List.forall_mem_singleton.mpr hfirst⟩
  · obtain ⟨t₂, t₃, ret₂, s₁, rfl, h₂, h₃⟩ := returns_run_bind.mp h₁
    have hnone₂ := (List.forall_mem_append.mp (List.forall_mem_cons.mp hnone).2).1
    obtain ⟨rfl, hbarren, hleft⟩ := resolveAddrs_barren hclient hnone₂ h₂
    have hall : Barren (⟨.gethostbyname o.destAddress, found⟩ :: (t₂ ++ [])) := by
      rw [List.append_nil]
      exact List.forall_mem_cons.mpr ⟨hfirst, hbarren⟩
    split at h₃
    · obtain ⟨rfl, -, rfl⟩ := returns_run_pure.mp h₃
      exact ⟨rfl, hall⟩
    · rename_i hret
      -- without a connection to wait for the loop ends at once
      have hzero := hleft (not_not.mp hret)
      cases fuel with
      | zero => exact absurd h₃ returns_run_halt
      | succ fuel =>
          rw [waitConnections, run_get_bind, if_neg (by omega)] at h₃
          obtain ⟨rfl, -, rfl⟩ := returns_run_pure.mp h₃
          exact ⟨rfl, hall⟩

/-- **A process that begins no connection** creates no more than the id that listens. -/
theorem roleSetup_barren {fuel : ℕ} {ret : Int} (hnone : ∀ e ∈ t, begins o e = false)
    (hs : s.listenCmId = none) (h : Returns ((roleSetup o fuel).run s) t (ret, s')) :
    s'.objects = { s with listenCmId := s'.listenCmId }.objects ∧
      t.flatMap created = s'.listenCmId.toList.map .cmId ∧ t.flatMap uses = [] := by
  have hlisten : ∀ {ctx : TestContext} {id : Handle},
      ctx.objects = { s with listenCmId := some id }.objects → ctx.listenCmId = some id := by
    intro ctx id h
    simp only [TestContext.objects, Prod.mk.injEq] at h
    exact h.2.2.2.2.2.2.2.1
  rw [roleSetup] at h
  split at h
  · rename_i hclient
    obtain ⟨rfl, hbarren⟩ := clientSetup_barren hclient hnone h
    rw [hs]
    exact ⟨by rw [← hs], hbarren.created_eq, hbarren.uses_eq⟩
  · rename_i hserver
    cases serverSetup_serverRun h with
    | noId r hr =>
        have hbarren : Barren [(⟨.createId (o.raiseQueueLens.transport = .rc), r⟩ :
            Event Verb Reply)] := List.forall_mem_singleton.mpr ⟨if_neg hr, rfl⟩
        rw [hs]
        exact ⟨by rw [← hs], hbarren.created_eq, hbarren.uses_eq⟩
    | noListen id u ret hu =>
        have hbarren := barren_of_idle hu
        refine ⟨rfl, ?_, ?_⟩
        · rw [List.flatMap_cons, hbarren.created_eq]
          rfl
        · rw [List.flatMap_cons, hbarren.uses_eq]
          rfl
    | waits id u t ret s' hu h =>
        have hnone' := (List.forall_mem_append.mp (List.forall_mem_cons.mp hnone).2).2
        obtain ⟨hobjects, hbarren⟩ :=
          waitConnections_barren (o := o.raiseQueueLens) hserver hnone' h
        have hall : Barren (u ++ t) := List.forall_mem_append.mpr ⟨barren_of_idle hu, hbarren⟩
        rw [hlisten hobjects]
        refine ⟨hobjects, ?_, ?_⟩
        · rw [List.flatMap_cons, hall.created_eq]
          rfl
        · rw [List.flatMap_cons, hall.uses_eq]
          rfl

end NotBegun

/-! ## The result -/

section Result

variable {o : Options} {fuel : ℕ} {t : Trace} {s ctx : TestContext}

lemma initTest_returns (h : Returns ((initTest o).run {}) t (0, s)) :
    ∃ ch conns, t = [⟨.createEventChannel, some ch⟩, ⟨.callocConns o.numConnections, some conns⟩] ∧
      s = { ({} : TestContext) with eventCh := some ch } := by
  obtain ⟨ch, t₁, rfl, h₁⟩ := returns_run_perform_bind.mp h
  rw [run_modify_bind, returns_run_guard (by decide)] at h₁
  obtain ⟨hch, h₂⟩ := h₁
  obtain ⟨conns, t₂, rfl, h₃⟩ := returns_run_perform_bind.mp h₂
  rw [returns_run_guard (by decide)] at h₃
  obtain ⟨hconns, h₄⟩ := h₃
  obtain ⟨rfl, -, rfl⟩ := returns_run_pure.mp h₄
  cases ch with
  | none => exact absurd rfl hch
  | some ch =>
      cases conns with
      | none => exact absurd rfl hconns
      | some conns => exact ⟨ch, conns, rfl, rfl⟩

section

variable {t₁ t₂ t₃ : Trace} {ctx₀ : TestContext} {ret : Int}
  (hrun : RoleStages o fuel t ctx t₁ t₂ t₃ s ctx₀ ret)

include hrun

lemma RoleStages.accounted (hcm : o.isClient → InSequence (cmEvents t)) : Accounted t ctx₀ := by
  have hall := roleSetup_accounts o fuel _ _ _ _ _ (initTest_waiting hrun.init) hrun.setup
  rw [hrun.trace, ← List.append_assoc] at hcm ⊢
  refine (hall fun hclient => ?_).1.of_view rfl
  have hseq := hcm hclient
  rw [cmEvents_append] at hseq
  exact hseq.left

/-- All that was created is released: then no connection was begun. -/
lemma RoleStages.none_begun (hcm : o.isClient → InSequence (cmEvents t)) (h : Released t ctx) :
    ∀ e ∈ t, begins o e = false := by
  have hclean := cleanupTest_of_objects hrun.objects
  have hmr : ¬ ctx₀.rdmaBuf.mr.isSome := fun hmr =>
    not_inOrder (hrun.accounted hcm) hmr (hclean ▸ h.inOrder)
  have hnum : ctx₀.numConns = 0 := by
    by_contra hne
    exact hmr ((hrun.accounted hcm).mapped hne)
  have hids : ids t = ctx₀.listenCmId.toList.length := by
    rw [ids, h.once.countP_eq, hclean, ids_cleanupTest hnum]
  have hlisten : s.listenCmId = none := by
    obtain ⟨ch, conns, -, rfl⟩ := initTest_returns hrun.init
    rfl
  have hsetup := roleSetup_ids hlisten hrun.setup
  have hfirst := begins_le_ids o t₁
  have hlast := begins_le_ids o t₃
  have hcount : t.countP (begins o) = 0 := by
    rw [hrun.trace, ids_append, ids_append] at hids
    rw [hrun.trace, List.countP_append, List.countP_append]
    omega
  intro e he
  simpa using List.countP_eq_zero.mp hcount e he

/-- No connection is begun: then all that was created is released. -/
lemma RoleStages.released (hnone : ∀ e ∈ t, begins o e = false) : Released t ctx := by
  obtain ⟨ch, conns, rfl, rfl⟩ := initTest_returns hrun.init
  rw [hrun.trace] at hnone
  obtain ⟨-, hnone⟩ := List.forall_mem_append.mp hnone
  obtain ⟨hnone₂, hnone₃⟩ := List.forall_mem_append.mp hnone
  obtain ⟨hobjects, hcreated, huses⟩ := roleSetup_barren hnone₂ rfl hrun.setup
  have hlast := barren_of_channel hrun.later hnone₃
  have hclean := cleanupTest_of_objects (hrun.objects.trans hobjects)
  have hbare : cleanupTest { ({} : TestContext) with
      eventCh := some ch
      listenCmId := ctx₀.listenCmId }
      = ctx₀.listenCmId.toList.map .cmId ++ [.conns, .eventChannel ch] := by
    simp [cleanupTest, cleanupQueues, cleanupBuffer]
  refine ⟨?_, fun e he p hp => ?_⟩
  · rw [hclean, hrun.trace, List.flatMap_append, List.flatMap_append, hcreated, hlast.created_eq,
      List.append_nil, hbare]
    exact List.perm_append_comm.trans ((List.Perm.swap _ _ _).append_left _)
  · have hmem : p ∈ t.flatMap uses := List.mem_flatMap.mpr ⟨e, he, hp⟩
    rw [hrun.trace, List.flatMap_append, List.flatMap_append, huses, hlast.uses_eq] at hmem
    simp [uses] at hmem

end

/-- **What is cleaned up**: all that the run created, in order, exactly if no connection was
begun.

Where none was begun a run has created the id that listens at most, and `cleanup_test` destroys
that.  Where one was begun there are two cases.  With no connection recorded the id of the begun
one is lost.  With one recorded the buffer was registered before (`roleSetup_accounts`), and its
memory is freed while it still is. -/
theorem released_iff (o : Options) (fuel : ℕ) (t : Trace) (ctx : TestContext)
    (h : RoleRun o fuel t ctx) (hcm : o.isClient → InSequence (cmEvents t)) :
    Released t ctx ↔ ∀ e ∈ t, begins o e = false := by
  obtain ⟨t₁, t₂, t₃, s, ctx₀, ret, hrun⟩ := h.stages
  exact ⟨hrun.none_begun hcm, hrun.released⟩

/-- The context behind `init_test`. -/
def started : TestContext := { ({} : TestContext) with eventCh := some 1 }

/-- What `init_test` does where it succeeds. -/
def startCalls (o : Options) : Trace :=
  [⟨.createEventChannel, some 1⟩, ⟨.callocConns o.numConnections, some 1⟩]

lemma initTest_starts (o : Options) :
    Returns ((initTest o).run {}) (startCalls o) (0, started) :=
  returns_run_perform_bind.mpr ⟨some 1, _, rfl, returns_run_perform_bind.mpr ⟨some 1, _, rfl,
    returns_run_pure.mpr ⟨rfl, rfl, rfl⟩⟩⟩

/-- A world in which the port is taken. -/
def portTaken : List CmEvent → (v : Verb) → Reply v × List CmEvent
  | evs, .bindAddr .. => (-1, evs)
  | evs, v => obliging evs v

/-- A server that cannot listen. -/
theorem released_iff_portTaken : ∃ t ctx, RoleRun gOptions 1 t ctx ∧
    ctx.listenCmId = some 1 ∧ Released t ctx := by
  obtain ⟨t, ⟨ret, ctx⟩, hr, htest⟩ := exists_of_play portTaken []
    ((roleSetup gOptions 1).run started)
    (fun t r => decide (r.1 = -1) && (decide (r.2.listenCmId = some 1) &&
      (startCalls gOptions ++ t).all fun e : Event Verb Reply => !begins gOptions e))
    (by decide +kernel)
  simp only [Bool.and_eq_true, decide_eq_true_eq] at htest
  obtain ⟨rfl, hlisten, hbegins⟩ := htest
  have hrun : RoleRun gOptions 1 (startCalls gOptions ++ t) ctx :=
    RoleRun.setupFails _ _ _ _ _ (initTest_starts gOptions) hr (by decide)
  refine ⟨_, ctx, hrun, hlisten, (released_iff gOptions 1 _ ctx hrun ?_).mpr ?_⟩
  · exact fun hclient => absurd hclient (by decide)
  · intro e he
    simpa using List.all_eq_true.mp hbegins e he

/-- A client with one connection. -/
def goodClient : Options := { gOptions with destAddress := ['h'] }

/-- A world in which every call succeeds, and every buffer and memory region is a new one. -/
def freshWorld : ℕ × List CmEvent → (v : Verb) → Reply v × (ℕ × List CmEvent)
  | (n, evs), .memalign .. => (4096 * n, (n + 1, evs))
  | (n, evs), .regMr .. => (some ⟨n, n, n⟩, (n + 1, evs))
  | (n, evs), v => ((obliging evs v).1, (n, (obliging evs v).2))

/-- The events of its setup phase. -/
def goodClientEvents : List CmEvent :=
  [eventFor .addrResolved 1, eventFor .routeResolved 1, eventFor .established 1]

/-- What is released at its end. -/
def goodClientCleanup : List Resource :=
  [.cmId 1, .srq 1, .cq 1, .buffer 12288, .mr 4, .buffer 4096, .mr 2, .conns, .eventChannel 1]

/-- `disconnect` over RC with one connection: the FINs are exchanged and the peer disconnects. -/
lemma oneConnection_disconnects (hrc : o.transport = .rc) (hnum : ctx.numConns = 1)
    (hfin : ctx.numFinRecvd = 0) (hdisc : ctx.numDisconnect = 0) :
    ∃ t₃ ctx', Disconnects o (.sendFin ctx 0) t₃ (.cleanup ctx') := by
  let ctx₁ : TestContext := { ctx with numFinRecvd := incr 32 ctx.numFinRecvd }
  let ctx₂ : TestContext := { ctx₁ with numDisconnect := incr 32 ctx₁.numDisconnect }
  let ev := eventFor .disconnected 1
  have hsent : (sendFin o ctx 0 0 fun _ => 0).1 = .sendFin ctx 1 := by
    simp [sendFin, sendControl, hrc, hnum]
  have hall : (sendFin o ctx 1 0 fun _ => 0).1 = .finTest ctx := by simp [sendFin, hnum]
  have hwait : finTest o ctx = .finPoll ctx := by simp [finTest, hfin, hnum]
  have hpoll : finPoll o ctx (.wc { opcode := .recv ⟨packetFin, 0⟩ }) = .finTest ctx₁ := by
    simp [finPoll, pollCq, processWc, ctx₁]
  have hleave : finTest o ctx₁ = .disconnecting ctx₁ 0 := by
    simp [finTest, ctx₁, hfin, hnum, hrc, incr]
  have hdiscWait : discTest ctx₁ = .discEvent ctx₁ := by simp [discTest, ctx₁, hdisc, hnum]
  have hcount : Returns ((processEvent o ev).run ctx₁) [] ((0, true), ctx₂) :=
    returns_run_pure.mpr ⟨rfl, rfl, rfl⟩
  have hevent : Returns ((waitAndProcessOneEvent o disconnectMask).run ctx₁)
      [⟨.getCmEvent, (0, ev)⟩, ⟨.ackCmEvent, 0⟩] (0, ctx₂) := by
    refine returns_run_perform_bind.mpr ⟨(0, ev), _, rfl, ?_⟩
    dsimp only
    have hadmits : Admits disconnectMask ev.type := admits_disconnectMask.mpr rfl
    rw [if_neg (by simp), if_neg (not_not.mpr hadmits)]
    refine returns_run_bind.mpr ⟨[], _, (0, true), ctx₂, rfl, hcount, ?_⟩
    exact returns_run_perform_bind.mpr ⟨0, [], rfl, returns_run_pure.mpr ⟨rfl, rfl, rfl⟩⟩
  have hdone : discTest ctx₂ = .cleanup ctx₂ := by simp [discTest, ctx₂, ctx₁, hdisc, hnum, incr]
  have hone : ctx₁.numConns = 1 := hnum
  have hlast := Disconnects.head (o := o) (.discTest ctx₂) hdone (.refl _)
  have hlast := Disconnects.head (.discEvent ctx₁ ctx₂ _ 0 hevent) rfl hlast
  have hlast := Disconnects.head (.discTest ctx₁) hdiscWait hlast
  have hlast := Disconnects.head (.disconnected ctx₁ 1 (by omega)) rfl hlast
  have hlast := Disconnects.head (.rdmaDisconnect ctx₁ 0 0 (by omega)) rfl hlast
  have hlast := Disconnects.head (.finTest ctx₁) hleave hlast
  have hlast := Disconnects.head (.finPoll ctx _) hpoll hlast
  have hlast := Disconnects.head (.finTest ctx) hwait hlast
  have hlast := Disconnects.head (.sendFin ctx 1 0 _) hall hlast
  exact ⟨_, _, Disconnects.head (.sendFin ctx 0 0 _) hsent hlast⟩

/-- **A client whose run goes well**: its queue pair is never destroyed, and the memory of its
buffers is freed before it is deregistered. -/
theorem goodClient_notReleased : ∃ t ctx, RoleRun goodClient 4 t ctx ∧
    .connQp 1 ∈ t.flatMap created ∧ cleanupTest ctx = goodClientCleanup ∧
    ¬ InOrder t (cleanupTest ctx) ∧ ¬ Released t ctx := by
  obtain ⟨t, ⟨ret, ctx⟩, hr, htest⟩ := exists_of_play freshWorld (1, goodClientEvents)
    ((roleSetup goodClient 4).run started)
    (fun t r => decide (r.1 = 0) && (decide (r.2.numConns = 1) && (decide (r.2.numFinRecvd = 0) &&
      (decide (r.2.numDisconnect = 0) && (decide (.connQp 1 ∈ t.flatMap created) &&
        (decide (((.mr 4, .buffer 12288) : Resource × Resource) ∈ t.flatMap uses) &&
          decide (cleanupTest r.2 = goodClientCleanup)))))))
    (by decide +kernel)
  simp only [Bool.and_eq_true, decide_eq_true_eq] at htest
  obtain ⟨rfl, hnum, hfin, hdisc, hqp, huses, hclean⟩ := htest
  obtain ⟨t₃, ctx', hdisconnects⟩ := oneConnection_disconnects (o := goodClient.inForce) rfl hnum
    hfin hdisc
  have hrun : RoleRun goodClient 4 (startCalls goodClient ++ (t ++ t₃)) ctx' :=
    RoleRun.disconnects _ _ _ _ _ _ _ _ (initTest_starts goodClient) hr (.client rfl) hdisconnects
      (Or.inr rfl)
  have hclean' : cleanupTest ctx' = goodClientCleanup :=
    (cleanupTest_of_objects hdisconnects.objects_eq.1).trans hclean
  have horder : ¬ InOrder (startCalls goodClient ++ (t ++ t₃)) (cleanupTest ctx') := by
    intro hin
    obtain ⟨e, he, hp⟩ := List.mem_flatMap.mp huses
    have hmem : e ∈ startCalls goodClient ++ (t ++ t₃) :=
      List.mem_append_right _ (List.mem_append_left _ he)
    exact absurd (hin e hmem _ hp [.cmId 1, .srq 1, .cq 1] _ hclean') (by decide)
  refine ⟨_, ctx', hrun, ?_, hclean', horder, fun h => horder h.inOrder⟩
  rw [List.flatMap_append, List.flatMap_append]
  exact List.mem_append_right _ (List.mem_append_left _ hqp)

end Result

end RdmaFc
