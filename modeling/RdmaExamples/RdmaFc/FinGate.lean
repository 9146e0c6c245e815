import RdmaExamples.RdmaFc.Teardown

/-!
# The gate before the teardown

`disconnect` waits until it has counted a FIN for every connection, and tears its queue pairs down.
What it counts are the peers' FINs.  Whether its own have arrived is not looked at, although their
completions come through the same `poll_cq`.

* `FinsDone` — what the gate is to ensure: every queue pair torn down had its FIN completed.
* `TornOk` — an invariant of every run: only a process past the wait loop has torn anything down,
  and only what is its own.
* `flushes_of_leave` — a process that has counted its FINs leaves the loop at its next test, and
  flushes those of its own that have not completed by then.
* `serverFin_flushed` — a run in which that happens: the server has counted the client's FIN before
  it has sent its own.

Nothing in the gate depends on the transport, on the number of connections or on the reads: what
decides whether a FIN is flushed is whether the network has completed it by the time its sender
leaves the loop.  For which schedules that is so is `FinOrder`.
-/

namespace RdmaFc

open MachineWords

/-- Every queue pair torn down had its FIN completed. -/
def FinsDone (s : Sys) : Prop := ∀ p k, s.torn p k = true → (s.sent p k).Done

instance (st : SendStatus) : Decidable st.Done := by
  cases st <;> unfold SendStatus.Done <;> infer_instance

/-- The process is past the wait loop. -/
def Proc.Past : Proc → Prop
  | .disconnecting _ _ => True
  | .discTest _ => True
  | .discEvent _ => True
  | .cleanup _ => True
  | _ => False

section Tables

variable {α : Type} {f : Party → ℕ → α} {p q : Party} {k j : ℕ} {v : α}

@[simp] lemma put_same : put f p k v p k = v := if_pos ⟨rfl, rfl⟩

lemma put_of_ne (h : ¬ (q = p ∧ j = k)) : put f p k v q j = f q j := if_neg h

lemma put_of_party_ne (h : q ≠ p) : put f p k v q = f q := by
  funext j
  exact put_of_ne fun hqj => h hqj.1

/-- A property of the entries that the new one has too. -/
lemma put_property {P : α → Prop} (hv : P (f p k) → P v) (h : P (f q j)) : P (put f p k v q j) := by
  by_cases hqj : q = p ∧ j = k
  · rw [hqj.1, hqj.2] at h ⊢
    rw [put_same]
    exact hv h
  · rwa [put_of_ne hqj]

@[simp] lemma done_flush {st : SendStatus} : st.flush.Done ↔ st.Done := by
  cases st <;> simp [SendStatus.flush, SendStatus.Done]

@[simp] lemma setProc_self (s : Sys) (p : Party) (proc : Proc) :
    (s.setProc p proc).procs p = proc := by simp [Sys.setProc]

lemma setProc_of_ne (s : Sys) (proc : Proc) (h : q ≠ p) :
    (s.setProc p proc).procs q = s.procs q := by simp [Sys.setProc, h]

lemma tear_sent {s : Sys} : (((s.tear p k).sent q j).Done ↔ (s.sent q j).Done) := by
  by_cases hqj : q = p ∧ j = k
  · rw [hqj.1, hqj.2]
    simp [Sys.tear]
  · simp [Sys.tear, put_of_ne hqj]

lemma tear_torn {s : Sys} : (s.tear p k).torn q j = true ↔
    (q = p ∧ j = k) ∨ s.torn q j = true := by
  by_cases hqj : q = p ∧ j = k
  · rw [hqj.1, hqj.2]
    simp [Sys.tear]
  · simp [Sys.tear, put_of_ne hqj, hqj]

variable {n : Network} {s : Sys}

@[simp] lemma tearAll_procs : ∀ m, (s.tearAll n p m).procs = s.procs
  | 0 => rfl
  | m + 1 => tearAll_procs m

@[simp] lemma tearAll_recvd : ∀ m, (s.tearAll n p m).recvd = s.recvd
  | 0 => rfl
  | m + 1 => tearAll_recvd m

lemma tearAll_sent : ∀ m, ((s.tearAll n p m).sent q j).Done ↔ (s.sent q j).Done
  | 0 => Iff.rfl
  | m + 1 => tear_sent.trans (tearAll_sent m)

lemma tearAll_torn : ∀ m, (s.tearAll n p m).torn q j = true ↔
    (q = p ∧ ∃ i < m, j = n.index p i) ∨ s.torn q j = true
  | 0 => by simp [Sys.tearAll]
  | m + 1 => by
      rw [Sys.tearAll, tear_torn, tearAll_torn m]
      constructor
      · rintro (⟨hq, hj⟩ | ⟨hq, i, hi, hj⟩ | h)
        · exact Or.inl ⟨hq, m, Nat.lt_succ_self m, hj⟩
        · exact Or.inl ⟨hq, i, Nat.lt_succ_of_lt hi, hj⟩
        · exact Or.inr h
      · rintro (⟨hq, i, hi, hj⟩ | h)
        · rcases Nat.lt_succ_iff_lt_or_eq.mp hi with hi | rfl
          · exact Or.inr (Or.inl ⟨hq, i, hi, hj⟩)
          · exact Or.inl ⟨hq, hj⟩
        · exact Or.inr (Or.inr h)

end Tables

/-! ## Where queue pairs are torn down -/

section Torn

variable {n : Network} {s s' : Sys} {choice : SysChoice} {es : List ReadEvent} {p : Party}

/-- Whoever is at this place is not past the loop. -/
lemma not_past {proc : Proc} (hp : s.procs p = proc) (hproc : ¬ proc.Past) :
    ¬ (s.procs p).Past := by rwa [hp]

/-- Only past the wait loop is anything torn down, and only what is the process's own. -/
def TornOk (n : Network) (s : Sys) : Prop :=
  ∀ p k, s.torn p k = true →
    (s.procs p).Past ∧ ∃ i < (s.procs p).ctx.numConns, k = n.index p i

/-- One process goes on. -/
lemma TornOk.setProc {x : Proc} (h : TornOk n s)
    (hstay : (s.procs p).Past → x.Past ∧ x.ctx.numConns = (s.procs p).ctx.numConns) :
    TornOk n (s.setProc p x) := by
  intro q k hk
  obtain ⟨hq, hown⟩ := h q k hk
  by_cases hqp : q = p
  · subst hqp
    obtain ⟨hproc, hconns⟩ := hstay hq
    rw [setProc_self]
    exact ⟨hproc, hconns ▸ hown⟩
  · rw [setProc_of_ne s x hqp]
    exact ⟨hq, hown⟩

lemma TornOk.setProc_before {proc x : Proc} (h : TornOk n s) (hp : s.procs p = proc)
    (hproc : ¬ proc.Past) : TornOk n (s.setProc p x) :=
  h.setProc fun hpast => absurd hpast (not_past hp hproc)

lemma TornOk.setProc_past {proc x : Proc} (h : TornOk n s) (hp : s.procs p = proc)
    (hproc : x.Past) (hconns : x.ctx.numConns = proc.ctx.numConns) :
    TornOk n (s.setProc p x) :=
  h.setProc fun _ => ⟨hproc, by rw [hp, hconns]⟩

theorem TornOk.step (h : TornOk n s) (hs : SysStep n s choice es s') : TornOk n s' := by
  cases hs with
  | start p ctx hp _ => exact h.setProc_before hp id
  | reads r r' c es hp _ _ => exact h.setProc_before hp id
  | readsFin r r' k packet es _ hp _ _ => exact h.setProc_before (x := .reads r') hp id
  | leaveReads r hp _ => exact h.setProc_before hp id
  | sendFin p ctx ctx' i wr hp _ _ _ =>
      exact h.setProc_before (x := .sendFin ctx' (i + 1)) hp id
  | finsSent p ctx i hp _ => exact h.setProc_before hp id
  | abort p ctx stop hp s' hs =>
      have h' : TornOk n (s.setProc p (.stopped ctx stop)) := by
        rcases hp with ⟨i, hp⟩ | hp
        · exact h.setProc_before hp id
        · exact h.setProc_before hp id
      rcases hs with rfl | ⟨k, wr, _, rfl⟩
      · exact h'
      · exact h'
  | wait p ctx hp _ => exact h.setProc_before hp id
  | leave p ctx _ hp _ _ => exact h.setProc_before hp id
  | leaveDc p ctx _ hp _ _ =>
      have h' := h.setProc_before (x := .cleanup ctx) hp id
      intro q k hk
      rw [tearAll_procs]
      rcases (tearAll_torn _).mp hk with ⟨rfl, i, hi, rfl⟩ | hk
      · rw [setProc_self]
        exact ⟨trivial, i, hi, rfl⟩
      · exact h' q k hk
  | pollEmpty p ctx hp => exact h.setProc_before hp id
  | pollFin p ctx k packet _ hp _ =>
      exact h.setProc_before (x := .finTest { ctx with
        numFinRecvd := if packet.type = packetFin then incr 32 ctx.numFinRecvd
          else ctx.numFinRecvd }) hp id
  | pollSend p ctx ctx' k wr hp _ _ => exact h.setProc_before (x := .finTest ctx') hp id
  | disconnect p ctx i hp hi =>
      have h' := h.setProc_past (x := .disconnecting ctx (i + 1)) hp trivial rfl
      intro q k hk
      rcases tear_torn.mp hk with ⟨rfl, rfl⟩ | hk
      · have hproc : ((s.setProc q (.disconnecting ctx (i + 1))).tear q (n.index q i)).procs q
            = .disconnecting ctx (i + 1) := setProc_self _ _ _
        rw [hproc]
        exact ⟨trivial, i, hi, rfl⟩
      · exact h' q k hk
  | disconnected p ctx i hp _ => exact h.setProc_past hp trivial rfl
  | waitDisc p ctx hp _ => exact h.setProc_past hp trivial rfl
  | leaveDisc p ctx hp _ => exact h.setProc_past hp trivial rfl
  | discEvent p ctx k hp =>
      exact h.setProc_past (x := .discTest { ctx with
        numDisconnect := incr 32 ctx.numDisconnect }) hp trivial rfl
  | deliver c i toServer wr _ _ => exact h
  | complete p k wr _ _ => exact h

theorem tornOk_start (n : Network) : TornOk n (Sys.start n) :=
  fun _ _ hk => absurd hk (by simp [Sys.start])

/-! ## A process that leaves too early -/

/-- The steps of a process that disconnects its connections one after the other. -/
lemma flushes_of_disconnecting {ctx : TestContext} {i : ℕ} (hi : i < ctx.numConns) :
    ∀ left {s : Sys} {j : ℕ}, i = j + left → s.procs p = .disconnecting ctx j →
    ¬ (s.sent p (n.index p i)).Done →
    ∃ s', Runs.Run (nextSys n) Runs.always s [] s' ∧ ¬ FinsDone s' := by
  intro left
  induction left with
  | zero =>
      intro s j hij hp hdone
      obtain rfl : i = j := by omega
      refine ⟨_, Runs.Run.single (c := .rdmaDisconnect p)
        (by simp only [nextSys, hp, if_pos hi]; rfl), fun hall => ?_⟩
      have := hall p (n.index p i) (tear_torn.mpr (Or.inl ⟨rfl, rfl⟩))
      rw [tear_sent] at this
      exact hdone this
  | succ left ih =>
      intro s j hij hp hdone
      have hj : j < ctx.numConns := by omega
      have hstep : nextSys n s (.rdmaDisconnect p)
          = some ((s.setProc p (.disconnecting ctx (j + 1))).tear p (n.index p j), []) := by
        simp only [nextSys, hp, if_pos hj]
      obtain ⟨s', hrun, hs'⟩ := ih (s := (s.setProc p (.disconnecting ctx (j + 1))).tear p
        (n.index p j)) (j := j + 1) (by omega) (by simp [Sys.tear]) (by rwa [tear_sent])
      exact ⟨s', Runs.Run.append (Runs.Run.single hstep) hrun, hs'⟩

/-- **Leaving too early.**  A process that tests the loop once it has counted its FINs, one of its
own not completed, goes on to flush it, if the network leaves it the time.  Behind the loop over RC
each connection is torn down in its turn, over DC all at once, and neither looks at the sends. -/
theorem flushes_of_leave {ctx : TestContext} {i : ℕ} (hp : s.procs p = .finTest ctx)
    (hge : ctx.numConns ≤ ctx.numFinRecvd) (hi : i < ctx.numConns)
    (hdone : ¬ (s.sent p (n.index p i)).Done) :
    ∃ s', Runs.Run (nextSys n) Runs.always s [] s' ∧ ¬ FinsDone s' := by
  have hstep : nextSys n s (.finTest p) = some (s.afterFinTest n p ctx, []) := by
    simp only [nextSys, hp]
  have hrun : Runs.Run (nextSys n) Runs.always s [] (s.afterFinTest n p ctx) :=
    Runs.Run.single hstep
  cases hx : (n.opts p).transport with
  | rc =>
      have hafter : s.afterFinTest n p ctx = s.setProc p (.disconnecting ctx 0) := by
        simp only [Sys.afterFinTest, finTest, if_neg (not_lt.mpr hge), hx]
      rw [hafter] at hrun
      obtain ⟨s', hrun', hs'⟩ := flushes_of_disconnecting (n := n) (p := p) hi i
        (s := s.setProc p (.disconnecting ctx 0)) (j := 0) (by omega) (by simp) hdone
      exact ⟨s', hrun.append hrun', hs'⟩
  | dc =>
      have hafter : s.afterFinTest n p ctx
          = (s.setProc p (.cleanup ctx)).tearAll n p ctx.numConns := by
        simp only [Sys.afterFinTest, finTest, if_neg (not_lt.mpr hge), hx]
      rw [hafter] at hrun
      refine ⟨_, hrun, fun hall => hdone ?_⟩
      have := hall p (n.index p i) ((tearAll_torn _).mpr (Or.inl ⟨rfl, i, hi, rfl⟩))
      rwa [tearAll_sent] at this

end Torn

/-! ## A FIN that is flushed -/

/-- One client with one connection, and a server that reads it once. -/
def oneClient : Network where
  opts
    | .server => oneReadOptions
    | .client _ => gOptions
  ctx
    | .server => oneConnContext
    | .client c => if c = 0 then oneConnContext else {}
  numClients := 1
  conn _ _ := 0
  conn_lt c i hi := by decide
  conn_inj c i c' j hi hj _ := by
    have hone : ∀ c i, i < (if c = 0 then oneConnContext else {}).numConns → c = 0 ∧ i = 0 := by
      intro c i hi
      split at hi
      · rename_i hc
        exact ⟨hc, Nat.lt_one_iff.mp hi⟩
      · exact absurd hi (Nat.not_lt_zero i)
    obtain ⟨rfl, rfl⟩ := hone c i hi
    obtain ⟨rfl, rfl⟩ := hone c' j hj
    exact ⟨rfl, rfl⟩
  numConns_lt
    | .server => by decide
    | .client c => by
        dsimp only
        split <;> decide
  numFinRecvd_eq
    | .server => rfl
    | .client c => by
        dsimp only
        split <;> rfl

/-- The DCI that is drawn for every FIN. -/
def firstDci : Fin numDci := 0

/-- The client sends its FIN, which the server counts among its reads; the server reads, and sends
its own FIN. -/
def upToServerFin : List SysChoice :=
  [.start (.client 0), .sendFin (.client 0) firstDci, .sendFin (.client 0) firstDci,
    .deliver 0 0 true, .start .server, .reads .tick, .reads .tick, .reads (.post 0), .readsFin 0,
    .reads .tick, .reads (.post 0), .reads (.pollRead 0), .reads .tick, .reads .tick, .leaveReads,
    .sendFin .server firstDci, .sendFin .server firstDci]

/-- The server counted the client's FIN while it was reading, so it disconnects right after sending
its own, which is still on its way and is flushed. -/
theorem serverFin_flushed : ∃ tr s, SysRun oneClient tr s ∧ ¬ FinsDone s ∧
    s.torn .server 0 = true ∧ s.recvd (.client 0) 0 = .none := by
  obtain ⟨tr, s, hrun, htest⟩ := Runs.Run.exists_of_play (nextSys oneClient)
    (Sys.start oneClient) (upToServerFin ++ [.finTest .server, .rdmaDisconnect .server])
    (fun r => r.1.torn .server 0 && decide (¬ (r.1.sent .server 0).Done) &&
      match r.1.recvd (.client 0) 0 with
      | .none => true
      | _ => false) (by decide +kernel)
  simp only [Bool.and_eq_true, decide_eq_true_eq] at htest
  obtain ⟨⟨htorn, hdone⟩, hrecvd⟩ := htest
  refine ⟨tr, s, hrun, fun hall => hdone (hall _ _ htorn), htorn, ?_⟩
  cases hr : s.recvd (.client 0) 0 <;> simp [hr] at hrecvd ⊢

end RdmaFc
