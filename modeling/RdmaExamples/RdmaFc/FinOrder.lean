import RdmaExamples.RdmaFc.ReadsFirst

/-!
# The order in which FINs complete

Whether a FIN is lost at teardown is a matter of timing, and no test of the code decides it.  What
decides it is the order in which the network and the processes move: a schedule is *in order* when
each process takes the last FIN that it waits for only after the network has completed the FINs that
it has sent itself (`TakesInOrder`).

* `Timely` — the invariant: what the schedule so far says about the state.  A process has counted as
  many FINs as it has taken, a FIN is completed just where the network has reported it, and a
  process that has taken all its FINs has its own completed.
* `timely_of_ordered` — every schedule in order keeps it.
* `finsDone_of_inOrder` — so no FIN is lost on such a schedule; and where a process takes its last
  FIN out of order in its wait loop, it can go on to flush one of its own.

A schedule on which the server takes its last FIN while it still reads is never in order, since it
has sent none by then: its wait loop is passed without waiting, as in `serverFin_flushed`.
-/

namespace RdmaFc

open MachineWords

/-! ## Schedules -/

/-- Who takes a FIN off its completion queue. -/
def taker : SysChoice → Option Party
  | .readsFin _ => some .server
  | .pollFin p _ => some p
  | _ => none

/-- The choice is that `p` takes a FIN. -/
def takes (p : Party) (c : SysChoice) : Bool := decide (taker c = some p)

/-- Where a process takes the last FIN that it waits for, the network has completed the FINs that it
has sent. -/
def TakesInOrder (n : Network) (past : List SysChoice) (c : SysChoice) : Prop :=
  ∀ p, taker c = some p → past.countP (takes p) + 1 = (n.ctx p).numConns →
    ∀ i < (n.ctx p).numConns, .complete p (n.index p i) ∈ past

instance (n : Network) (past : List SysChoice) (c : SysChoice) :
    Decidable (TakesInOrder n past c) :=
  decidable_of_iff (∀ p ∈ taker c, past.countP (takes p) + 1 = (n.ctx p).numConns →
    ∀ i < (n.ctx p).numConns, .complete p (n.index p i) ∈ past) Iff.rfl

section Steps

variable {n : Network} {s s' : Sys} {choice : SysChoice} {tr es : List ReadEvent} {p q : Party}
  {k j : ℕ}

/-! ## What a step completes and takes -/

/-- An entry of the table of sends changes, and is over if and only if it was. -/
lemma put_done {f : Party → ℕ → SendStatus} {v : SendStatus} (hv : v.Done ↔ (f q j).Done) :
    (put f q j v p k).Done ↔ (f p k).Done := by
  by_cases hpk : p = q ∧ k = j
  · rw [hpk.1, hpk.2, put_same]
    exact hv
  · rw [put_of_ne hpk]

/-- A step of a process, or a delivery, does not complete a send, and loses no completion. -/
lemma done_kept (h : SysOk n s) (hne : choice ≠ .complete p k)
    (hs : SysStep n s choice es s') : (s'.sent p k).Done ↔ (s.sent p k).Done := by
  cases hs with
  | sendFin q ctx ctx' i wr hp hi _ _ =>
      have hconns := (h.procs q).numConns
      rw [hp] at hconns
      have hun := h.fins.unsent q i (by rw [hp]; rfl) i le_rfl (hconns ▸ hi)
      refine put_done ?_
      rw [hun]
      exact Iff.rfl
  | abort q ctx stop hp s' hs =>
      rcases hs with rfl | ⟨j, wr, hc, rfl⟩
      · exact Iff.rfl
      · refine put_done ?_
        rw [hc]
        exact Iff.rfl
  | leaveDc q ctx _ hp _ _ => exact tearAll_sent _
  | pollSend q ctx ctx' j wr hp hc _ =>
      refine put_done ?_
      rw [hc]
      exact Iff.rfl
  | disconnect q ctx i hp _ => exact tear_sent
  | deliver c i toServer wr hsent hi =>
      refine put_done ?_
      rw [hsent]
      exact Iff.rfl
  | complete q j wr hchoice hsent =>
      have hqj : ¬ (p = q ∧ k = j) := by
        rintro ⟨rfl, rfl⟩
        exact hne hchoice
      exact iff_of_eq (congrArg SendStatus.Done (put_of_ne hqj))
  | start | reads | readsFin | leaveReads | finsSent | wait | leave | pollEmpty | pollFin
  | disconnected | waitDisc | leaveDisc | discEvent => exact Iff.rfl

/-- **What a step completes**: what the network reports, and nothing else. -/
lemma done_step (h : SysOk n s) (hs : nextSys n s choice = some (s', es)) :
    (s'.sent p k).Done ↔ (s.sent p k).Done ∨ choice = .complete p k := by
  by_cases hchoice : choice = .complete p k
  · subst hchoice
    obtain ⟨wr, -, -, rfl⟩ := complete_cases hs
    refine iff_of_true ?_ (Or.inr rfl)
    show (put s.sent p k (.completed wr) p k).Done
    rw [put_same]
    trivial
  · rw [done_kept h hchoice (nextSys_step hs)]
    exact (or_iff_left hchoice).symm

/-- Without a choice that takes a FIN, none is counted. -/
lemma counted_kept (h : SysOk n s) (hnone : taker choice = none)
    (hs : SysStep n s choice es s') : counted n s' p = counted n s p := by
  cases hs with
  | readsFin r r' k packet es hchoice => exact absurd hnone (by simp [hchoice, taker])
  | pollFin q ctx k packet hchoice => exact absurd hnone (by simp [hchoice, taker])
  | abort q ctx stop hp s' hs =>
      rcases hs with rfl | ⟨k, wr, -, rfl⟩
      · rfl
      · rfl
  | leaveDc q ctx _ hp _ _ => rw [counted, counted, tearAll_recvd]; rfl
  | deliver c i toServer wr hsent hi => exact counted_deliver h.fins hsent hi _ p
  | start | reads | leaveReads | sendFin | finsSent | wait | leave | pollEmpty | pollSend
  | disconnect | disconnected | waitDisc | leaveDisc | discEvent | complete => rfl

/-- **What a step takes** is counted once. -/
lemma taken_step (h : SysOk n s) (hs : nextSys n s choice = some (s', es)) :
    (counted n s' p).card = (counted n s p).card + if takes p choice = true then 1 else 0 := by
  have hplain : taker choice = none →
      (counted n s' p).card = (counted n s p).card + if takes p choice = true then 1 else 0 := by
    intro hnone
    rw [counted_kept h hnone (nextSys_step hs), takes, hnone]
    simp
  cases choice with
  | readsFin k =>
      obtain ⟨r, r', packet, -, hw, -, rfl⟩ := readsFin_cases hs
      rw [card_counted_count h.fins hw p]
      simp [takes, taker, eq_comm]
  | pollFin q k =>
      obtain ⟨ctx, packet, -, hw, -, rfl⟩ := pollFin_cases hs
      rw [card_counted_count h.fins hw p]
      simp [takes, taker, eq_comm]
  | _ => exact hplain rfl

/-! ## The invariant -/

/-- What the schedule so far says about the state. -/
structure Timely (n : Network) (past : List SysChoice) (s : Sys) : Prop where
  ok : SysOk n s
  taken : ∀ p, (counted n s p).card = past.countP (takes p)
  completed : ∀ p k, (s.sent p k).Done ↔ .complete p k ∈ past
  done : ∀ p, (n.ctx p).numConns ≤ past.countP (takes p) →
    ∀ i < (n.ctx p).numConns, (s.sent p (n.index p i)).Done

theorem timely_start (n : Network) : Timely n [] (Sys.start n) where
  ok := sysOk_start n
  taken p := by simp [counted, Sys.start, RecvStatus.isCounted]
  completed p k := iff_of_false id List.not_mem_nil
  done p hle i hi := absurd (hi.trans_le hle) (Nat.not_lt_zero i)

/-- **One choice in order.**  The last FIN of a process is taken where its own are completed, and
they stay so. -/
theorem Timely.step {past : List SysChoice} (h : Timely n past s)
    (horder : TakesInOrder n past choice) (hs : nextSys n s choice = some (s', es)) :
    Timely n (past ++ [choice]) s' where
  ok := h.ok.step (nextSys_step hs)
  taken p := by
    rw [taken_step h.ok hs, h.taken, List.countP_append, List.countP_singleton]
  completed p k := by
    rw [done_step h.ok hs, h.completed, List.mem_append, List.mem_singleton, eq_comm]
  done p hle i hi := by
    refine (done_step h.ok hs).mpr (Or.inl ?_)
    rw [List.countP_append, List.countP_singleton] at hle
    by_cases hbefore : (n.ctx p).numConns ≤ past.countP (takes p)
    · exact h.done p hbefore i hi
    · -- this choice takes the last FIN
      have htakes : takes p choice = true := by
        by_contra hnot
        rw [if_neg hnot] at hle
        exact hbefore hle
      rw [if_pos htakes] at hle
      have hmem := horder p (of_decide_eq_true htakes) (by omega) i hi
      exact (h.completed p _).mpr hmem

/-- Every schedule in order keeps it. -/
theorem timely_of_ordered {cs : List SysChoice}
    (horder : Runs.Ordered (TakesInOrder n) [] cs)
    (h : Runs.play (nextSys n) (Sys.start n) cs = some (s, tr)) : Timely n cs s :=
  horder.invariant (I := Timely n) (fun _ _ _ _ _ hI hok hs => hI.step hok hs) (timely_start n) h

/-- A process has torn nothing down before it has taken the FINs that it waits for. -/
theorem Timely.finsDone {past : List SysChoice} (h : Timely n past s) : FinsDone s := by
  intro p k hk
  obtain ⟨hpast, i, hi, rfl⟩ := h.ok.torn p k hk
  rw [(h.ok.procs p).numConns] at hi
  refine h.done p ?_ i hi
  rw [← h.taken]
  exact h.ok.numConns_le_counted hpast

/-- Out of order: the last FIN is taken in the wait loop, and one of the process's own is not
completed.  Its next test is its last, and it goes on to flush that FIN. -/
lemma Timely.flushes {past : List SysChoice} (h : Timely n past s)
    (hs : nextSys n s (.pollFin p k) = some (s', es))
    (horder : ¬ TakesInOrder n past (.pollFin p k)) :
    ∃ s'', Runs.Run (nextSys n) Runs.always s' [] s'' ∧ ¬ FinsDone s'' := by
  simp only [TakesInOrder, not_forall] at horder
  obtain ⟨q, hq, hlast, i, hi, hnot⟩ := horder
  obtain rfl : p = q := Option.some.inj hq
  have hok' := h.ok.step (nextSys_step hs)
  have htaken := taken_step (p := p) h.ok hs
  have htakes : takes p (.pollFin p k) = true := by simp [takes, taker]
  rw [if_pos htakes, h.taken, hlast, ← hok'.counts p] at htaken
  have hdone : ¬ (s'.sent p (n.index p i)).Done := by
    rw [done_step h.ok hs, h.completed]
    simp [hnot]
  obtain ⟨ctx', hp'⟩ : ∃ ctx', s'.procs p = .finTest ctx' := by
    obtain ⟨ctx, packet, -, -, -, rfl⟩ := pollFin_cases hs
    exact ⟨_, setProc_self s p _⟩
  have hconns := (hok'.procs p).numConns
  rw [hp'] at htaken hconns
  exact flushes_of_leave hp' (hconns.trans htaken.symm).le (hi.trans_eq hconns.symm) hdone

end Steps

/-! ## The result -/

/-- **When no FIN is lost.**  On every schedule in order, every queue pair torn down had its FIN
completed; a beginning of such a schedule is one as well, so that this holds all the way.  The gate
counts the peers' FINs, and a process has torn nothing down before it has taken them all; on such a
schedule its own are completed when it takes the last one.

And where a process takes its last FIN in the wait loop before that, the run can go on to flush one
of its own. -/
theorem finsDone_of_inOrder (n : Network) (cs : List SysChoice) (s : Sys) (tr : List ReadEvent)
    (horder : Runs.Ordered (TakesInOrder n) [] cs)
    (hplay : Runs.play (nextSys n) (Sys.start n) cs = some (s, tr)) :
    FinsDone s ∧ ∀ p k s' es, nextSys n s (.pollFin p k) = some (s', es) →
      ¬ TakesInOrder n cs (.pollFin p k) →
        ∃ s'', Runs.Run (nextSys n) Runs.always s' [] s'' ∧ ¬ FinsDone s'' := by
  have htimely := timely_of_ordered horder hplay
  exact ⟨htimely.finsDone, fun p k s' es hs hnot => htimely.flushes hs hnot⟩

/-- Server and client send their FINs, which are delivered and completed; then each takes the
other's FIN and disconnects. -/
def finsInOrder : List SysChoice :=
  [.start (.client 0), .sendFin (.client 0) firstDci, .sendFin (.client 0) firstDci,
    .start .server, .reads .tick, .reads .tick, .reads (.post 0), .reads .pollEmpty, .reads .tick,
    .reads (.post 0), .reads (.pollRead 0), .reads .tick, .reads .tick, .leaveReads,
    .sendFin .server firstDci, .sendFin .server firstDci, .deliver 0 0 true, .deliver 0 0 false,
    .complete .server 0, .complete (.client 0) 0, .finTest .server, .pollFin .server 0,
    .finTest .server, .rdmaDisconnect .server, .finTest (.client 0), .pollFin (.client 0) 0,
    .finTest (.client 0), .rdmaDisconnect (.client 0)]

/-- Both have disconnected, and both FINs are completed. -/
theorem finsDone_of_inOrder_oneClient : ∃ s tr,
    Runs.play (nextSys oneClient) (Sys.start oneClient) finsInOrder = some (s, tr) ∧
      s.torn .server 0 = true ∧ s.torn (.client 0) 0 = true ∧ FinsDone s := by
  have htorn : (Runs.play (nextSys oneClient) (Sys.start oneClient) finsInOrder).any
      (fun r => r.1.torn .server 0 && r.1.torn (.client 0) 0) = true := by decide +kernel
  cases hplay : Runs.play (nextSys oneClient) (Sys.start oneClient) finsInOrder with
  | none => simp [hplay] at htorn
  | some r =>
      obtain ⟨s, tr⟩ := r
      simp only [hplay, Option.any_some, Bool.and_eq_true] at htorn
      have horder : Runs.Ordered (TakesInOrder oneClient) [] finsInOrder := by decide +kernel
      exact ⟨s, tr, rfl, htorn.1, htorn.2,
        (finsDone_of_inOrder oneClient finsInOrder s tr horder hplay).1⟩

end RdmaFc
