import RdmaExamples.Messages.ExchangeRuns
import RdmaExamples.RdmaExample.Program

/-!
# The exchange of the message program

`server_run` and `client_run` keep to an exchange of one message (`nodeRun_exchange`), whatever the
verbs answer.  That has two consequences.

* A side returns `0` just if no verb has failed whose result it looks at (`nodeRun_zero_iff`): each
  of these verbs is followed by a test that leaves with its result, and behind the labels `ret` is
  not set again.  `rdma_disconnect` and `rdma_dereg_mr` are called there, and what they answer is
  dropped.
* None of its queues is ever asked for more than the one entry that it has been created with
  (`queues_hold`): a side posts only when what it posted before has been completed.
-/

namespace RdmaExample

open Programs Systems Monitors Messages

/-- There is no second message. -/
def tell : Tell := fun _ _ => none

/-- What a side sends. -/
def messageOf : Side → List UInt8
  | .server => List.replicate bufferSize 0
  | .client => datBuffer

section

variable {side : Side} {sendInline : Bool} {fuel : ℕ}
  {expected : Record → Event Call Reply → Prop}

/-- **Both sides keep to the exchange** of one message. -/
theorem nodeRun_exchange (side : Side) : Obeys (exchange tell 1 side expected)
    (fun r' x => LeavesIn 1 (· = [messageOf side]) r' x.1)
    ((nodeRun fuel side).run sendInline) {} := by
  cases side with
  | server =>
      refine leave_exchange (serverStart_exchange one_pos fun sendInline => ?_)
      refine attemptWait_exchange (recvComp_exchange ⟨rfl, one_pos, rfl⟩) ?_
      refine postSend_exchange
        ⟨⟨rfl, one_pos, rfl, one_pos⟩, fun h => absurd h (by simp [connected])⟩ ?_
      exact lastWait_exchange (sendComp_exchange one_pos) rfl ⟨rfl, rfl, rfl, rfl, rfl⟩ rfl
  | client =>
      refine Obeys.perform_bind ⟨Or.inl rfl, dat_fits, rfl⟩ fun _ _ => ?_
      refine leave_exchange (clientStart_exchange one_pos fun sendInline => ?_)
      refine postSend_exchange
        ⟨⟨rfl, one_pos, rfl, one_pos⟩, fun h => absurd h (by simp [connected])⟩ ?_
      refine attemptWait_exchange (sendComp_exchange one_pos) ?_
      exact lastWait_exchange (recvComp_exchange ⟨rfl, one_pos, rfl⟩) rfl
        ⟨rfl, rfl, rfl, rfl, rfl⟩ rfl

/-! ## Results -/

/-- **The result is `0` just if no verb has failed** whose result the function looks at.

The record of a side has the failure of every call in it, and a function leaves the exchange with
`0` if and only if its record has none: a test behind a verb leaves with a result other than `0`,
and the calls behind the labels neither set `ret` nor count as failures, whatever they answer. -/
theorem nodeRun_zero_iff {t : Trace} {x : Int × Bool}
    (h : Returns ((nodeRun fuel side).run sendInline) t x) :
    x.1 = 0 ↔ ∀ e ∈ t, failed e = false := by
  have hobeys : Obeys (exchange tell 1 side fun _ _ => True)
      (fun r' x => LeavesIn 1 (· = [messageOf side]) r' x.1)
      ((nodeRun fuel side).run sendInline) {} := nodeRun_exchange side
  have hleaves : LeavesIn 1 (· = [messageOf side]) (t.foldl Record.after {}) x.1 :=
    (hobeys.steps h (Monitor.countsOn_of_forall fun _ _ _ _ => trivial)).2
  rw [hleaves.zero, failed_foldl, Bool.false_or, List.any_eq_false]
  simp

/-- `rdma_disconnect` fails. -/
def disconnectFails : Event Call Reply → Bool
  | ⟨.disconnect, ret⟩ => decide (ret < 0)
  | _ => false

/-- Nothing fails but `rdma_disconnect`. -/
def undisturbed : (c : Call) → Reply c
  | .disconnect => (-1 : Int)
  | c => obliging (fun _ => ⟨0, 0⟩) (fun _ => []) c

/-- The client, where no verb fails but `rdma_disconnect`, whose answer is dropped. -/
theorem nodeRun_zero_iff_client : ∃ t x, Returns ((nodeRun 1 .client).run false) t x ∧
    (∃ e ∈ t, disconnectFails e = true) ∧ x.1 = 0 ∧ ∀ e ∈ t, failed e = false := by
  obtain ⟨t, x, hrun, htest⟩ := exists_of_play (fun (_ : Unit) c => (undisturbed c, ())) ()
    ((nodeRun 1 .client).run false) (fun t x => t.any disconnectFails && decide (x.1 = 0))
    (by decide +kernel)
  rw [Bool.and_eq_true, decide_eq_true_eq, List.any_eq_true] at htest
  obtain ⟨hdropped, hzero⟩ := htest
  exact ⟨t, x, hrun, hdropped, hzero, (nodeRun_zero_iff hrun).mp hzero⟩

end

section

variable {fuel : Side → ℕ} {tr : List (Systems.Label Side Call Reply Move)}
  {s : State Side Call Reply (Int × Bool) Link}

/-- The two programs at their start. -/
def nodes (fuel : Side → ℕ) (side : Side) : Prog Call Reply (Int × Bool) :=
  (nodeRun (fuel side) side).run false

/-- A run of the two programs, whatever the verbs answer. -/
abbrev NodeRun (fuel : Side → ℕ) := Runs.Run (next link) Runs.always ⟨nodes fuel, Link.start⟩

lemma nodes_inLine (h : NodeRun fuel tr s) : InLine 1 (recordOf tr) s.shared := by
  have hprocs : ∀ side, Obeys (exchange tell 1 side fun _ _ => True)
      (fun r' x => LeavesIn 1 (· = [messageOf side]) r' x.1) (nodes fuel side) {} :=
    fun side => nodeRun_exchange side
  exact (inLine_run hprocs (h.weaken fun _ choice _ => meets_true choice)).1

/-- What the queues have room for: each has been created with one entry. -/
structure QueuesHold (l : Link) (side : Side) : Prop where
  send : (l side).sendQueue.length + (l side).unreported + (l side).sendCq ≤ 1
  recv : (l side).posted + (l side).recvCq ≤ 1

/-- **No queue is asked for more than it has been created with**, in any run, whatever the verbs
answer; and as long as the connection works, a message that is on its way finds a receive.

A side posts a send only when the one before has been reported and taken, and a receive only when
the message of the one before has been looked at; its queues hold what has been posted and not
taken, which is at most one of each.  The client posts its receive before it connects and the
server before it accepts, and a side for which that fails gets no connection; so there is a receive
for each of the two messages.  All this is part of `InLine`, which every step keeps. -/
theorem queues_hold (h : NodeRun fuel tr s) (side : Side) :
    QueuesHold s.shared side ∧
      (s.shared.Works → 0 < (s.shared side).messages → 0 < (s.shared side.other).posted) := by
  have hinLine := nodes_inLine h
  exact ⟨⟨(hinLine.queues side).1, (hinLine.queues side).2⟩,
    fun hworks => hinLine.finds_receive hworks⟩

/-- The next calls of a side, which do not fail. -/
def turns (side : Side) (n : ℕ) : List (Choice Side Call Reply Move) :=
  List.replicate n (.call side (obliging (fun _ => ⟨0, 0⟩) (fun _ => [])))

/-- The message of the client is on its way. -/
theorem queues_hold_message : ∃ tr s, NodeRun (fun _ => 1) tr s ∧
    s.shared.Works ∧ (s.shared .client).messages = 1 ∧ 0 < (s.shared .server).posted ∧
      QueuesHold s.shared .client := by
  obtain ⟨tr, s, hrun, htest⟩ := Runs.Run.exists_of_play (next link)
    (⟨nodes fun _ => 1, Link.start⟩ : State Side Call Reply (Int × Bool) Link)
    (turns .server 3 ++ turns .client 6 ++ turns .server 5 ++ turns .client 2)
    (fun r => decide (r.1.shared.Works ∧ (r.1.shared .client).messages = 1)) (by decide +kernel)
  obtain ⟨hworks, hmessage⟩ := of_decide_eq_true htest
  obtain ⟨hqueues, hfinds⟩ := queues_hold hrun .client
  exact ⟨tr, s, hrun, hworks, hmessage, hfinds hworks (by rw [hmessage]; exact one_pos), hqueues⟩

end

end RdmaExample
