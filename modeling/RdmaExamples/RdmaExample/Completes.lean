import RdmaExamples.Messages.Underway
import RdmaExamples.RdmaExample.ExchangeRuns

/-!
# The message program comes to its end

Where no verb fails, both sides can always finish: from every state that they can come to, as long
as no loop has run out of fuel, there is a way on to the end, where both return `0` and each has
received what the other has sent (`nodes_complete`).

That a loop has fuel left is needed since a side that polls in vain runs out of it.  There is a way
on that polls only when something is there; that the two come to an end in every order is not
claimed, since a side may poll for ever.
-/

namespace RdmaExample

open Programs Systems Monitors Progress Messages

section

variable {sendInline : Bool} {side : Side}

/-- Neither program is cut off but in a loop. -/
theorem nodeRun_sturdy (fuel : ℕ) (side : Side) :
    Sturdy ok Advances ((nodeRun (fuel + 1) side).run sendInline) := by
  cases side with
  | server =>
      refine leave_sturdy (serverStart_sturdy fun _ => ?_)
      refine attemptWait_sturdy (waitRecvComp_sturdy fuel) fun _ => ?_
      refine attempt_sturdy rdmaPostSend_sturdy fun _ => ?_
      exact lastWait_sturdy (waitSendComp_sturdy fuel _)
  | client =>
      refine Sturdy.perform_bind fun _ _ => leave_sturdy (clientStart_sturdy fun _ => ?_)
      refine attempt_sturdy rdmaPostSend_sturdy fun _ => ?_
      refine attemptWait_sturdy (waitSendComp_sturdy fuel) fun _ => ?_
      exact lastWait_sturdy (waitRecvComp_sturdy fuel _)

end

section

variable {fuel : Side → ℕ} {tr : List (Systems.Label Side Call Reply Move)}
  {s : State Side Call Reply (Int × Bool) Link}

/-- A run of the two programs in which no verb fails. -/
abbrev GoodRun (fuel : Side → ℕ) := Runs.Run (next link) (Meets fun _ _ => Good)
  (⟨nodes fuel, Link.start⟩ : State Side Call Reply (Int × Bool) Link)

/-- Where a run has come to. -/
theorem goodRun_underway (h : GoodRun (fun side => fuel side + 1) tr s)
    (hfuel : ∀ side, s.procs side ≠ .halt) :
    Underway tell 1 (fun side => (· = [messageOf side])) Good (recordOf tr) s := by
  have hrun := Run.monitored (fun side => exchange tell 1 side fun _ => Good) (fun _ => {})
    (fun _ _ => Good) (I := fun _ g l => Steady 1 g l) (A := fun _ => True)
    (Q := fun side r x => LeavesIn 1 (· = [messageOf side]) r x.1)
    (fun _ _ _ _ _ _ => trivial) (fun _ _ _ _ _ => trivial) steady_start
    (fun side => nodeRun_exchange side)
    (fun _ _ _ _ _ _ hI hallowed hgood hs _ => ⟨hgood, steady_call hI hallowed hgood hs⟩)
    (fun _ _ _ _ _ hI hs _ => hI.device hI.accessesFit hs) h trivial
  refine ⟨hrun.1, hrun.2, fun side => ⟨?_, hfuel side⟩⟩
  have hsteps := Run.steps (h.weaken fun _ _ _ => trivial) side
  exact (nodeRun_sturdy (fuel side) side).1.steps hsteps (run_meets h side)

/-- **Both sides can always finish.**  From every state of a run in which no verb fails, as long as
no loop has run out of fuel, there is a way on to the end, and there both sides return `0`, and each
has received the one message that the other has sent.

Such a state is `Underway`: the two keep to the exchange, and nothing has failed.  Then some side
can make a call that takes it on, or a device can move (`Underway.goes`).  A program has only so
many calls before its end, and the devices only so much to do in between (`exists_end`). -/
theorem nodes_complete (h : GoodRun (fun side => fuel side + 1) tr s)
    (hfuel : ∀ side, s.procs side ≠ .halt) :
    ∃ tr' s', Runs.Run (next link) (Meets fun _ _ => Good) s tr' s' ∧
      ∀ side, (∃ x, s'.procs side = .ret x ∧ x.1 = 0) ∧
        (s'.shared side).delivered = [messageOf side.other] := by
  have hgoes : ∀ s, (∃ g, Underway tell 1 (fun side => (· = [messageOf side])) Good g s ∧ True) →
      (∃ side c k, s.procs side = .call c k) → Goes link (fun _ _ => Good)
        (fun s => ∃ g, Underway tell 1 (fun side => (· = [messageOf side])) Good g s ∧ True)
        Link.todo s := by
    rintro s ⟨g, hs, -⟩ hcall
    exact hs.goes (J := fun _ _ => True) (fun _ => ⟨0, 0⟩) hs.steady.accessesFit
      (fun _ _ => failed_goodReply) (fun _ _ _ _ _ => trivial) (fun _ _ _ => trivial) hcall
  obtain ⟨tr', s', hrun, ⟨g, hend, -⟩, hcalls⟩ :=
    exists_end hgoes s ⟨_, goodRun_underway h hfuel, trivial⟩
  refine ⟨tr', s', hrun, fun side => ?_⟩
  obtain ⟨x, hx, hzero, -, hdelivered⟩ := hend.finished hcalls side
  exact ⟨⟨x, hx, hzero⟩, hdelivered⟩

/-- From the start. -/
theorem nodes_complete_start : ∃ tr s, GoodRun (fun _ => 1) tr s ∧
    ∀ side, (∃ x, s.procs side = .ret x ∧ x.1 = 0) ∧
      (s.shared side).delivered = [messageOf side.other] := by
  have hsturdy : ∀ side, Sturdy Good Advances (nodes (fun _ => 0 + 1) side) := nodeRun_sturdy 0
  have hstart : GoodRun (fun _ => 0 + 1) [] ⟨nodes fun _ => 0 + 1, Link.start⟩ := Runs.Run.start
  exact nodes_complete hstart fun side => (hsturdy side).2

end

end RdmaExample
