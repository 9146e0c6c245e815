import RdmaExamples.Messages.Released
import RdmaExamples.RdmaExample.Program

/-!
# What the message program releases

`nodeRun_tidy`: whatever the verbs answer, a side uses only what it holds, and has released
everything once it returns.  From the connection on both functions go to one label only, which
gives up the connection first, and they hold there what `heldAt` says: the messages acquire nothing.

Sound use is claimed of the beginnings of runs as well, and so of a side that waits for ever; that
everything is released only of a run that has returned.
-/

namespace RdmaExample

open Programs Monitors Resources Messages

section

variable {side : Side} {sendInline : Bool} {fuel : ℕ}
  {expected : List Resource → Event Call Reply → Prop}

lemma serverRun_obeys : Obeys (resourceUse.expecting expected) (fun held _ => held = [])
    ((serverRun fuel).run sendInline) [] := by
  refine leave_obeys (serverStart_obeys fun sendInline => ?_)
  refine attemptWait_holds (recvComp_obeys connected_disconnect) ?_
  refine postSend_obeys connected_disconnect ?_
  exact lastWait_holds (sendComp_obeys connected_disconnect)

lemma clientRun_obeys : Obeys (resourceUse.expecting expected) (fun held _ => held = [])
    ((clientRun fuel).run sendInline) [] := by
  refine obeys_use (fun _ => rfl) (List.forall_mem_nil _) fun _ _ => ?_
  refine leave_obeys (clientStart_obeys fun sendInline => ?_)
  refine postSend_obeys connected_disconnect ?_
  refine attemptWait_holds (sendComp_obeys connected_disconnect) ?_
  exact lastWait_holds (recvComp_obeys connected_disconnect)

lemma nodeRun_obeys (side : Side) : Obeys (resourceUse.expecting expected)
    (fun held _ => held = []) ((nodeRun fuel side).run sendInline) [] := by
  cases side with
  | server => exact serverRun_obeys
  | client => exact clientRun_obeys

end

/-- **Whatever the verbs answer**, each side uses an endpoint, a region and the connection only
while it holds them, gives each up before what it is built on, and has released all that it acquired
once it returns.

A side acquires one thing after the other, and the labels give them up in the opposite order, each
falling through to the next.  So it is enough that every test that leaves goes to the label that
stands for what has been acquired by then (`heldAt`). -/
theorem nodeRun_tidy (side : Side) (fuel : ℕ) (sendInline : Bool) (t : Trace) :
    (CanDo ((nodeRun fuel side).run sendInline) t → resourceUse.Sound t) ∧
      ∀ r, Returns ((nodeRun fuel side).run sendInline) t r → resourceUse.Tidy t := by
  have hobeys : Obeys resourceUse.monitor (fun held _ => held = [])
      ((nodeRun fuel side).run sendInline) [] := nodeRun_obeys side
  constructor
  · exact fun ht => sound_of_obeys hobeys ht (countsOn_monitor t)
  · exact fun r ht => tidy_of_obeys hobeys ht (countsOn_monitor t)

/-- The server acquires five things, and gives them up again, the connection first. -/
theorem nodeRun_tidy_server : ∃ t r, Returns ((nodeRun 1 .server).run false) t r ∧
    resourceUse.released t = [.connection, .mr .recvMsg, .ep, .listenEp, .addrinfo] ∧
      resourceUse.Tidy t := by
  obtain ⟨t, r, hrun, htest⟩ := exists_of_play
    (fun (_ : Unit) c => (obliging (fun _ => ⟨0, 0⟩) (fun _ => []) c, ())) ()
    ((nodeRun 1 .server).run false) (fun t _ => decide (resourceUse.released t =
      [.connection, .mr .recvMsg, .ep, .listenEp, .addrinfo])) (by decide +kernel)
  exact ⟨t, r, hrun, of_decide_eq_true htest, (nodeRun_tidy .server 1 false t).2 r hrun⟩

end RdmaExample
