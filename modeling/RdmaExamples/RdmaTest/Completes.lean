import RdmaExamples.RdmaTest.SharedRuns

/-!
# The program of the shared region comes to its end

Where no verb fails, and the keys that the client gets come to the server as they are, both sides
can always finish, and then the data has been written and read back (`sharing_completes`).

`Fine` is the assumption on a call: no verb fails, and the region that the client gets has a key
and an address that round-trip.  Without that the two come to their ends as well, since neither
looks at a status, but without the data: that is `dat_arrives_iff`.
-/

namespace RdmaTest

open Programs Systems Monitors Progress Messages ByteStrings

/-- A region that the client gets comes to the server as it is. -/
def Tells (e : Event Call Reply) : Prop :=
  ∀ mr, e = ⟨.regMr .rdmaBuff, some mr⟩ → RoundTrips mr.rkey mr.addr

/-- A reply that is no failure. -/
abbrev Fine (e : Event Call Reply) : Prop := Good e ∧ Tells e

/-! ## The programs are not cut off -/

section

variable {sendInline : Bool} {side : Side}

lemma pollCq_sturdy {ok : Event Call Reply → Prop} : ∀ (fuel : ℕ) (sendInline : Bool),
    Sturdy ok Advances ((pollCq (fuel + 1)).run sendInline)
  | 0, _ => Sturdy.last fun ret _ => by
      by_cases hret : ret = 0
      · subst hret
        exact Or.inr ⟨fun hon => hon rfl, rfl⟩
      · rw [if_neg hret]
        exact Or.inl Sturdy.pure
  | fuel + 1, sendInline => Sturdy.perform_bind fun ret _ =>
      Sturdy.ite (fun _ => pollCq_sturdy fuel sendInline) fun _ => Sturdy.pure

lemma serverExchange_sturdy {ok : Event Call Reply → Prop} (fuel : ℕ) (sendInline : Bool) :
    Sturdy ok Advances ((serverExchange (fuel + 1)).run sendInline) := by
  refine attemptWait_sturdy (waitRecvComp_sturdy fuel) fun _ => ?_
  refine attempt_sturdy rdmaPostSend_sturdy fun _ => ?_
  refine Sturdy.bind (waitSendComp_sturdy fuel _) fun _ _ => ?_
  refine attempt_sturdy (call_sturdy _) fun _ => ?_
  refine attemptWait_sturdy (waitRecvComp_sturdy fuel) fun _ => ?_
  refine Sturdy.perform_bind fun _ _ => Sturdy.perform_bind fun _ _ => ?_
  refine Sturdy.perform_bind fun _ _ => Sturdy.perform_bind fun _ _ => ?_
  refine attempt_sturdy (call_sturdy _) fun _ => ?_
  refine Sturdy.bind (pollCq_sturdy fuel _) fun _ _ => Sturdy.perform_bind fun _ _ => ?_
  refine attempt_sturdy (call_sturdy _) fun _ => ?_
  refine Sturdy.bind (pollCq_sturdy fuel _) fun _ _ => ?_
  refine attempt_sturdy rdmaPostSend_sturdy fun _ => ?_
  exact lastWait_sturdy (waitSendComp_sturdy fuel _)

lemma clientTell_sturdy {ok : Event Call Reply → Prop} (fuel : ℕ) (sendInline : Bool) :
    Sturdy ok Advances ((clientTell (fuel + 1)).run sendInline) := by
  refine attempt_sturdy rdmaPostSend_sturdy fun _ => ?_
  refine attemptWait_sturdy (waitSendComp_sturdy fuel) fun _ => ?_
  refine attempt_sturdy (call_sturdy _) fun _ => ?_
  exact lastWait_sturdy (waitRecvComp_sturdy fuel _)

/-- The client does not write through a null pointer where its key comes to the server. -/
lemma clientShare_sturdy {ok : Event Call Reply → Prop} {mr : Mr}
    (hfair : RoundTrips mr.rkey mr.addr) (fuel : ℕ) (sendInline : Bool) :
    Sturdy ok Advances ((clientShare (fuel + 1) mr).run sendInline) := by
  obtain ⟨msg, hmsg, -⟩ := hfair
  rw [clientMessage_stores] at hmsg
  refine Sturdy.perform_bind fun _ _ => ?_
  split
  · rename_i hnull
    rw [hnull] at hmsg
    exact absurd hmsg (by simp)
  · exact Sturdy.perform_bind fun _ _ => clientTell_sturdy fuel _

lemma clientExchange_sturdy (fuel : ℕ) (sendInline : Bool) :
    Sturdy Fine Advances ((clientExchange (fuel + 1)).run sendInline) := by
  refine attempt_sturdy rdmaPostSend_sturdy fun _ => ?_
  refine attemptWait_sturdy (waitSendComp_sturdy fuel) fun _ => ?_
  refine Sturdy.bind (waitRecvComp_sturdy fuel _) fun _ _ => ?_
  refine Sturdy.perform_bind fun mr hfine => ?_
  cases mr with
  | none => exact absurd hfine.1 not_good_none
  | some mr => exact clientShare_sturdy (hfine.2 mr rfl) fuel _

/-- Neither program is cut off but in a loop. -/
theorem sharing_sturdy (fuel : ℕ) (side : Side) :
    Sturdy Fine Advances ((nodeRun (fuel + 1) side).run sendInline) := by
  cases side with
  | server => exact leave_sturdy (serverStart_sturdy fun _ => serverExchange_sturdy fuel _)
  | client => exact leave_sturdy (clientStart_sturdy fun _ => clientExchange_sturdy fuel _)

end

/-! ## Runs -/

/-- A run of the two programs in which no verb fails, and the key comes to the server. -/
abbrev FineRun (fuel : Side → ℕ) := Runs.Run (next link) (Meets fun _ _ => Fine)
  (⟨nodes fuel, Link.start⟩ : State Side Call Reply (Int × Bool) Link)

section

variable {fuel : Side → ℕ} {tr : List (Systems.Label Side Call Reply Move)} {side : Side}
  {s : State Side Call Reply (Int × Bool) Link} {g : Side → Record} {l l' : Link}
  {e : Event Call Reply} {move : Move}

/-- What both kinds of steps keep. -/
def Holds (g : Side → Record) (l : Link) : Prop := Shared g l ∧ Fair (g .client)

/-- A region that comes to the server is not refused. -/
lemma Holds.unrefused (h : Holds g l) : Unrefused l := by
  intro side
  by_contra hside
  obtain ⟨-, mr, hregion, hunfair⟩ := h.1.refused side (by simpa using hside)
  exact hunfair (h.2 mr hregion)

lemma Holds.accessesFit (h : Holds g l) : AccessesFit l := by
  intro side wr rest hqueue hsend
  obtain ⟨-, mr, hregion, -, hiff⟩ := h.1.access_iff h.unrefused hqueue hsend
  exact Option.isSome_iff_ne_none.mp (hiff.mpr (h.2 mr hregion))

lemma Holds.call (h : Holds g l) (hallowed : (g side).allowed clientMessage 2 side e.1)
    (hfine : Fine e) (hs : l.answer side e = some l') :
    Holds (Function.update g side ((g side).after e)) l' := by
  refine ⟨h.1.call hallowed hfine.1 hs, ?_⟩
  cases side with
  | server =>
      rw [Function.update_of_ne (by simp)]
      exact h.2
  | client =>
      rw [Function.update_self]
      intro mr hmr
      rcases (region_after_iff hallowed).mp hmr with hregion | hevent
      · exact h.2 mr hregion
      · exact hfine.2 mr hevent

lemma Holds.device (h : Holds g l) (hs : l.device move = some l') : Holds g l' :=
  ⟨h.1.device hs, h.2⟩

/-- Where a run has come to. -/
theorem fineRun_underway (h : FineRun (fun side => fuel side + 1) tr s)
    (hfuel : ∀ side, s.procs side ≠ .halt) :
    Underway clientMessage 2 (fun _ _ => True) Fine (recordOf tr) s ∧
      Holds (recordOf tr) s.shared := by
  have hrun := Run.monitored sharing (fun _ => {}) (fun _ _ => Fine)
    (I := fun _ g l => Holds g l) (A := fun _ => True) (Q := fun _ r x => Ends r x.1)
    (fun _ _ _ _ _ _ => trivial) (fun _ _ _ _ _ => trivial)
    ⟨shared_start, fun _ hmr => absurd hmr (by simp)⟩ (fun side => nodeRun_exchange side)
    (fun _ _ _ _ _ _ hI hallowed hfine hs _ => ⟨hfine.1, hI.call hallowed hfine hs⟩)
    (fun _ _ _ _ _ hI hs _ => hI.device hs) h trivial
  have hholds : Holds (recordOf tr) s.shared := hrun.1
  refine ⟨⟨hholds.1.steady hholds.unrefused, hrun.2, fun side => ⟨?_, hfuel side⟩⟩, hholds⟩
  have hsteps := Run.steps (h.weaken fun _ _ _ => trivial) side
  exact (sharing_sturdy (fuel side) side).1.steps hsteps (run_meets h side)

lemma fine_goodReply (port : Port) (c : Call) : Fine ⟨c, goodReply (fun _ => fairMr) port c⟩ := by
  refine ⟨failed_goodReply, fun mr hevent => ?_⟩
  cases c with
  | regMr buf =>
      have hreply : (some fairMr : Option Mr) = some mr := by
        cases hevent
        rfl
      obtain rfl := Option.some.inj hreply
      exact fairMr_roundTrips
  | _ => exact absurd (congrArg Sigma.fst hevent) (by simp)

/-- **Both sides can always finish.**  From every state of a run in which no verb fails and the key
comes to the server as it is, as long as no loop has run out of fuel, there is a way on to the end;
there both sides return `0`, and the data is in the memory of both.

As in the message program, some side or device can always go on (`Underway.goes`); what is new are
the accesses, which are done whenever they come to the front of their queue, since they fit into
the region (`Holds`).  So the system comes to a state in which no call is left, and what the two
have there follows from `Shared`. -/
theorem sharing_completes (h : FineRun (fun side => fuel side + 1) tr s)
    (hfuel : ∀ side, s.procs side ≠ .halt) :
    ∃ tr' s', Runs.Run (next link) (Meets fun _ _ => Fine) s tr' s' ∧
      (∀ side, ∃ x, s'.procs side = .ret x ∧ x.1 = 0) ∧
        ((s'.shared .client).buffers .rdmaBuff).take bufferSize = datBuffer ∧
          ((s'.shared .server).buffers .buffLocalSend).take bufferSize = datBuffer := by
  have hgoes : ∀ s, (∃ g, Underway clientMessage 2 (fun _ _ => True) Fine g s ∧ Holds g s.shared) →
      (∃ side c k, s.procs side = .call c k) → Goes link (fun _ _ => Fine)
        (fun s => ∃ g, Underway clientMessage 2 (fun _ _ => True) Fine g s ∧ Holds g s.shared)
        Link.todo s := by
    rintro s ⟨g, hs, hholds⟩ hcall
    exact hs.goes (fun _ => fairMr) hholds.accessesFit fine_goodReply
      (fun side c l hallowed hl => hholds.call hallowed (fine_goodReply _ c) hl)
      (fun _ _ hl => hholds.device hl) hcall
  obtain ⟨tr', s', hrun, ⟨g, hend, hholds⟩, hcalls⟩ :=
    exists_end hgoes s ⟨_, fineRun_underway h hfuel⟩
  have hfinished := hend.finished hcalls
  obtain ⟨mr, hregion, hyes, -⟩ := hholds.1.arrived fun side => (hfinished side).choose_spec.2.2.1
  obtain ⟨hclient, hserver⟩ := hyes (hholds.2 mr hregion)
  refine ⟨tr', s', hrun, fun side => ?_, hclient, hserver⟩
  obtain ⟨x, hx, hzero, -⟩ := hfinished side
  exact ⟨x, hx, hzero⟩

/-- From the start. -/
theorem sharing_completes_start : ∃ tr s, FineRun (fun _ => 1) tr s ∧
    (∀ side, ∃ x, s.procs side = .ret x ∧ x.1 = 0) ∧
      ((s.shared .client).buffers .rdmaBuff).take bufferSize = datBuffer := by
  have hsturdy : ∀ side, Sturdy Fine Advances (nodes (fun _ => 0 + 1) side) := sharing_sturdy 0
  have hstart : FineRun (fun _ => 0 + 1) [] ⟨nodes fun _ => 0 + 1, Link.start⟩ := Runs.Run.start
  obtain ⟨tr, s, hrun, hzero, hclient, -⟩ :=
    sharing_completes hstart fun side => (hsturdy side).2
  exact ⟨tr, s, hrun, hzero, hclient⟩

end

end RdmaTest
