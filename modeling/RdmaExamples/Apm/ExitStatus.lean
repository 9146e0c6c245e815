import RdmaExamples.Apm.AltPath
import RdmaExamples.Apm.MainRuns

/-!
# The exit status of apm

`main` is to return `0` only if the connection was established and all messages went both ways.

What `establish_connection` returns is overwritten by `load_alt_path`.  The message loop is left
with `break` when a call of a message fails, which leaves `0` of `load_alt_path` behind, and it is
not left at all when a completion has an error status, since nobody looks at `wc.status`.  So the
exit status tells of a failure only before the connection, and of `load_alt_path` and the migration
behind it (`exitStatus_iff`).

* `ExitTruthful` — what an exit status of `0` is to tell, on a run of `main`.
* `Reported` — the failures that `main` returns.
* `refusedOrUnsent_exitsZero` — three runs that exit with `0` all the same: the connection is
  refused, a send is not posted, and all completions come with an error, as behind a peer that has
  died.
-/

namespace Apm

open Programs

/-- `establish_connection` has succeeded. -/
def Established (ctx : Context) (t : Trace) : Prop :=
  ∃ t₁ t₂ t₃ ctx₁ ctx₂, t = t₁ ++ (t₂ ++ t₃) ∧ Returns (prepare.run ctx) t₁ (0, ctx₁) ∧
    Returns (establishConnection.run ctx₁) t₂ (0, ctx₂)

/-- What an exit status of `0` is to tell. -/
def ExitTruthful (ctx : Context) (t : Trace) (ret : Int) : Prop :=
  ret = 0 → Established ctx t ∧ (sent t : Int) = ctx.msgCount ∧ (received t : Int) = ctx.msgCount

/-- A failure that `main` returns: of what comes before the connection, or of the paths. -/
def Reported (ctx : Context) (t : Trace) : Prop :=
  ∃ t₁ t₂ ret ctx₁, t = t₁ ++ t₂ ∧ Returns (prepare.run ctx) t₁ (ret, ctx₁) ∧
    (ret ≠ 0 ∨ ∃ e ∈ t₂, pathFails e = true)

section

variable {t t₁ t₂ t₃ t₄ u : Trace} {ret connected : Int} {ctx ctx' ctx₁ ctx₂ : Context}

/-- What `establish_connection` has returned says whether the connection is established. -/
lemma established_iff (hprepare : Returns (prepare.run ctx) t₁ (0, ctx₁))
    (hestablish : Returns (establishConnection.run ctx₁) t₂ (connected, ctx₂)) :
    Established ctx (t₁ ++ (t₂ ++ u)) ↔ connected = 0 := by
  constructor
  · rintro ⟨t₁', t₂', t₃', ctx₁', ctx₂', heq, hprepare', hestablish'⟩
    obtain ⟨-, hrest, hctx⟩ := hprepare.unique hprepare' heq
    obtain ⟨-, rfl⟩ := Prod.mk.inj hctx
    obtain ⟨-, -, hret⟩ := hestablish.unique hestablish' hrest
    exact (Prod.mk.inj hret).1
  · rintro rfl
    exact ⟨t₁, t₂, u, ctx₁, ctx₂, rfl, hprepare, hestablish⟩

/-- Behind what is prepared, only the paths are reported. -/
lemma reported_iff (hprepare : Returns (prepare.run ctx) t₁ (0, ctx₁)) :
    Reported ctx (t₁ ++ u) ↔ ∃ e ∈ u, pathFails e = true := by
  constructor
  · rintro ⟨t₁', t₂', ret, ctx₁', heq, hprepare', hreported⟩
    obtain ⟨-, rfl, hctx⟩ := hprepare.unique hprepare' heq
    rcases hreported with hne | hfails
    · exact absurd (Prod.mk.inj hctx).1.symm hne
    · exact hfails
  · intro hfails
    exact ⟨t₁, u, 0, ctx₁, rfl, hprepare, Or.inr hfails⟩

/-- What is sent and received in a run of `main`. -/
lemma counts_of_transfer (hprepare : Returns (prepare.run ctx) t₁ (0, ctx₁))
    (hestablish : Returns (establishConnection.run ctx₁) t₂ (connected, ctx₂))
    (hclosed : Closed t₃) (hclosing : ∀ e ∈ t₄, closing e.1 = true) :
    sent (t₁ ++ (t₂ ++ (t₃ ++ t₄))) = sent t₃ ∧
      received (t₁ ++ (t₂ ++ (t₃ ++ t₄))) = received t₃ := by
  obtain ⟨post, rest, rfl, hrest, -⟩ := establishConnection_trace hestablish
  have hbefore := prepare_beside.calls _ _ hprepare.canDo
  have hbehind : ∀ e ∈ t₄, aside e.1 = true := fun e he => aside_of_closing (hclosing e he)
  constructor
  · rw [sent_append, sent_append, sent_append, sent_postRecv, sent_of_aside hbefore,
      sent_of_aside hrest, sent_of_aside hbehind, Nat.zero_add, Nat.zero_add, Nat.add_zero]
  · have hpost : ∀ u, received (⟨.postRecv ctx₁.msgLength, post⟩ :: u) = received u := fun _ => rfl
    rw [(closed_of_aside hbefore).1, (closed_of_aside hbefore).2, List.cons_append, hpost,
      (closed_of_aside hrest).1, (closed_of_aside hrest).2, hclosed, (closed_of_aside hbehind).2,
      Nat.zero_add, Nat.zero_add, Nat.add_zero]

/-- The failures of the paths are those from `load_alt_path` on. -/
lemma pathFails_iff (hestablish : Returns (establishConnection.run ctx₁) t₂ (connected, ctx₂))
    (hclosing : ∀ e ∈ t₄, closing e.1 = true) :
    (∃ e ∈ t₂ ++ (t₃ ++ t₄), pathFails e = true) ↔ ∃ e ∈ t₃, pathFails e = true := by
  obtain ⟨post, rest, -, -, -, -, hfine⟩ := establishConnection_trace hestablish
  constructor
  · rintro ⟨e, he, hfails⟩
    rcases List.mem_append.mp he with he | he
    · rw [hfine e he] at hfails
      exact absurd hfails (by decide)
    · rcases List.mem_append.mp he with he | he
      · exact ⟨e, he, hfails⟩
      · rw [pathFails_closing (hclosing e he)] at hfails
        exact absurd hfails (by decide)
  · rintro ⟨e, he, hfails⟩
    exact ⟨e, by simp [he], hfails⟩

/-- Whether a message has failed, over a connection that is established, is to be seen from
`load_alt_path` on. -/
lemma messagesFine_iff (hprepare : Returns (prepare.run ctx) t₁ (0, ctx₁))
    (hestablish : Returns (establishConnection.run ctx₁) t₂ (connected, ctx₂))
    (hconnected : connected = 0) (hclosing : ∀ e ∈ t₄, closing e.1 = true) :
    (∀ e ∈ t₁ ++ (t₂ ++ (t₃ ++ t₄)), messageFails e = false) ↔
      ∀ e ∈ t₃, messageFails e = false := by
  obtain ⟨post, rest, rfl, hrest, hpost, -⟩ := establishConnection_trace hestablish
  have hbefore := prepare_beside.calls _ _ hprepare.canDo
  refine ⟨fun hall e he => hall e (by simp [he]), fun hfine => ?_⟩
  refine List.forall_mem_append.mpr ⟨fun e he => messageFails_aside (hbefore e he), ?_⟩
  refine List.forall_mem_append.mpr ⟨List.forall_mem_cons.mpr ⟨?_, ?_⟩, ?_⟩
  · simp [messageFails, hpost hconnected]
  · exact fun e he => messageFails_aside (hrest e he)
  · refine List.forall_mem_append.mpr ⟨hfine, fun e he => ?_⟩
    exact messageFails_aside (aside_of_closing (hclosing e he))

/-- What an exit status is to tell where no path fails: it is `0` then, so that the connection has
to be established, and no message may fail. -/
lemma Counted.truthful_iff (hcounted : Counted ctx.msgCount.toNat ctx.msgCount.toNat t₃)
    (hprepare : Returns (prepare.run ctx) t₁ (0, ctx₁))
    (hestablish : Returns (establishConnection.run ctx₁) t₂ (connected, ctx₂))
    (hclosing : ∀ e ∈ t₄, closing e.1 = true) :
    ExitTruthful ctx (t₁ ++ (t₂ ++ (t₃ ++ t₄))) 0 ↔
      0 ≤ ctx.msgCount ∧ Established ctx (t₁ ++ (t₂ ++ (t₃ ++ t₄))) ∧
        ∀ e ∈ t₁ ++ (t₂ ++ (t₃ ++ t₄)), messageFails e = false := by
  obtain ⟨hsent, hreceived⟩ := counts_of_transfer hprepare hestablish hcounted.closed hclosing
  rw [ExitTruthful, established_iff hprepare hestablish, hsent, hreceived]
  by_cases hconnected : connected = 0
  · rw [messagesFine_iff hprepare hestablish hconnected hclosing, hcounted.fine_iff]
    omega
  · exact iff_of_false (fun h => hconnected (h rfl).1) fun h => hconnected h.2.1

/-- **The exit status tells the truth** just where a failure is reported, or where nothing is left
to tell: the connection is established, and no message fails.

What happens before the connection is either reported, or gone through in full.  From
`load_alt_path` on there are the three endings of `transfer_ended`.  A call on a path that fails is
reported.  Else the exit status is `0`, whether the loop came to its end or was left with `break`:
`Counted` says that no more was sent and received than was asked for, and as much only if no message
failed. -/
theorem exitStatus_iff (h : Returns (main.run ctx) t (ret, ctx')) :
    ExitTruthful ctx t ret ↔ Reported ctx t ∨
      (0 ≤ ctx.msgCount ∧ Established ctx t ∧ ∀ e ∈ t, messageFails e = false) := by
  cases main_run h with
  | unprepared hprepare hret =>
      refine iff_of_true (fun hzero => absurd hzero hret) (Or.inl ?_)
      exact ⟨_, _, ret, _, rfl, hprepare, Or.inl hret⟩
  | @prepared t₁ t₂ t₃ t₄ ctx₁ ctx₂ _ connected flow _ hprepare hestablish htransfer hclosing
      hoptions hret =>
      have hcount : ctx₂.msgCount = ctx.msgCount := (Prod.mk.inj (Prod.mk.inj hoptions).2).1
      have hended := transfer_ended htransfer
      rw [hcount] at hended
      have hreported : Reported ctx (t₁ ++ (t₂ ++ (t₃ ++ t₄))) ↔ ∃ e ∈ t₃, pathFails e = true :=
        (reported_iff hprepare).trans (pathFails_iff hestablish hclosing)
      have hquiet : (∀ e ∈ t₃, pathFails e = false) →
          ¬ Reported ctx (t₁ ++ (t₂ ++ (t₃ ++ t₄))) := by
        rintro hpath hrep
        obtain ⟨e, he, hfails⟩ := hreported.mp hrep
        exact absurd (hpath e he) (by simp [hfails])
      cases hended with
      | next _ hcounted hpath =>
          obtain rfl : ret = 0 := hret
          rw [hcounted.truthful_iff hprepare hestablish hclosing, or_iff_right (hquiet hpath)]
      | broke hcounted _ hpath =>
          obtain rfl : ret = 0 := hret
          rw [hcounted.truthful_iff hprepare hestablish hclosing, or_iff_right (hquiet hpath)]
      | out hne hfails =>
          refine iff_of_true (fun hzero => absurd (hret.symm.trans hzero) hne) (Or.inl ?_)
          exact hreported.mpr hfails

end

/-! ## Four runs of a client -/

/-- A client with two ports, which is refused, or whose sends cannot be posted, or whose messages
come back with an error, or which has no such trouble. -/
def clientWorld (connects sends delivers : Bool) : ℕ → (c : Call) → Reply c × ℕ
  | n, .connect _ =>
      (if connects = true then .ok ⟨.established, [0, 0, 0, 0]⟩ else .error ⟨-1, failed_ne⟩, n)
  | n, .postSend _ => (if sends = true then 0 else -1, n)
  | n, .getSendComp => (⟨1, delivers⟩, n)
  | n, .getRecvComp => (⟨1, delivers⟩, n)
  | n, c => hostWorld twoPorts [0, 0, 0, 0] n c

/-- A client that sends one message. -/
def oneMessage : Context := { msgCount := 1 }

/-- The client behind `reg_mem`. -/
def oneMessageReady : Context :=
  { oneMessage with
    altSrcport := 2, myAltDlid := 2, id := some 0, sendMr := some 1, recvMr := some 2 }

/-- `main`, from `load_alt_path` on. -/
def afterConnection : ApmM Int := do
  let ret ← exchange
  cleanup
  return ret

/-- The three parts of a run of the client. -/
def clientTraces (connects sends delivers : Bool) : Trace × Trace × Trace :=
  ((play (clientWorld connects sends delivers) 0 (prepare.run oneMessage)).1,
    (play (clientWorld connects sends delivers) 0 (establishConnection.run oneMessageReady)).1,
    (play (clientWorld connects sends delivers) 0 (afterConnection.run oneMessageReady)).1)

/-- A run of the client. -/
def clientTrace (connects sends delivers : Bool) : Trace :=
  (clientTraces connects sends delivers).1 ++
    ((clientTraces connects sends delivers).2.1 ++ (clientTraces connects sends delivers).2.2)

/-- The client exits with `0`, in all these runs. -/
lemma client_returns (connects sends delivers : Bool) :
    Returns (prepare.run oneMessage) (clientTraces connects sends delivers).1 (0, oneMessageReady) ∧
    Returns (establishConnection.run oneMessageReady) (clientTraces connects sends delivers).2.1
      (if connects = true then 0 else -1, oneMessageReady) ∧
    Returns (main.run oneMessage) (clientTrace connects sends delivers) (0, oneMessageReady) := by
  have hprepare : Returns (prepare.run oneMessage) (clientTraces connects sends delivers).1
      (0, oneMessageReady) := by
    refine returns_play _ ?_
    cases connects <;> cases sends <;> cases delivers <;> decide +kernel
  have hestablish : Returns (establishConnection.run oneMessageReady)
      (clientTraces connects sends delivers).2.1
      (if connects = true then 0 else -1, oneMessageReady) := by
    refine returns_play _ ?_
    cases connects <;> cases sends <;> cases delivers <;> decide +kernel
  have hafter : Returns (afterConnection.run oneMessageReady)
      (clientTraces connects sends delivers).2.2 (0, oneMessageReady) := by
    refine returns_play _ ?_
    cases connects <;> cases sends <;> cases delivers <;> decide +kernel
  refine ⟨hprepare, hestablish, ?_⟩
  exact returns_run_bind.mpr ⟨_, _, _, _, rfl, hprepare,
    returns_run_bind.mpr ⟨_, _, _, _, rfl, hestablish, hafter⟩⟩

/-- One message each way. -/
theorem exitStatus_iff_oneMessage :
    Returns (main.run oneMessage) (clientTrace true true true) (0, oneMessageReady) ∧
      ExitTruthful oneMessage (clientTrace true true true) 0 ∧
      sent (clientTrace true true true) = 1 ∧ received (clientTrace true true true) = 1 := by
  obtain ⟨hprepare, hestablish, hmain⟩ := client_returns true true true
  have htruthful : ExitTruthful oneMessage (clientTrace true true true) 0 := by
    refine (exitStatus_iff hmain).mpr (Or.inr ⟨by decide, ?_, ?_⟩)
    · exact (established_iff hprepare hestablish).mpr rfl
    · have hfine : (clientTrace true true true).all (fun e : Event Call Reply => !messageFails e) :=
        by decide +kernel
      intro e he
      simpa using List.all_eq_true.mp hfine e he
  have hcounts := (htruthful rfl).2
  have hone : oneMessage.msgCount = 1 := rfl
  exact ⟨hmain, htruthful, by omega, by omega⟩

/-- **A connection that is refused**, **a message that is not sent**, and **messages that come back
with an error**: `main` returns `0`. -/
theorem refusedOrUnsent_exitsZero :
    (Returns (main.run oneMessage) (clientTrace false true true) (0, oneMessageReady) ∧
      ¬ ExitTruthful oneMessage (clientTrace false true true) 0) ∧
    (Returns (main.run oneMessage) (clientTrace true false true) (0, oneMessageReady) ∧
      ¬ ExitTruthful oneMessage (clientTrace true false true) 0) ∧
    Returns (main.run oneMessage) (clientTrace true true false) (0, oneMessageReady) ∧
      ¬ ExitTruthful oneMessage (clientTrace true true false) 0 := by
  refine ⟨?_, ?_, ?_⟩
  · obtain ⟨hprepare, hestablish, hmain⟩ := client_returns false true true
    refine ⟨hmain, fun htruthful => ?_⟩
    have hconnected := (established_iff hprepare hestablish).mp (htruthful rfl).1
    exact absurd hconnected (by decide)
  · obtain ⟨-, -, hmain⟩ := client_returns true false true
    refine ⟨hmain, fun htruthful => ?_⟩
    have hsent := (htruthful rfl).2.1
    have hnone : sent (clientTrace true false true) = 0 := by decide +kernel
    rw [hnone] at hsent
    exact absurd hsent (by decide)
  · obtain ⟨-, -, hmain⟩ := client_returns true true false
    refine ⟨hmain, fun htruthful => ?_⟩
    have hsent := (htruthful rfl).2.1
    have hnone : sent (clientTrace true true false) = 0 := by decide +kernel
    rw [hnone] at hsent
    exact absurd hsent (by decide)

end Apm
