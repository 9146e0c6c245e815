import RdmaExamples.RdmaFc.ReadProgress

/-!
# A post that fails for good

`ibv_post_send` and `ibv_exp_post_send` return `0` or a positive `errno`.  `post_rdma_read` hands
that value on; `do_rdma_reads` takes a negative one for a failure and everything else for a queue
pair that is busy, and puts the connection back at the head of the schedule list.

So a post that fails is tried again with the next pass, for ever if it fails for ever: no state of
the loop with a connection on the list is one from which the failure is reported.

That the failure is reported is taken as weakly as possible (`Reported`): in every run in which all
posts fail from here on, the phase is to stop with a result other than `0` after finitely many
steps, in whatever order the completions come.  The run that contradicts it is under the control of
nobody but the device: all that it does is to refuse.
-/

namespace RdmaFc

open Runs

/-- Every post fails as the verbs API says, with a positive `errno`. -/
def PostsFail (_ : ReadSys) (c : ReadChoice) : Prop := ∀ ret, c = .post ret → 0 < ret

/-- `do_rdma_reads` returned a value other than `0`. -/
def ReturnedNonzero (s : ReadSys) : Prop := ∃ r, r ≠ 0 ∧ s.code.pc = .stopped (.ret r)

/-- If every post fails from now on, `do_rdma_reads` returns a value other than `0` after finitely
many steps. -/
def Reported (o : Options) (s : ReadSys) : Prop :=
  Inevitable (nextRead o) PostsFail ReturnedNonzero s

/-- The loop tries again, or the process was stopped by an `assert` or in undefined behaviour. -/
def Retrying (s : ReadSys) : Prop :=
  s.code.pc.InLoop ∧ s.code.sched ≠ [] ∨
    s.code.pc = .stopped .assertFailed ∨ s.code.pc = .stopped .undefined

variable {o : Options} {ctx : TestContext} {s : ReadSys}

/-- A post that fails posts nothing and returns nothing negative. -/
lemma postRdmaRead_fails (o : Options) (ctx : TestContext) (conn offset length : ℕ) :
    postRdmaRead o ctx conn offset length (fun _ => 1) = .stopped .assertFailed ∨
    postRdmaRead o ctx conn offset length (fun _ => 1) = .stopped .undefined ∨
    ∃ ret : Int, 0 ≤ ret ∧
      postRdmaRead o ctx conn offset length (fun _ => 1) = .done ret none ctx := by
  rw [postRdmaRead]
  split
  · exact Or.inr (Or.inl rfl)
  · split
    · exact Or.inr (Or.inr ⟨1, by decide, rfl⟩)
    · split
      · exact Or.inr (Or.inr ⟨0, le_refl _, rfl⟩)
      · split
        · dsimp only
          split
          · exact Or.inl rfl
          · split
            · exact Or.inr (Or.inl rfl)
            · exact Or.inr (Or.inr ⟨1, by decide, rfl⟩)
        · exact Or.inr (Or.inl rfl)

/-- The connection keeps its place at the head of the list. -/
lemma afterPost_retries (hsched : s.code.sched ≠ []) :
    ∃ s', s.afterPost o 1 = (s', []) ∧ Retrying s' := by
  obtain ⟨conn, rest, hcons⟩ := List.exists_cons_of_ne_nil hsched
  rw [ReadSys.afterPost, postPart, hcons]
  dsimp only
  split
  · rename_i code hcode
    refine ⟨_, rfl, ?_⟩
    split at hcode
    · split at hcode
      · simp only [Prod.mk.injEq, and_true] at hcode
        subst hcode
        exact Or.inr (Or.inl rfl)
      · rcases postRdmaRead_fails o s.code.ctx conn (s.code.ctx.conns conn).readOffset
          (nextSize o s.code.ctx conn) with h | h | ⟨ret, hret, h⟩ <;> rw [h] at hcode
        · simp only [Prod.mk.injEq, and_true] at hcode
          subst hcode
          exact Or.inr (Or.inl rfl)
        · simp only [Prod.mk.injEq, and_true] at hcode
          subst hcode
          exact Or.inr (Or.inr rfl)
        · dsimp only at hcode
          rw [if_neg (not_lt.mpr hret)] at hcode
          simp only [Prod.mk.injEq, and_true] at hcode
          subst hcode
          exact Or.inl ⟨trivial, by simp⟩
    · simp only [Prod.mk.injEq, and_true] at hcode
      subst hcode
      exact Or.inl ⟨trivial, by simp⟩
  · rename_i code conn' offset wr hcode
    split at hcode
    · split at hcode
      · simp at hcode
      · rcases postRdmaRead_fails o s.code.ctx conn (s.code.ctx.conns conn).readOffset
          (nextSize o s.code.ctx conn) with h | h | ⟨ret, hret, h⟩ <;> rw [h] at hcode
        · simp at hcode
        · simp at hcode
        · dsimp only at hcode
          rw [if_neg (not_lt.mpr hret)] at hcode
          simp at hcode
    · simp at hcode

/-- From a state of the loop that tries again, the loop can go on trying. -/
lemma Retrying.next (h : Retrying s) : (∀ c s' es, PostsFail s c → nextRead o s c ≠ some (s', es)) ∨
    ∃ c s' es, PostsFail s c ∧ nextRead o s c = some (s', es) ∧ Retrying s' := by
  rcases h with ⟨hloop, hsched⟩ | hstop
  · right
    cases hpc : s.code.pc with
    | whileTest =>
        refine ⟨.tick, _, _, fun _ h => by simp at h, goesOn_tick ⟨hpc, Or.inr hsched⟩, ?_⟩
        exact Or.inl ⟨trivial, hsched⟩
    | post =>
        obtain ⟨s', heq, hretry⟩ := afterPost_retries (o := o) hsched
        refine ⟨.post 1, s', [], fun ret h => ?_, ?_, hretry⟩
        · rw [← ReadChoice.post.inj h]
          decide
        · unfold nextRead
          rw [hpc]
          exact congrArg some heq
    | poll =>
        refine ⟨.pollEmpty, { s with code := { s.code with pc := .whileTest } }, [],
          fun _ h => by simp at h, ?_, Or.inl ⟨trivial, hsched⟩⟩
        unfold nextRead
        rw [hpc]
        rfl
    | forTest | stopped r =>
        rw [hpc] at hloop
        exact hloop.elim
  · left
    intro c s' es _ hs
    rcases hstop with hpc | hpc <;> rw [nextRead_stopped hpc] at hs <;> simp at hs

lemma Retrying.not_reported (h : Retrying s) : ¬ Reported o s := by
  intro hreported
  refine hreported.not_of_avoids (I := Retrying) ?_ (fun s hs => hs.next) h
  rintro s' (⟨hin, -⟩ | hpc | hpc) ⟨r, -, hret⟩
  · rw [hret] at hin
    exact hin
  · rw [hret] at hpc
    simp at hpc
  · rw [hret] at hpc
    simp at hpc

/-- **A post that fails for good is never reported**, from no reachable state of the read phase in
which it still runs and a connection is on the schedule list.

As long as every post fails with a positive `errno`, the phase stays in its inner loop with a
connection on the list: the post is tried, the connection goes back to the head of the list, and the
loop test holds since the list is not empty.  Unless an `assert` or undefined behaviour stops the
process first, that goes on for ever (`Retrying`); in no case does the phase return. -/
theorem postFailure_not_reported (o : Options) (ctx : TestContext) (tr : List ReadEvent)
    (s : ReadSys) (hrun : ReadRun o ctx tr s) (hlive : ∀ r, s.code.pc ≠ .stopped r)
    (hsched : s.code.sched ≠ []) : ¬ Reported o s := by
  have hti := tilingInv_run hrun
  have hloop : s.code.pc.InLoop := by
    cases hpc : s.code.pc with
    | whileTest | post | poll => trivial
    | forTest =>
        rw [TilingInv, hpc] at hti
        exact absurd hti.sched hsched
    | stopped r => exact absurd hpc (hlive r)
  exact Retrying.not_reported (Or.inl ⟨hloop, hsched⟩)

/-- The first pass over one connection, nothing posted yet. -/
lemma firstPass_run : ∃ tr s, ReadRun oneReadOptions oneConnContext tr s ∧
    decide (s.code.pc = .post ∧ s.code.sched = [0] ∧ s.code.ctx.numOutstandingReads = 0) = true :=
  Run.exists_of_play (nextRead oneReadOptions) (ReadSys.start oneConnContext) [.tick, .tick]
    (fun r => decide (r.1.code.pc = .post ∧ r.1.code.sched = [0] ∧
      r.1.code.ctx.numOutstandingReads = 0)) (by decide +kernel)

theorem postFailure_not_reported_firstPass : ∃ tr s, ReadRun oneReadOptions oneConnContext tr s ∧
    s.code.sched = [0] ∧ ¬ Reported oneReadOptions s := by
  obtain ⟨tr, s, hrun, hs⟩ := firstPass_run
  obtain ⟨hpc, hsched, -⟩ := of_decide_eq_true hs
  refine ⟨tr, s, hrun, hsched,
    postFailure_not_reported oneReadOptions oneConnContext tr s hrun ?_ ?_⟩
  · intro r hr
    rw [hpc] at hr
    simp at hr
  · rw [hsched]
    simp

/-- One connection with its whole buffer to read, no read outstanding, and every post failing. -/
theorem firstPass_retriesForEver : ∃ tr s, ReadRun oneReadOptions oneConnContext tr s ∧
    s.code.sched ≠ [] ∧ s.code.ctx.numOutstandingReads = 0 ∧ ¬ Reported oneReadOptions s := by
  obtain ⟨tr, s, hrun, hs⟩ := firstPass_run
  obtain ⟨hpc, hsched, hnone⟩ := of_decide_eq_true hs
  have hne : s.code.sched ≠ [] := by
    rw [hsched]
    simp
  refine ⟨tr, s, hrun, hne, hnone, Retrying.not_reported (Or.inl ⟨?_, hne⟩)⟩
  rw [hpc]
  trivial

end RdmaFc
