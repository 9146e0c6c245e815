import RdmaExamples.RdmaFc.ReadWork

/-!
# The read phase makes progress

The read phase of a server against a device that accepts every post.  It cannot abort, every read
posted or completed lowers the work left, there is always a read to post or one to wait for, and
so it ends once its reads complete: unless an option makes one of its states a dead end.

`parse_opts` accepts such options.  `-i 0` ends in the assertion that everything was read, `-r 0` in
the assertion that there is something to read, `-o 0` lets nothing be posted ever, and over DC more
outstanding reads than there are initiators lead past the pool.  `readPhase_progresses_iff` says
that these are all there are.

* `SetUp` — what the setup phase has to leave for that: offsets at `0`, the buffer registered, and
  over DC the initiators there.
* `Sound` and `sound_step` — the phase has not aborted.
* `CanProgress.ends` — a run without end in which every read completes contradicts the measure of
  `ReadWork`.
* `not_progresses_of_noIterations` and the three that follow it — the dead ends.
* `exists_outstanding`, `exists_full` — reads posted one after the other with none completing.
* `PoolLasts`, `poolOk_throughout_iff` — the same count answers for which options the pool of DC
  initiators is never used up.
-/

namespace RdmaFc

open Runs MachineWords Programs

/-! ## The property -/

/-- The device accepts every post. -/
def PostsSucceed (_ : ReadSys) (c : ReadChoice) : Prop := ∀ ret, c = .post ret → ret = 0

/-- A run of the read phase against such a device. -/
abbrev GoodRun (o : Options) (ctx : TestContext) : List ReadEvent → ReadSys → Prop :=
  Run (nextRead o) PostsSucceed (ReadSys.start ctx)

/-- This pass of the inner loop posts a read. -/
def CanPost (o : Options) (s : ReadSys) : Prop :=
  ∃ s₁ s₂ r, nextRead o s .tick = some (s₁, []) ∧ nextRead o s₁ (.post 0) = some (s₂, [.posted r])

/-- Every outstanding read completes at some time. -/
def ReadsComplete (f : ℕ → ReadSys) : Prop :=
  ∀ n, ∀ r ∈ (f n).pending, ∃ m, n ≤ m ∧ r ∉ (f m).pending

/-- The test of the inner loop holds. -/
def LoopGoesOn (s : ReadState) : Prop :=
  s.pc = .whileTest ∧ (s.ctx.numOutstandingReads ≠ 0 ∨ s.sched ≠ [])

/-- The read phase cannot abort or get stuck.  The first clause is about a single state, the second
about a step, the third about what can be done next; the last is what follows, since a number
cannot fall forever. -/
structure Progresses (o : Options) (ctx : TestContext) : Prop where
  noAbort : ∀ tr s, GoodRun o ctx tr s →
    s.code.pc ≠ .stopped .assertFailed ∧ s.code.pc ≠ .stopped .undefined
  lowers : ∀ tr s c s' es, GoodRun o ctx tr s → PostsSucceed s c →
    nextRead o s c = some (s', es) → work o s' ≤ work o s ∧ (es ≠ [] → work o s' < work o s)
  notStuck : ∀ tr s, GoodRun o ctx tr s → LoopGoesOn s.code → CanPost o s ∨ s.pending ≠ []
  ends : ∀ tr s f, GoodRun o ctx tr s → f 0 = s → Endless (nextRead o) PostsSucceed f →
    ¬ ReadsComplete f

/-- The options let the read phase of `n` connections make progress. -/
def CanProgress (o : Options) (n : ℕ) : Prop :=
  n = 0 ∨ (0 < o.numIterations ∧ 0 < o.maxReadSize ∧ 0 < o.maxOutstandingReads ∧
    (o.transport = .dc → o.maxOutstandingReads ≤ numDci ∨ readsPerIteration o n ≤ numDci))

/-! ## Where a post is made

Whatever a pass of the loop tries to post, the post goes well if the setup was complete and, over
DC, an initiator is left. -/

/-- There is a queue pair to post on. -/
def HasQueue (o : Options) (ctx : TestContext) : Prop :=
  o.transport = .dc → TakesFree ctx ∧ ctx.freeDciBitmap ≠ 0 ∧ ∀ d, (ctx.dcis d).isSome

variable {o : Options} {ctx : TestContext} {tr : List ReadEvent} {s s' : ReadSys}

lemma postRdmaRead_posts {conn offset length : ℕ} (hmr : ctx.rdmaBuf.mr.isSome)
    (hqueue : HasQueue o ctx) :
    ∃ wr ctx', postRdmaRead o ctx conn offset length (fun _ => 0) = .done 0 (some wr) ctx' := by
  obtain ⟨mr, hmr⟩ := Option.isSome_iff_exists.mp hmr
  rw [postRdmaRead, hmr]
  cases hx : o.transport with
  | rc => exact ⟨_, _, rfl⟩
  | dc =>
      obtain ⟨htakes, hmap, hdcis⟩ := hqueue hx
      obtain ⟨hlt, hidle⟩ := htakes hmap
      obtain ⟨qp, hqp⟩ := Option.isSome_iff_exists.mp (hdcis ⟨_, hlt⟩)
      dsimp only
      rw [if_neg hmap, dif_pos hlt, if_neg (not_not.mpr hidle), hqp]
      exact ⟨_, _, rfl⟩

/-- Where no initiator is left the post reads past the pool, or fails its assertion. -/
lemma postRdmaRead_aborts {conn offset length : ℕ} (hdc : o.transport = .dc)
    (hmr : ctx.rdmaBuf.mr.isSome) (htakes : ¬ TakesFree ctx) :
    postRdmaRead o ctx conn offset length (fun _ => 0) = .stopped .assertFailed ∨
      postRdmaRead o ctx conn offset length (fun _ => 0) = .stopped .undefined := by
  obtain ⟨mr, hmr⟩ := Option.isSome_iff_exists.mp hmr
  have hmap : ctx.freeDciBitmap ≠ 0 := fun hzero => htakes fun hne => absurd hzero hne
  rw [postRdmaRead, hmr, hdc]
  dsimp only
  rw [if_neg hmap]
  split
  · rename_i hlt
    rw [if_pos fun hidle => htakes fun _ => ⟨hlt, hidle⟩]
    exact Or.inl rfl
  · exact Or.inr rfl

/-- The inner loop posts where it may. -/
lemma afterPost_posts {conn : ℕ} {rest : List ℕ} (hsched : s.code.sched = conn :: rest)
    (hlimit : s.code.ctx.numOutstandingReads < o.maxOutstandingReads)
    (hsize : nextSize o s.code.ctx conn ≠ 0) (hmr : s.code.ctx.rdmaBuf.mr.isSome)
    (hqueue : HasQueue o s.code.ctx) :
    ∃ s' r, s.afterPost o 0 = (s', [.posted r]) ∧ s'.code.pc = .poll ∧
      s'.pending = s.pending ++ [r] := by
  obtain ⟨wr, ctx', hpost⟩ : ∃ wr ctx', postRdmaRead o s.code.ctx conn
      (s.code.ctx.conns conn).readOffset (nextSize o s.code.ctx conn) (fun _ => 0)
        = .done 0 (some wr) ctx' := postRdmaRead_posts hmr hqueue
  rw [ReadSys.afterPost, postPart, hsched]
  dsimp only
  rw [if_pos hlimit, if_neg hsize, hpost]
  exact ⟨_, _, rfl, rfl, rfl⟩

lemma Within.nextSize_ne_zero (h : Within o ctx tr s) (hmax : 0 < o.maxReadSize) {conn : ℕ}
    {rest : List ℕ} (hsched : s.code.sched = conn :: rest) :
    nextSize o s.code.ctx conn ≠ 0 := by
  obtain ⟨-, hlt⟩ := (h.sched conn).mp (by simp [hsched])
  rw [nextSize_eq hlt.le]
  omega

/-! ## What the setup promises -/

/-- What the setup phase of a server leaves for the reads. -/
structure SetUp (o : Options) (ctx : TestContext) : Prop where
  unread : ∀ c, (ctx.conns c).readOffset = 0
  mapped : ctx.numConns ≠ 0 → ctx.rdmaBuf.mr.isSome
  pool : o.transport = .dc → ctx.numConns ≠ 0 → ctx.dcPool.Ready

lemma setUp_of_setup {fuel : ℕ} {t : Trace} (hserver : ¬ o.isClient)
    (h : Returns ((setup o fuel).run {}) t (0, ctx)) : SetUp o.inForce ctx where
  unread := (setup_readable hserver h).offsets
  mapped := (setup_readable hserver h).mapped
  pool hdc := setup_pool hserver (by rwa [inForce_transport] at hdc) h

lemma GoodRun.reads (h : GoodRun o ctx tr s) : ReadRun o ctx tr s := h.weaken fun _ _ _ => trivial

/-- Without a connection nothing is ever scheduled. -/
lemma Within.numConns_pos (h : Within o ctx tr s) (hsched : s.code.sched ≠ []) :
    ctx.numConns ≠ 0 := by
  obtain ⟨c, rest, hcons⟩ := List.exists_cons_of_ne_nil hsched
  have := ((h.sched c).mp (by simp [hcons])).1
  omega

/-- A read is outstanding for a connection. -/
lemma Within.numConns_pos_of_mem (h : Within o ctx tr s) {r : PostedRead} (hr : r ∈ s.pending) :
    ctx.numConns ≠ 0 := by
  have := (h.reads r ((h.done r).mpr (Or.inl hr))).conn_lt
  omega

lemma poolInv_of_setUp (hset : SetUp o ctx) (hrun : ReadRun o ctx tr s)
    (hconns : ctx.numConns ≠ 0) (hdc : o.transport = .dc) :
    PoolInv o s.code.ctx s.pending :=
  poolInv_run hdc (hset.pool hdc hconns) hrun

/-- While initiators are left there is a queue pair to post on. -/
lemma hasQueue_of_setUp (hset : SetUp o ctx) (hrun : ReadRun o ctx tr s)
    (hconns : ctx.numConns ≠ 0)
    (hleft : o.transport = .dc → s.code.ctx.numOutstandingReads < numDci) :
    HasQueue o s.code.ctx := by
  intro hdc
  have hpool := poolInv_of_setUp hset hrun hconns hdc
  refine ⟨hpool.takesFree_iff.mpr (hleft hdc), hpool.bitmap_ne_zero, fun d => ?_⟩
  rw [(phaseInv_run hrun).dcis]
  exact (hset.pool hdc hconns).dcis d

/-- Few reads allowed, or few reads to make, leave an initiator for every post: the read to be
posted is one of the iteration's, next to those outstanding. -/
lemma Within.left_of_few (h : Within o ctx tr s) (hrun : ReadRun o ctx tr s)
    (hloop : s.code.pc.InLoop) (hsched : s.code.sched ≠ []) (hmax : 0 < o.maxReadSize)
    (hlimit : s.code.ctx.numOutstandingReads < o.maxOutstandingReads)
    (hfew : o.maxOutstandingReads ≤ numDci ∨ readsPerIteration o ctx.numConns ≤ numDci) :
    s.code.ctx.numOutstandingReads < numDci := by
  rcases hfew with hfew | hfew
  · exact lt_of_lt_of_le hlimit hfew
  · have hleft := readsLeft_pos h hmax hsched
    have hbudget := (phaseInv_run hrun).budget hloop
    rw [h.outstanding]
    omega

/-- The condition leaves an initiator for every post. -/
lemma CanProgress.left (hcan : CanProgress o ctx.numConns) (hrun : ReadRun o ctx tr s)
    (hloop : s.code.pc.InLoop) (hsched : s.code.sched ≠ [])
    (hlimit : s.code.ctx.numOutstandingReads < o.maxOutstandingReads) (hdc : o.transport = .dc) :
    s.code.ctx.numOutstandingReads < numDci := by
  have hwithin := (tilingInv_run hrun).within hloop
  rcases hcan with hzero | ⟨-, hmax, -, hinit⟩
  · exact absurd hzero (hwithin.numConns_pos hsched)
  · exact hwithin.left_of_few hrun hloop hsched hmax hlimit (hinit hdc)

/-- Under the condition the loop posts wherever something is scheduled and the limit allows. -/
lemma CanProgress.posts (hcan : CanProgress o ctx.numConns) (hset : SetUp o ctx)
    (hrun : ReadRun o ctx tr s) (hpc : s.code.pc = .post) (hsched : s.code.sched ≠ [])
    (hlimit : s.code.ctx.numOutstandingReads < o.maxOutstandingReads) :
    ∃ s' r, s.afterPost o 0 = (s', [.posted r]) ∧ s'.code.pc = .poll ∧
      s'.pending = s.pending ++ [r] := by
  have hloop : s.code.pc.InLoop := by rw [hpc]; trivial
  have hwithin := (tilingInv_run hrun).within hloop
  have hconns := hwithin.numConns_pos hsched
  have hmax : 0 < o.maxReadSize := by
    rcases hcan with hzero | ⟨-, hmax, -, -⟩
    · exact absurd hzero hconns
    · exact hmax
  have hmr : s.code.ctx.rdmaBuf.mr.isSome := by
    rw [hwithin.setup.rdmaBuf]
    exact hset.mapped hconns
  have hqueue := hasQueue_of_setUp hset hrun hconns (hcan.left hrun hloop hsched hlimit)
  obtain ⟨conn, rest, hcons⟩ := List.exists_cons_of_ne_nil hsched
  exact afterPost_posts hcons hlimit (hwithin.nextSize_ne_zero hmax hcons) hmr hqueue

/-! ## The condition is enough

Nothing aborts, since the assertions are about what the invariant of the tiling and the pool say.
Nothing gets stuck, since a pass with work left can post or can wait for a read.  And a run without
end would have to be silent from some step on, with a read outstanding that never completes. -/

/-- The phase has not aborted. -/
def Sound (s : ReadState) : Prop :=
  s.pc ≠ .stopped .assertFailed ∧ s.pc ≠ .stopped .undefined

lemma sound_of_pc {st : ReadState} {pc : ReadPc} (h : st.pc = pc)
    (hpc : pc ≠ .stopped .assertFailed ∧ pc ≠ .stopped .undefined) : Sound st := by
  rw [Sound, h]
  exact hpc

/-- Past the last iteration everything was read. -/
lemma CanProgress.forTest_pc (hcan : CanProgress o ctx.numConns) (hrun : ReadRun o ctx tr s)
    (hpc : s.code.pc = .forTest) :
    (forTest o s.code).pc = .whileTest ∨ (forTest o s.code).pc = .stopped (.ret 0) := by
  have hti := tilingInv_run hrun
  rw [TilingInv, hpc] at hti
  have hnum := hti.setup.numConns
  rw [forTest]
  split
  · exact Or.inl rfl
  · rename_i hlast
    have hend : ∀ c < s.code.ctx.numConns, (s.code.ctx.conns c).readOffset = o.rdmaReadSize := by
      intro c hc
      rw [hnum] at hc
      rcases hcan with hzero | ⟨hiters, -⟩
      · omega
      · exact (phaseInv_run hrun).complete hpc (by omega) c hc
    rw [if_pos hend]
    exact Or.inr rfl

lemma afterPost_sound (hcan : CanProgress o ctx.numConns) (hset : SetUp o ctx)
    (hrun : ReadRun o ctx tr s) (hpc : s.code.pc = .post) : Sound (s.afterPost o 0).1.code := by
  by_cases hsched : s.code.sched = []
  · rw [ReadSys.afterPost, postPart, hsched]
    exact sound_of_pc rfl (by simp)
  · by_cases hlimit : s.code.ctx.numOutstandingReads < o.maxOutstandingReads
    · obtain ⟨s', r, heq, hpoll, -⟩ := hcan.posts hset hrun hpc hsched hlimit
      rw [heq]
      exact sound_of_pc hpoll (by simp)
    · obtain ⟨conn, rest, hcons⟩ := List.exists_cons_of_ne_nil hsched
      rw [ReadSys.afterPost, postPart, hcons]
      dsimp only
      rw [if_neg hlimit]
      exact sound_of_pc rfl (by simp)

/-- The completion of a read that is outstanding is taken. -/
lemma pollRead_pc (hset : SetUp o ctx) (hrun : ReadRun o ctx tr s) (hpc : s.code.pc = .poll)
    {k : ℕ} {r : PostedRead} (hk : s.pending[k]? = some r) :
    (pollPart o s.code (.wc (readWc r))).pc = .whileTest := by
  have hwithin := (tilingInv_run hrun).within (by rw [hpc]; trivial)
  rw [pollPart, pollCq, processWc_read]
  cases hx : o.transport with
  | rc => rfl
  | dc =>
      have hpool := poolInv_of_setUp hset hrun
        (hwithin.numConns_pos_of_mem (List.mem_of_getElem? hk)) hx
      dsimp only
      split
      · rename_i stop hstop
        exact absurd hstop (hpool.not_aborted hk rfl)
      · rename_i ret ctx' hdone
        obtain ⟨d, -, rfl, -⟩ := dcSendCompletion_cases hdone
        rfl

/-- Under the condition no step aborts. -/
theorem sound_step (hcan : CanProgress o ctx.numConns) (hset : SetUp o ctx)
    (hrun : ReadRun o ctx tr s) {c : ReadChoice} {es : List ReadEvent} (hok : PostsSucceed s c)
    (hs : nextRead o s c = some (s', es)) : Sound s'.code := by
  unfold nextRead at hs
  split at hs
  case h_1 _ _ hpc =>
    simp only [Option.some.injEq, Prod.mk.injEq] at hs
    obtain ⟨rfl, -⟩ := hs
    rcases hcan.forTest_pc hrun hpc with h | h <;> exact sound_of_pc h (by simp)
  case h_2 _ _ hpc =>
    simp only [Option.some.injEq, Prod.mk.injEq] at hs
    obtain ⟨rfl, -⟩ := hs
    rw [whileTest]
    split <;> exact sound_of_pc rfl (by simp)
  case h_3 _ _ ret hpc =>
    obtain rfl : ret = 0 := hok ret rfl
    simp only [Option.some.injEq] at hs
    have hsound := afterPost_sound hcan hset hrun hpc
    rwa [hs] at hsound
  case h_4 _ _ n hpc =>
    simp only [Option.some.injEq, Prod.mk.injEq] at hs
    obtain ⟨rfl, -⟩ := hs
    rw [pollPart, pollCq]
    dsimp only
    split <;> exact sound_of_pc rfl (by simp)
  case h_5 _ _ hpc =>
    simp only [Option.some.injEq, Prod.mk.injEq] at hs
    obtain ⟨rfl, -⟩ := hs
    have hgo : (pollPart o s.code .empty).pc = .whileTest := rfl
    exact sound_of_pc hgo (by simp)
  case h_6 _ _ opcode hpc =>
    simp only [Option.some.injEq, Prod.mk.injEq] at hs
    obtain ⟨rfl, -⟩ := hs
    have hret : (pollPart o s.code (.wc { success := false, opcode := opcode })).pc
      = .stopped (.ret (-1)) := rfl
    exact sound_of_pc hret (by simp)
  case h_7 _ _ packet hpc =>
    simp only [Option.some.injEq, Prod.mk.injEq] at hs
    obtain ⟨rfl, -⟩ := hs
    rw [pollPart, pollCq, processWc_recv]
    exact sound_of_pc rfl (by simp)
  case h_8 _ _ k hpc =>
    split at hs
    · exact absurd hs (by simp)
    · rename_i r hk
      simp only [Option.some.injEq, Prod.mk.injEq] at hs
      obtain ⟨rfl, -⟩ := hs
      exact sound_of_pc (pollRead_pc hset hrun hpc hk) (by simp)
  case h_9 => exact absurd hs (by simp)

/-- Under the condition the inner loop posts a read or has one to wait for. -/
lemma CanProgress.notStuck (hcan : CanProgress o ctx.numConns) (hset : SetUp o ctx)
    (hrun : GoodRun o ctx tr s) (hgo : LoopGoesOn s.code) : CanPost o s ∨ s.pending ≠ [] := by
  obtain ⟨hpc, hmore⟩ := hgo
  have hwithin := (tilingInv_run hrun.reads).within (by rw [hpc]; trivial)
  by_cases hpend : s.pending = []
  · left
    have hnone : s.code.ctx.numOutstandingReads = 0 := by
      rw [hwithin.outstanding, hpend]
      rfl
    have hsched : s.code.sched ≠ [] := hmore.resolve_left (not_not.mpr hnone)
    have htick : nextRead o s .tick
        = some ({ s with code := { s.code with pc := .post } }, []) := by
      unfold nextRead
      rw [hpc]
      dsimp only
      rw [whileTest, if_pos hmore]
    have hnext : ReadRun o ctx (tr ++ []) { s with code := { s.code with pc := .post } } :=
      Run.step hrun.reads trivial htick
    have hlimit : s.code.ctx.numOutstandingReads < o.maxOutstandingReads := by
      rcases hcan with hzero | ⟨-, -, hout, -⟩
      · exact absurd hzero (hwithin.numConns_pos hsched)
      · omega
    obtain ⟨s₂, r, heq, -⟩ := hcan.posts hset hnext rfl hsched hlimit
    exact ⟨_, s₂, r, htick, congrArg some heq⟩
  · exact Or.inr hpend

/-- A step that shows nothing on the wire leaves the outstanding reads alone. -/
lemma ReadStep.pending_eq (hs : ReadStep o s [] s') : s'.pending = s.pending := by
  generalize hes : ([] : List ReadEvent) = es at hs
  cases hs with
  | post => exact absurd hes (by simp)
  | complete => exact absurd hes (by simp)
  | abort => exact absurd hes (by simp)
  | _ => rfl

/-- Where the work left stays the same and nothing happens on the wire, the code goes round the
inner loop, or leaves it for good. -/
lemma ReadStep.idle (hti : TilingInv o ctx tr s) (hs : ReadStep o s [] s')
    (hsame : work o s' = work o s) :
    (∃ r, s'.code.pc = .stopped r) ∨
      (s.code.pc = .whileTest ∧ (LoopGoesOn s.code ∨ s'.code.pc = .forTest)) ∨
      (s.code.pc = .post ∧ s'.code.pc = .poll) ∨
      (s.code.pc = .poll ∧ s'.code.pc = .whileTest) := by
  have hlow := (work_step hti hs).2.2
  generalize hes : ([] : List ReadEvent) = es at hs
  cases hs with
  | enter hpc hiter => exact absurd (hlow hpc trivial) (by omega)
  | finish hpc hiter => exact Or.inl ⟨_, rfl⟩
  | again hpc hmore => exact Or.inr (Or.inl ⟨hpc, Or.inl ⟨hpc, hmore⟩⟩)
  | leave hpc hnone hempty => exact Or.inr (Or.inl ⟨hpc, Or.inr rfl⟩)
  | skip hpc => exact Or.inr (Or.inr (Or.inl ⟨hpc, rfl⟩))
  | poll finRecvd hpc => exact Or.inr (Or.inr (Or.inr ⟨hpc, rfl⟩))
  | stop r sched' hr => exact Or.inl ⟨r, rfl⟩
  | post => exact absurd hes (by simp)
  | complete => exact absurd hes (by simp)
  | abort => exact absurd hes (by simp)

/-- A phase that stopped takes no step. -/
lemma nextRead_stopped {r : Stop} (hpc : s.code.pc = .stopped r) (c : ReadChoice) :
    nextRead o s c = none := by
  unfold nextRead
  rw [hpc]

lemma choice_of_whileTest {c : ReadChoice} {es : List ReadEvent} (hpc : s.code.pc = .whileTest)
    (hs : nextRead o s c = some (s', es)) : c = .tick := by
  unfold nextRead at hs
  rw [hpc] at hs
  cases c <;> simp at hs ⊢

lemma choice_of_post {c : ReadChoice} {es : List ReadEvent} (hpc : s.code.pc = .post)
    (hs : nextRead o s c = some (s', es)) : ∃ ret, c = .post ret := by
  unfold nextRead at hs
  rw [hpc] at hs
  cases c <;> simp at hs ⊢

/-- A phase that does not stop, and in which nothing happens on the wire, keeps coming to the test
of the inner loop. -/
lemma exists_goesOn {f : ℕ → ReadSys} {N : ℕ} (hti : ∀ n, ∃ tr, TilingInv o ctx tr (f n))
    (hlive : ∀ n r, (f n).code.pc ≠ .stopped r)
    (hquiet : ∀ n, N ≤ n → ReadStep o (f n) [] (f (n + 1)))
    (hsame : ∀ n, N ≤ n → work o (f (n + 1)) = work o (f n)) :
    ∃ m, N ≤ m ∧ LoopGoesOn (f m).code := by
  have hidle : ∀ n, N ≤ n →
      ((f n).code.pc = .whileTest ∧ (LoopGoesOn (f n).code ∨ (f (n + 1)).code.pc = .forTest)) ∨
      ((f n).code.pc = .post ∧ (f (n + 1)).code.pc = .poll) ∨
      ((f n).code.pc = .poll ∧ (f (n + 1)).code.pc = .whileTest) := by
    intro n hn
    obtain ⟨tr', hinv⟩ := hti n
    rcases (hquiet n hn).idle hinv (hsame n hn) with ⟨r, hr⟩ | hrest
    · exact absurd hr (hlive _ r)
    · exact hrest
  have hnever : ∀ n, N ≤ n → (f n).code.pc ≠ .forTest := by
    intro n hn hpc
    rcases hidle n hn with ⟨h, -⟩ | ⟨h, -⟩ | ⟨h, -⟩ <;> rw [hpc] at h <;> simp at h
  have hgoes : ∀ n, N ≤ n → (f n).code.pc = .whileTest → LoopGoesOn (f n).code := by
    intro n hn hpc
    rcases hidle n hn with ⟨-, hgo | hfor⟩ | ⟨h, -⟩ | ⟨h, -⟩
    · exact hgo
    · exact absurd hfor (hnever (n + 1) (by omega))
    · rw [hpc] at h
      simp at h
    · rw [hpc] at h
      simp at h
  rcases hidle N le_rfl with ⟨hpc, -⟩ | ⟨-, hpoll⟩ | ⟨-, hwhile⟩
  · exact ⟨N, le_rfl, hgoes N le_rfl hpc⟩
  · rcases hidle (N + 1) (by omega) with ⟨h, -⟩ | ⟨h, -⟩ | ⟨-, hwhile⟩
    · rw [hpoll] at h
      simp at h
    · rw [hpoll] at h
      simp at h
    · exact ⟨N + 2, by omega, hgoes (N + 2) (by omega) hwhile⟩
  · exact ⟨N + 1, by omega, hgoes (N + 1) (by omega) hwhile⟩

/-- A pass that posts shows it. -/
lemma CanPost.posted {s₁ s₂ : ReadSys} {c₁ c₂ : ReadChoice} {es₁ es₂ : List ReadEvent}
    (hpost : CanPost o s) (hgo : LoopGoesOn s.code) (h₁ : nextRead o s c₁ = some (s₁, es₁))
    (hok : PostsSucceed s₁ c₂) (h₂ : nextRead o s₁ c₂ = some (s₂, es₂)) : es₂ ≠ [] := by
  obtain ⟨s₁', s₂', r, htick, hposted⟩ := hpost
  obtain rfl := choice_of_whileTest hgo.1 h₁
  rw [htick, Option.some.injEq, Prod.mk.injEq] at h₁
  obtain ⟨rfl, -⟩ := h₁
  have hpc : s₁'.code.pc = .post := by
    unfold nextRead at htick
    rw [hgo.1] at htick
    dsimp only at htick
    rw [whileTest, if_pos hgo.2, Option.some.injEq, Prod.mk.injEq] at htick
    rw [← htick.1]
  obtain ⟨ret, rfl⟩ := choice_of_post hpc h₂
  obtain rfl : ret = 0 := hok ret rfl
  rw [hposted, Option.some.injEq, Prod.mk.injEq] at h₂
  rw [← h₂.2]
  simp

/-- Under the condition a phase whose reads complete ends.  A run without end falls silent.  No
read is outstanding then, since it would complete, and the next pass of the inner loop posts
one. -/
theorem CanProgress.ends (hcan : CanProgress o ctx.numConns) (hset : SetUp o ctx)
    {f : ℕ → ReadSys} (hrun : GoodRun o ctx tr (f 0))
    (hend : Endless (nextRead o) PostsSucceed f) : ¬ ReadsComplete f := by
  intro hcomplete
  have hreach : ∀ n, ∃ tr', GoodRun o ctx tr' (f n) := hend.run hrun
  have hti : ∀ n, ∃ tr', TilingInv o ctx tr' (f n) := by
    intro n
    obtain ⟨tr', hreach⟩ := hreach n
    exact ⟨tr', tilingInv_run hreach.reads⟩
  obtain ⟨N, hN⟩ : ∃ N, ∀ n, N ≤ n → work o (f (n + 1)) = work o (f n) ∧
      ∀ c es, nextRead o (f n) c = some (f (n + 1), es) → es = [] := by
    refine hend.silent fun n c es hs => ?_
    obtain ⟨tr', hinv⟩ := hti n
    have hwork := work_step hinv (nextRead_step hs)
    exact ⟨hwork.1, hwork.2.1⟩
  have hlive : ∀ n r, (f n).code.pc ≠ .stopped r := by
    intro n r hpc
    obtain ⟨c, es, -, hs⟩ := hend n
    rw [nextRead_stopped hpc] at hs
    exact absurd hs (by simp)
  have hquiet : ∀ n, N ≤ n → ReadStep o (f n) [] (f (n + 1)) := by
    intro n hn
    obtain ⟨c, es, -, hs⟩ := hend n
    have hnil := (hN n hn).2 c es hs
    rw [hnil] at hs
    exact nextRead_step hs
  have hpend : ∀ n, N ≤ n → (f n).pending = (f N).pending := by
    intro n hn
    induction n, hn using Nat.le_induction with
    | base => rfl
    | succ n hn ih => rw [(hquiet n hn).pending_eq, ih]
  have hnone : (f N).pending = [] := by
    rw [List.eq_nil_iff_forall_not_mem]
    intro r hr
    obtain ⟨m, hm, hgone⟩ := hcomplete N r hr
    rw [hpend m hm] at hgone
    exact hgone hr
  obtain ⟨m, hm, hgo⟩ := exists_goesOn hti hlive hquiet fun n hn => (hN n hn).1
  obtain ⟨tr', hreach⟩ := hreach m
  rcases hcan.notStuck hset hreach hgo with hpost | hout
  · obtain ⟨c₁, es₁, -, h₁⟩ := hend m
    obtain ⟨c₂, es₂, hok, h₂⟩ := hend (m + 1)
    exact hpost.posted hgo h₁ hok h₂ ((hN (m + 1) (by omega)).2 c₂ es₂ h₂)
  · exact hout ((hpend m hm).trans hnone)

/-- **The condition is enough.**  The four parts are that the phase does not abort, that its work
never grows, that it is nowhere stuck, and that no run goes on for ever; each has a lemma above. -/
theorem progresses_of_canProgress (hset : SetUp o ctx) (hcan : CanProgress o ctx.numConns) :
    Progresses o ctx where
  noAbort := by
    intro tr s hrun
    cases hrun with
    | start =>
        have hstart : (ReadSys.start ctx).code.pc = .forTest := rfl
        exact sound_of_pc hstart (by simp)
    | step hrun hok hs => exact sound_step hcan hset (GoodRun.reads hrun) hok hs
  lowers := by
    intro tr s c s' es hrun _ hs
    have hwork := work_step (tilingInv_run hrun.reads) (nextRead_step hs)
    exact ⟨hwork.1, hwork.2.1⟩
  notStuck := fun tr s hrun hgo => hcan.notStuck hset hrun hgo
  ends := by
    rintro tr s f hrun rfl hend
    exact hcan.ends hset hrun hend

/-! ## The condition is needed

Each part of the condition has a run of its own that fails without it.  The two assertions and the
post that is never made are reached at once; the pool is used up by posting one read after the
other with none completing. -/

/-- The phase with its first iteration entered. -/
def ReadSys.entered (ctx : TestContext) : ReadSys where
  code :=
    { ctx := (startReads ctx).ctx.resetOffsets
      sched := List.range ctx.numConns
      iter := 0
      pc := .whileTest }
  pending := []
  nextId := 0

lemma entered_run (hiters : 0 < o.numIterations) : GoodRun o ctx [] (ReadSys.entered ctx) := by
  have htick : nextRead o (ReadSys.start ctx) .tick = some (ReadSys.entered ctx, []) := by
    show some
      (({ code := forTest o (startReads ctx), pending := [], nextId := 0 } : ReadSys), _) = _
    rw [forTest, if_pos (show (startReads ctx).iter < o.numIterations from hiters)]
    rfl
  exact Run.step (E := ReadEvent) Run.start (fun _ h => by simp at h) htick

/-- The pass of the inner loop begins. -/
lemma goesOn_tick (hgo : LoopGoesOn s.code) :
    nextRead o s .tick = some ({ s with code := { s.code with pc := .post } }, []) := by
  unfold nextRead
  rw [hgo.1]
  dsimp only
  rw [whileTest, if_pos hgo.2]

lemma GoodRun.pass (hrun : GoodRun o ctx tr s) (hgo : LoopGoesOn s.code) :
    GoodRun o ctx tr { s with code := { s.code with pc := .post } } := by
  have hnext := Run.step hrun (fun _ h => by simp at h) (goesOn_tick (o := o) hgo)
  rwa [List.append_nil] at hnext

lemma entered_goesOn (hconns : ctx.numConns ≠ 0) : LoopGoesOn (ReadSys.entered ctx).code := by
  refine ⟨rfl, Or.inr fun hnil => hconns ?_⟩
  exact List.range_eq_nil.mp hnil

/-- `-i 0`. -/
lemma not_progresses_of_noIterations (hset : SetUp o ctx) (hconns : ctx.numConns ≠ 0)
    (hiters : o.numIterations = 0) : ¬ Progresses o ctx := by
  intro hp
  have hpos := o.rdmaReadSize_pos
  have hshort : ¬ ∀ i < (startReads ctx).ctx.numConns,
      ((startReads ctx).ctx.conns i).readOffset = o.rdmaReadSize := by
    intro hall
    have hfirst : (ctx.conns 0).readOffset = o.rdmaReadSize := hall 0 (Nat.pos_of_ne_zero hconns)
    rw [hset.unread 0] at hfirst
    omega
  have htick : nextRead o (ReadSys.start ctx) .tick
      = some ({ ReadSys.start ctx with
          code := { startReads ctx with pc := .stopped .assertFailed } }, []) := by
    show some
      (({ code := forTest o (startReads ctx), pending := [], nextId := 0 } : ReadSys), _) = _
    rw [forTest, if_neg (show ¬ (startReads ctx).iter < o.numIterations by omega), if_neg hshort]
    rfl
  refine (hp.noAbort _ _ (Run.step (E := ReadEvent) Run.start (fun _ h => by simp at h) htick)).1 ?_
  rfl

/-- `-o 0`. -/
lemma not_progresses_of_noReads (hconns : ctx.numConns ≠ 0) (hiters : 0 < o.numIterations)
    (hout : o.maxOutstandingReads = 0) : ¬ Progresses o ctx := by
  intro hp
  have hgo := entered_goesOn hconns
  rcases hp.notStuck _ _ (entered_run hiters) hgo with hpost | hpend
  · obtain ⟨s₁, s₂, r, htick, hposted⟩ := hpost
    rw [goesOn_tick hgo, Option.some.injEq, Prod.mk.injEq] at htick
    obtain ⟨rfl, -⟩ := htick
    have hsilent : ∀ st : ReadSys, st.code.pc = .post →
        ∃ st', nextRead o st (.post 0) = some (st', []) := by
      intro st hpc
      unfold nextRead
      rw [hpc]
      dsimp only
      rw [ReadSys.afterPost, postPart]
      cases st.code.sched with
      | nil => exact ⟨_, rfl⟩
      | cons conn rest =>
          dsimp only
          rw [if_neg (by omega)]
          exact ⟨_, rfl⟩
    obtain ⟨st', hst⟩ := hsilent { ReadSys.entered ctx with
      code := { (ReadSys.entered ctx).code with pc := .post } } rfl
    rw [hst] at hposted
    simp at hposted
  · exact hpend rfl

/-- Where the part that posts stops, the phase does. -/
lemma afterPost_stops {conn : ℕ} {rest : List ℕ} {r : Stop} (hsched : s.code.sched = conn :: rest)
    (hlimit : s.code.ctx.numOutstandingReads < o.maxOutstandingReads)
    (hstop : nextSize o s.code.ctx conn = 0 ∧ r = .assertFailed ∨
      nextSize o s.code.ctx conn ≠ 0 ∧ postRdmaRead o s.code.ctx conn
        (s.code.ctx.conns conn).readOffset (nextSize o s.code.ctx conn) (fun _ => 0)
          = .stopped r) :
    (s.afterPost o 0).1.code.pc = .stopped r := by
  rw [ReadSys.afterPost, postPart, hsched]
  dsimp only
  rw [if_pos hlimit]
  rcases hstop with ⟨hzero, rfl⟩ | ⟨hne, hpost⟩
  · rw [if_pos hzero]
  · rw [if_neg hne, hpost]

/-- A pass that stops in an assertion, or in undefined behaviour, is an abort. -/
lemma Progresses.not_stops (hp : Progresses o ctx) (hrun : GoodRun o ctx tr s)
    (hgo : LoopGoesOn s.code) {r : Stop} (hr : r = .assertFailed ∨ r = .undefined) :
    (({ s with code := { s.code with pc := .post } } : ReadSys).afterPost o 0).1.code.pc
      ≠ .stopped r := by
  intro hpc
  have hnext := Run.step (hrun.pass hgo) (c := .post 0)
    (fun ret h => by simpa using h.symm) rfl
  have hsafe := hp.noAbort _ _ hnext
  rcases hr with rfl | rfl
  · exact hsafe.1 hpc
  · exact hsafe.2 hpc

/-- `-r 0`. -/
lemma not_progresses_of_noSize (hconns : ctx.numConns ≠ 0) (hiters : 0 < o.numIterations)
    (hsize : o.maxReadSize = 0) (hout : 0 < o.maxOutstandingReads) : ¬ Progresses o ctx := by
  intro hp
  have hgo := entered_goesOn hconns
  obtain ⟨conn, rest, hcons⟩ := List.exists_cons_of_ne_nil
    (show (ReadSys.entered ctx).code.sched ≠ [] from fun h => hconns (List.range_eq_nil.mp h))
  refine hp.not_stops (entered_run hiters) hgo (Or.inl rfl) (afterPost_stops hcons hout ?_)
  left
  refine ⟨?_, rfl⟩
  rw [nextSize, hsize]
  exact Nat.zero_min _

/-- A post leaves one read less. -/
lemma ReadStep.left_of_posted {r : PostedRead} (hti : TilingInv o ctx tr s)
    (hs : ReadStep o s [.posted r] s') : readsLeft o s'.code + 1 = readsLeft o s.code := by
  generalize hes : [ReadEvent.posted r] = es at hs
  cases hs with
  | post conn rest mr queue wrId hpc hsched hlimit hsize hqueue =>
      exact readsLeft_post (hti.within (by rw [hpc]; trivial)) hsched hsize rfl
  | complete => simp at hes
  | abort => simp at hes
  | _ => simp at hes

/-- While initiators are left, reads can be posted with none completing. -/
lemma exists_outstanding (hset : SetUp o ctx) (hconns : ctx.numConns ≠ 0)
    (hiters : 0 < o.numIterations) (hmax : 0 < o.maxReadSize) {n : ℕ} (hn : n ≤ numDci)
    (hlimit : n ≤ o.maxOutstandingReads) (hreads : n ≤ readsPerIteration o ctx.numConns) :
    ∃ tr s, GoodRun o ctx tr s ∧ s.code.pc = .whileTest ∧ s.pending.length = n ∧
      s.pending.length + readsLeft o s.code = readsPerIteration o ctx.numConns := by
  induction n with
  | zero =>
      have hleft := readsLeft_enter (o := o) (s := ReadSys.start ctx)
      exact ⟨[], ReadSys.entered ctx, entered_run hiters, rfl, rfl, (zero_add _).trans hleft⟩
  | succ n ih =>
      obtain ⟨tr, s, hrun, hpc, hlen, hsum⟩ := ih (by omega) (by omega) (by omega)
      have hwithin := (tilingInv_run hrun.reads).within (by rw [hpc]; trivial)
      have hsched : s.code.sched ≠ [] := by
        intro hnil
        have := readsLeft_eq_zero hwithin hnil
        omega
      obtain ⟨conn, rest, hcons⟩ := List.exists_cons_of_ne_nil hsched
      have hout := hwithin.outstanding
      have hmr : s.code.ctx.rdmaBuf.mr.isSome := by
        rw [hwithin.setup.rdmaBuf]
        exact hset.mapped hconns
      have hqueue : HasQueue o s.code.ctx :=
        hasQueue_of_setUp hset hrun.reads hconns fun _ => by omega
      have hpass := hrun.pass ⟨hpc, Or.inr hsched⟩
      obtain ⟨s₁, r, heq, hpoll, hpend⟩ := afterPost_posts
        (s := { s with code := { s.code with pc := .post } }) hcons
        (show s.code.ctx.numOutstandingReads < _ by omega)
        (hwithin.nextSize_ne_zero hmax hcons) hmr hqueue
      have hnext : nextRead o { s with code := { s.code with pc := .post } } (.post 0)
          = some (s₁, [.posted r]) := congrArg some heq
      have hpost := Run.step hpass (fun ret h => by simpa using h.symm) hnext
      have hleft : readsLeft o s₁.code + 1 = readsLeft o { s.code with pc := .post } :=
        ReadStep.left_of_posted (s := { s with code := { s.code with pc := .post } })
          (tilingInv_run hpass.reads) (nextRead_step hnext)
      change _ = readsLeft o s.code at hleft
      have hidle : nextRead o s₁ .pollEmpty
          = some ({ s₁ with code := { s₁.code with pc := .whileTest } }, []) := by
        unfold nextRead
        rw [hpoll]
        rfl
      have hback := Run.step hpost (fun ret h => by simp at h) hidle
      refine ⟨_, _, hback, rfl, ?_, ?_⟩
      · show s₁.pending.length = n + 1
        rw [hpend, List.length_append, hlen]
        rfl
      · show s₁.pending.length + readsLeft o s₁.code = _
        rw [hpend, List.length_append, List.length_singleton]
        show s.pending.length + 1 + _ = _
        omega

/-- Where more reads are allowed, and more are to be made, than there are initiators, all of them
can be in use with a read still on the schedule. -/
lemma exists_full (hset : SetUp o ctx) (hconns : ctx.numConns ≠ 0)
    (hiters : 0 < o.numIterations) (hmax : 0 < o.maxReadSize)
    (hmany : numDci < o.maxOutstandingReads)
    (hreads : numDci < readsPerIteration o ctx.numConns) :
    ∃ tr s, GoodRun o ctx tr s ∧ LoopGoesOn s.code ∧ Within o ctx tr s ∧ s.code.sched ≠ [] ∧
      s.code.ctx.numOutstandingReads = numDci := by
  obtain ⟨tr, s, hrun, hpc, hlen, hsum⟩ :=
    exists_outstanding hset hconns hiters hmax le_rfl hmany.le hreads.le
  have hwithin := (tilingInv_run hrun.reads).within (by rw [hpc]; trivial)
  have hsched : s.code.sched ≠ [] := by
    intro hnil
    have := readsLeft_eq_zero hwithin hnil
    omega
  exact ⟨tr, s, hrun, ⟨hpc, Or.inr hsched⟩, hwithin, hsched, hwithin.outstanding.trans hlen⟩

/-- Over DC, more outstanding reads than there are initiators. -/
lemma not_progresses_of_manyReads (hset : SetUp o ctx) (hconns : ctx.numConns ≠ 0)
    (hiters : 0 < o.numIterations) (hmax : 0 < o.maxReadSize) (hdc : o.transport = .dc)
    (hmany : numDci < o.maxOutstandingReads)
    (hreads : numDci < readsPerIteration o ctx.numConns) : ¬ Progresses o ctx := by
  intro hp
  obtain ⟨tr, s, hrun, hgo, hwithin, hsched, hout⟩ :=
    exists_full hset hconns hiters hmax hmany hreads
  obtain ⟨conn, rest, hcons⟩ := List.exists_cons_of_ne_nil hsched
  have hmr : s.code.ctx.rdmaBuf.mr.isSome := by
    rw [hwithin.setup.rdmaBuf]
    exact hset.mapped hconns
  have hfull : ¬ TakesFree s.code.ctx := by
    rw [(poolInv_of_setUp hset hrun.reads hconns hdc).takesFree_iff]
    omega
  have hstops : ∀ r, postRdmaRead o s.code.ctx conn (s.code.ctx.conns conn).readOffset
      (nextSize o s.code.ctx conn) (fun _ => 0) = .stopped r →
      (({ s with code := { s.code with pc := .post } } : ReadSys).afterPost o 0).1.code.pc
        = .stopped r := by
    intro r hr
    refine afterPost_stops hcons (show s.code.ctx.numOutstandingReads < _ by omega) (Or.inr ?_)
    exact ⟨hwithin.nextSize_ne_zero hmax hcons, hr⟩
  rcases postRdmaRead_aborts hdc hmr hfull with h | h
  · exact hp.not_stops hrun hgo (Or.inl rfl) (hstops _ h)
  · exact hp.not_stops hrun hgo (Or.inr rfl) (hstops _ h)

/-! ## The result -/

/-- **When the read phase makes progress.**  After every setup phase of a server that succeeds, and
against a device that accepts every post: the phase never aborts, every read posted or completed
lowers the work left, the inner loop is never stuck, and the phase ends once its reads complete,
exactly when there is no connection, or there is an iteration to make, a size to read, a read
allowed to be outstanding, and over DC an initiator for every read that can be.

Under the condition, a pass of the inner loop posts a read wherever one is scheduled and allowed,
and work is left as long as something is scheduled or outstanding; a run without end would lower
the work for ever, or fall silent with a read outstanding that never completes.  For the converse
there is one dead end for each part of the condition, and a run that comes to it. -/
theorem readPhase_progresses_iff (o : Options) (fuel : ℕ) (t : Trace) (ctx : TestContext)
    (hserver : ¬ o.isClient) (h : Returns ((setup o fuel).run {}) t (0, ctx)) :
    Progresses o.inForce ctx ↔ CanProgress o.inForce ctx.numConns := by
  have hset := setUp_of_setup hserver h
  refine ⟨fun hp => ?_, progresses_of_canProgress hset⟩
  by_contra hcan
  rw [CanProgress, not_or] at hcan
  obtain ⟨hconns, hopts⟩ := hcan
  by_cases hiters : 0 < o.inForce.numIterations
  · by_cases hout : 0 < o.inForce.maxOutstandingReads
    · by_cases hmax : 0 < o.inForce.maxReadSize
      · have hdc : o.inForce.transport = .dc ∧ numDci < o.inForce.maxOutstandingReads ∧
            numDci < readsPerIteration o.inForce ctx.numConns := by
          by_contra hfew
          refine hopts ⟨hiters, hmax, hout, fun hdc => ?_⟩
          by_contra hmany
          rw [not_or, not_le, not_le] at hmany
          exact hfew ⟨hdc, hmany⟩
        exact not_progresses_of_manyReads hset hconns hiters hmax hdc.1 hdc.2.1 hdc.2.2 hp
      · exact not_progresses_of_noSize hconns hiters (by omega) hout hp
    · exact not_progresses_of_noReads hconns hiters (by omega) hp
  · exact not_progresses_of_noIterations hset hconns (by omega) hp

/-- An RC server with one connection, as its reads start. -/
theorem readPhase_progresses_iff_oneConnection :
    ∃ t ctx, Returns ((setup gOptions 4).run {}) t (0, ctx) ∧ ctx.numConns = 1 ∧
      Progresses gOptions.inForce ctx := by
  obtain ⟨t, ⟨ret, ctx⟩, hr, htest⟩ := exists_of_play obliging
    [eventFor .connectRequest 2, eventFor .established 2] ((setup gOptions 4).run {})
    (fun _ r => decide (r.1 = 0) && decide (r.2.numConns = 1)) (by decide +kernel)
  simp only [Bool.and_eq_true, decide_eq_true_eq] at htest
  obtain ⟨rfl, hone⟩ := htest
  refine ⟨t, ctx, hr, hone, (readPhase_progresses_iff gOptions 4 t ctx (by decide) hr).mpr ?_⟩
  exact Or.inr ⟨by decide, by decide, by decide, fun hdc => absurd hdc (by decide)⟩

/-- The options of `-o 0`. -/
def noReads : Options := { gOptions with
  maxOutstandingReads := 0
  maxOutstandingReads_lt := by decide }

/-- With `-o 0` the inner loop polls for ever for a read that is never posted. -/
theorem noReads_stuck : Accepted noReads ∧
    ∃ t ctx, Returns ((setup noReads 4).run {}) t (0, ctx) ∧
      ¬ Progresses noReads.inForce ctx := by
  refine ⟨⟨none, [.o ['0']], rfl⟩, ?_⟩
  obtain ⟨t, ⟨ret, ctx⟩, hr, htest⟩ := exists_of_play obliging
    [eventFor .connectRequest 2, eventFor .established 2] ((setup noReads 4).run {})
    (fun _ r => decide (r.1 = 0) && decide (r.2.numConns = 1)) (by decide +kernel)
  simp only [Bool.and_eq_true, decide_eq_true_eq] at htest
  obtain ⟨rfl, hone⟩ := htest
  exact ⟨t, ctx, hr, not_progresses_of_noReads (by omega) (by decide) (by decide)⟩

/-! ## When the pool lasts

`DciLeft` asks for an initiator in one state.  Over all runs it is a matter of the options and the
number of connections. -/

/-- No post of the read phase of `n` connections can find every DC initiator in use. -/
def PoolLasts (o : Options) (n : ℕ) : Prop :=
  o.numIterations = 0 ∨ o.maxReadSize = 0 ∨ o.maxOutstandingReads ≤ numDci ∨
    readsPerIteration o n ≤ numDci

instance (o : Options) (n : ℕ) : Decidable (PoolLasts o n) :=
  inferInstanceAs (Decidable (_ ∨ _ ∨ _ ∨ _))

/-- Without iterations or with empty reads nothing is posted at all. -/
lemma PoolLasts.dciLeft (hlasts : PoolLasts o ctx.numConns) (hrun : ReadRun o ctx tr s) :
    DciLeft o s.code := by
  rintro ⟨hpc, conn, rest, hcons, hlimit, hsize⟩
  have hloop : s.code.pc.InLoop := by rw [hpc]; trivial
  have hwithin := (tilingInv_run hrun).within hloop
  have hsched : s.code.sched ≠ [] := by simp [hcons]
  have hiter := hwithin.iter_lt
  have hmax : 0 < o.maxReadSize := by
    have hoff := ((hwithin.sched conn).mp (by simp [hcons])).2
    rw [nextSize_eq hoff.le] at hsize
    omega
  rcases hlasts with hzero | hzero | hfew
  · omega
  · omega
  · exact hwithin.left_of_few hrun hloop hsched hmax hlimit hfew

/-- Where it does not last, the post that follows on a full pool finds no initiator. -/
lemma poolLasts_of_dciLeft (hset : SetUp o ctx) (hconns : ctx.numConns ≠ 0)
    (hleft : ∀ tr s, ReadRun o ctx tr s → DciLeft o s.code) : PoolLasts o ctx.numConns := by
  by_contra hnot
  simp only [PoolLasts, not_or, not_le] at hnot
  obtain ⟨hiters, hmax, hmany, hreads⟩ := hnot
  obtain ⟨tr, s, hrun, hgo, hwithin, hsched, hout⟩ := exists_full hset hconns
    (Nat.pos_of_ne_zero hiters) (Nat.pos_of_ne_zero hmax) hmany hreads
  obtain ⟨conn, rest, hcons⟩ := List.exists_cons_of_ne_nil hsched
  have hattempts : Attempts o { s.code with pc := .post } :=
    ⟨rfl, conn, rest, hcons, by rw [hout]; exact hmany,
      hwithin.nextSize_ne_zero (Nat.pos_of_ne_zero hmax) hcons⟩
  have hlt := hleft _ _ (hrun.pass hgo).reads hattempts
  exact absurd hout hlt.ne

/-- **For which inputs the pool invariant holds throughout.**  In every state of every run of the
reads of a DC server: exactly when there is a connection, and the phase posts nothing, or may have
no more than `NUM_DCI` reads outstanding, or has no more than that to make in an iteration.  One
direction counts the reads an iteration still has; for the other the reads are posted one after
the other with none completing until every initiator is in use. -/
theorem poolOk_throughout_iff (o : Options) (fuel : ℕ) (t : Trace) (ctx : TestContext)
    (hserver : ¬ o.isClient) (hdc : o.transport = .dc)
    (h : Returns ((setup o fuel).run {}) t (0, ctx)) :
    (∀ tr s, ReadRun o.inForce ctx tr s → PoolOk o.inForce s.code) ↔
      ctx.numConns ≠ 0 ∧ PoolLasts o.inForce ctx.numConns := by
  have hset := setUp_of_setup hserver h
  have hdc' : o.inForce.transport = .dc := by rw [inForce_transport, hdc]
  constructor
  · intro hok
    have hconns := numConns_ne_zero_of_poolOk hserver hdc h Run.start (hok [] _ Run.start)
    refine ⟨hconns, poolLasts_of_dciLeft hset hconns fun tr s hrun => ?_⟩
    exact (poolInv_of_setUp hset hrun hconns hdc').poolOk_iff.mp (hok tr s hrun)
  · rintro ⟨hconns, hlasts⟩ tr s hrun
    exact (poolInv_of_setUp hset hrun hconns hdc').poolOk_iff.mpr (hlasts.dciLeft hrun)

end RdmaFc
