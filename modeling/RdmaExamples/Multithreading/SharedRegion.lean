import RdmaExamples.Multithreading.Threads

/-!
# The threads and their regions

A thread puts its region into `local_mr` and takes the region of its operations from there, and it
polls for one completion, whosever it is.  So the threads stay apart where one registers its buffer
only after the other has ended (`OneAtATime`).  Nothing sees to that: with more than one thread,
there are runs in which a thread names the region of another (`threads_separate_iff`).

* `ThreadsSeparate` — what is expected of the threads.
* `Alone` — what holds of the records and of the pool as long as one works at a time.

* `Traced` — what the record of a thread tells of the calls that it has made.
* `Alone.call`, `Alone.complete` — one step keeps it, if the step is as `OneAtATime` asks.
* `separate_of_oneAtATime` — so every run of such steps is as expected, also where verbs fail.

`OneAtATime` looks at each step by itself, with the pool as it is: who has registered a buffer and
has not ended.
-/

namespace Multithreading

open Programs Systems Monitors

/-! ## What is expected -/

/-- The region that a thread has registered over its buffer. -/
def OwnRegion (t : Trace) (addr length : UInt64) (mr : Option Mr) : Prop :=
  (⟨.malloc length, addr⟩ : Event Call Reply) ∈ t ∧
    ∃ access region, mr = some region ∧
      (⟨.regMr addr length access, some region⟩ : Event Call Reply) ∈ t

/-- A write or a read names such a region. -/
def PostsOwn (t : Trace) : Event Call Reply → Prop
  | ⟨.postWrite addr length mr _, _⟩ => OwnRegion t addr length mr
  | ⟨.postRead addr length mr _, _⟩ => OwnRegion t addr length mr
  | _ => True

/-- A thread in its polling loop. -/
def Polls : Prog Call Reply Unit → Prop
  | .ret _ => False
  | .call c _ => c = .pollCq
  | .halt => True

/-- What is expected: a thread names its own region, and with an operation of its own in flight it
does not leave the loop. -/
structure ThreadsSeparate (tr : ThreadTrace) (s : ThreadSys) : Prop where
  own : ∀ i, ∀ e ∈ traceOf (.thread i) tr, PostsOwn (traceOf (.thread i) tr) e
  waits : ∀ i, .thread i ∈ s.shared.sq → Polls (s.procs (.thread i))

/-- One thread after the other: a buffer is registered while no other thread is between its
`ibv_reg_mr` and its end, and neither `ibv_reg_mr` nor `ibv_poll_cq` fails. -/
def OneAtATime (pool : Pool) (party : Party) : Event Call Reply → Prop
  | ⟨.regMr _ _ _, mr⟩ => mr ≠ none ∧ ∀ other ∈ pool.atWork, other = party
  | ⟨.pollCq, ret⟩ => 0 ≤ ret
  | _ => True

/-! ## The calls of a thread -/

/-- What the record of a thread tells of its calls. -/
structure Traced (t : Trace) (g : Progress) : Prop where
  buff : ∀ addr length, g.buff = some (addr, length) →
    (⟨.malloc length, addr⟩ : Event Call Reply) ∈ t
  region : ∀ addr length region, g.region = some (addr, length, region) →
    OwnRegion t addr length (some region)
  posts : ∀ e ∈ t, PostsOwn t e

section Traced

variable {n : ℕ} {party : Party} {g : Progress} {t : Trace} {e : Event Call Reply}
  {addr length : UInt64} {mr : Option Mr}

lemma traced_start : Traced [] {} where
  buff _ _ h := absurd h (by simp)
  region _ _ _ h := absurd h (by simp)
  posts _ h := absurd h (by simp)

lemma OwnRegion.snoc (h : OwnRegion t addr length mr) : OwnRegion (t ++ [e]) addr length mr := by
  obtain ⟨hbuff, access, region, hmr, hreg⟩ := h
  exact ⟨List.mem_append_left _ hbuff, access, region, hmr, List.mem_append_left _ hreg⟩

lemma PostsOwn.snoc {e' : Event Call Reply} (h : PostsOwn t e') : PostsOwn (t ++ [e]) e' := by
  obtain ⟨c, reply⟩ := e'
  cases c with
  | postWrite => exact OwnRegion.snoc h
  | postRead => exact OwnRegion.snoc h
  | _ => trivial

/-- A post of what the thread has registered. -/
lemma Traced.own (h : Traced t g) (hown : g.Own addr length mr) : OwnRegion t addr length mr := by
  obtain ⟨region, rfl, hregion⟩ := hown
  exact h.region _ _ _ hregion

/-- A call that leaves buffer and region as they are. -/
lemma Traced.keep {r : Progress} (h : Traced t g) (hbuff : r.buff = g.buff)
    (hregion : r.region = g.region) (hposts : PostsOwn t e) : Traced (t ++ [e]) r where
  buff addr length hr := List.mem_append_left _ (h.buff addr length (hbuff ▸ hr))
  region addr length region hr := (h.region addr length region (hregion ▸ hr)).snoc
  posts e' he' := by
    rcases List.mem_append.mp he' with he' | he'
    · exact (h.posts e' he').snoc
    · rw [List.mem_singleton.mp he']
      exact hposts.snoc

lemma posted_region {ret : Int} :
    (g.posted ret).buff = g.buff ∧ (g.posted ret).region = g.region := by
  rw [Progress.posted]
  split <;> exact ⟨rfl, rfl⟩

lemma polled_region {ret : Int} :
    (g.polled ret).buff = g.buff ∧ (g.polled ret).region = g.region := by
  rw [Progress.polled]
  split <;> exact ⟨rfl, rfl⟩

/-- **A call of a thread that keeps to its monitor.** -/
theorem Traced.call (h : Traced t g) (hallowed : g.allowed n True party e.1) :
    Traced (t ++ [e]) (g.after e) := by
  obtain ⟨c, reply⟩ := e
  cases c with
  | malloc size =>
      have hkeep : Traced (t ++ [⟨.malloc size, reply⟩]) g := h.keep rfl rfl trivial
      refine ⟨fun addr length hbuff => ?_, hkeep.region, hkeep.posts⟩
      obtain ⟨rfl, rfl⟩ := Prod.mk.inj (Option.some.inj hbuff)
      exact List.mem_append_right _ (List.mem_singleton_self _)
  | regMr addr length access =>
      have hkeep : Traced (t ++ [⟨.regMr addr length access, reply⟩]) g := h.keep rfl rfl trivial
      cases reply with
      | none => exact hkeep
      | some mr =>
          refine ⟨hkeep.buff, fun addr' length' region' hregion => ?_, hkeep.posts⟩
          simp only [Progress.after, Option.some.injEq, Prod.mk.injEq] at hregion
          obtain ⟨rfl, rfl, rfl⟩ := hregion
          exact ⟨hkeep.buff _ _ hallowed.2.2, access, mr, rfl,
            List.mem_append_right _ (List.mem_singleton_self _)⟩
  | postWrite => exact h.keep posted_region.1 posted_region.2 (h.own (hallowed.2.2 trivial))
  | postRead => exact h.keep posted_region.1 posted_region.2 (h.own (hallowed.2.2 trivial))
  | postSend => exact h.keep posted_region.1 posted_region.2 trivial
  | pollCq => exact h.keep polled_region.1 polled_region.2 trivial
  | getSendComp => exact h.keep polled_region.1 polled_region.2 trivial
  | _ => exact h.keep rfl rfl trivial

end Traced

/-! ## One at a time

A thread that works alone finds everything as it has left it.  `AloneThread` says so for each
thread; `Alone` adds that there is only one at work. -/

/-- What a thread and the pool know of each other.  A thread is at work from the registration of
its region to its end, and while the region is shown the global handle is the one of this thread;
its operations on the queue are those it waits for. -/
structure AloneThread (pool : Pool) (i : ℕ) (g : Progress) : Prop where
  atWork : g.region ≠ none → g.ended = false → .thread i ∈ pool.atWork
  busy : g.busy = true → g.region ≠ none
  shown : g.shown = true → g.region ≠ none ∧
    (g.ended = false → pool.localMr = g.region.map (·.2.2))
  ops : (pool.sq ++ pool.cq).count (.thread i) = g.busy.toNat

/-- At most one is at work, and the message `EXIT` is sent behind all of them. -/
structure Alone (n : ℕ) (g : Party → Progress) (pool : Pool) : Prop extends PoolBase n g pool where
  threads : ∀ i, AloneThread pool i (g (.thread i))
  alone : ∀ p ∈ pool.atWork, ∀ q ∈ pool.atWork, p = q
  mainOps : .main ∈ pool.sq ++ pool.cq → (g .main).joined = n
  last : (g .main).busy = true → (g .main).joined = n

section Alone

variable {n cap i : ℕ} {fails : Bool} {g : Party → Progress} {pool pool' : Pool} {party : Party}
  {e : Event Call Reply} {r : Progress} {ret : Int}

lemma alone_start : Alone n (fun _ => {}) {} where
  toPoolBase := poolBase_start
  threads _ :=
    ⟨fun h => absurd rfl h, fun h => absurd h (by simp), fun h => absurd h (by simp), rfl⟩
  alone _ h := absurd h (by simp)
  mainOps h := absurd h (by simp)
  last h := absurd h (by simp)

/-- A change of one party's record. -/
lemma threads_update {P : ℕ → Progress → Prop} (hother : ∀ i, P i (g (.thread i)))
    (hself : ∀ i, party = .thread i → P i r) (i : ℕ) :
    P i (Function.update g party r (.thread i)) := by
  by_cases hp : Party.thread i = party
  · subst hp
    rw [Function.update_self]
    exact hself i rfl
  · rw [Function.update_of_ne hp]
    exact hother i

lemma main_update {P : Progress → Prop} (hother : P (g .main)) (hself : party = .main → P r) :
    P (Function.update g party r .main) := by
  by_cases hp : Party.main = party
  · subst hp
    rw [Function.update_self]
    exact hself rfl
  · rw [Function.update_of_ne hp]
    exact hother

lemma AloneThread.keep {g : Progress} (h : AloneThread pool i g)
    (hwork : pool'.atWork = pool.atWork)
    (hmr : pool'.localMr = pool.localMr) (hops : pool'.sq ++ pool'.cq = pool.sq ++ pool.cq)
    (hregion : r.region = g.region) (hshown : r.shown = g.shown) (hbusy : r.busy = g.busy)
    (hended : r.ended = g.ended) : AloneThread pool' i r := by
  constructor
  · rw [hregion, hended, hwork]
    exact h.atWork
  · rw [hbusy, hregion]
    exact h.busy
  · rw [hshown, hregion, hended, hmr]
    exact h.shown
  · rw [hops, hbusy]
    exact h.ops

/-- A call that is neither about regions nor about operations. -/
lemma Alone.keep (h : Alone n g pool) (hbase : PoolBase n (Function.update g party r) pool')
    (hwork : pool'.atWork = pool.atWork) (hmr : pool'.localMr = pool.localMr)
    (hops : pool'.sq ++ pool'.cq = pool.sq ++ pool.cq) (hregion : r.region = (g party).region)
    (hshown : r.shown = (g party).shown) (hbusy : r.busy = (g party).busy)
    (hended : r.ended = (g party).ended) (hjoined : r.joined = (g party).joined) :
    Alone n (Function.update g party r) pool' := by
  refine ⟨hbase, threads_update (fun i => (h.threads i).keep hwork hmr hops rfl rfl rfl rfl) ?_,
    ?_, ?_, ?_⟩
  · rintro i rfl
    exact (h.threads i).keep hwork hmr hops hregion hshown hbusy hended
  · rw [hwork]
    exact h.alone
  · rw [hops]
    refine main_update (P := fun r => _ → r.joined = n) h.mainOps ?_
    rintro rfl
    rw [hjoined]
    exact h.mainOps
  · refine main_update (P := fun r => r.busy = true → r.joined = n) h.last ?_
    rintro rfl
    rw [hbusy, hjoined]
    exact h.last

/-- A thread that waits for an operation is at work. -/
lemma Alone.busy_atWork (h : Alone n g pool) (hbusy : (g (.thread i)).busy = true) :
    .thread i ∈ pool.atWork := by
  refine (h.threads i).atWork ((h.threads i).busy hbusy) ?_
  by_contra hended
  rw [Bool.not_eq_false] at hended
  rw [h.idle i hended] at hbusy
  exact absurd hbusy (by simp)

lemma Alone.busy_of_mem (h : Alone n g pool) (hmem : .thread i ∈ pool.sq ++ pool.cq) :
    (g (.thread i)).busy = true := by
  by_contra hidle
  have hops := (h.threads i).ops
  rw [Bool.not_eq_true] at hidle
  rw [hidle] at hops
  exact List.count_eq_zero.mp hops hmem

/-- No thread waits for an operation when all have been joined. -/
lemma Alone.main_only (h : Alone n g pool) (hjoined : (g .main).joined = n)
    (hmem : party ∈ pool.sq ++ pool.cq) : party = .main := by
  cases party with
  | main => rfl
  | thread i =>
      have hbusy := h.busy_of_mem hmem
      have hstarted : i ∈ pool.started := by
        by_contra hnot
        rw [h.fresh i hnot] at hbusy
        exact absurd hbusy (by simp)
      have hlt : i < (g .main).joined := by
        rw [hjoined]
        exact started_lt h.toPoolBase hstarted
      rw [h.idle i (h.ended i (h.joined i hlt))] at hbusy
      exact absurd hbusy (by simp)

/-- A thread registers its buffer. -/
lemma Alone.register {addr length : UInt64} {mr : Mr} (h : Alone n g pool)
    (hbase : PoolBase n (Function.update g party { g party with
      region := some (addr, length, mr), shown := false })
      { pool with atWork := party :: pool.atWork })
    (hparty : party ≠ .main) (halone : ∀ other ∈ pool.atWork, other = party) :
    Alone n (Function.update g party { g party with
      region := some (addr, length, mr), shown := false })
      { pool with atWork := party :: pool.atWork } := by
  have hall : ∀ p ∈ party :: pool.atWork, p = party := by
    intro p hp
    rcases List.mem_cons.mp hp with hp | hp
    · exact hp
    · exact halone p hp
  refine ⟨hbase, threads_update ?_ ?_, fun p hp q hq => (hall p hp).trans (hall q hq).symm, ?_, ?_⟩
  · exact fun i =>
      ⟨fun hregion hended => List.mem_cons_of_mem _ ((h.threads i).atWork hregion hended),
      (h.threads i).busy, (h.threads i).shown, (h.threads i).ops⟩
  · rintro i rfl
    exact ⟨fun _ _ => List.mem_cons_self, fun _ => by simp, fun hshown => absurd hshown (by simp),
      (h.threads i).ops⟩
  · exact main_update (P := fun r => _ → r.joined = n) h.mainOps fun hp => absurd hp hparty
  · exact main_update (P := fun r => r.busy = true → r.joined = n) h.last fun hp => absurd hp hparty

/-- A thread puts its region into `local_mr`. -/
lemma Alone.show {mr : Option Mr} (h : Alone n g pool)
    (hbase : PoolBase n (Function.update g party { g party with shown := true })
      { pool with localMr := mr })
    (hidle : (g party).Idle) (hparty : party ≠ .main) (hmr : mr = (g party).region.map (·.2.2))
    (hregion : (g party).region ≠ none) :
    Alone n (Function.update g party { g party with shown := true })
      { pool with localMr := mr } := by
  -- another thread whose region is in `local_mr` would be at work as well
  have hother : ∀ i, (g (.thread i)).shown = true → (g (.thread i)).ended = false →
      mr = (g (.thread i)).region.map (·.2.2) := by
    intro i hshown hended
    cases party with
    | main => exact absurd rfl hparty
    | thread j =>
        have hi := (h.threads i).atWork ((h.threads i).shown hshown).1 hended
        have hj := (h.threads j).atWork hregion hidle.2
        rw [h.alone _ hi _ hj]
        exact hmr
  refine ⟨hbase, threads_update ?_ ?_, h.alone, ?_, ?_⟩
  · exact fun i => ⟨(h.threads i).atWork, (h.threads i).busy,
      fun hshown => ⟨((h.threads i).shown hshown).1, hother i hshown⟩, (h.threads i).ops⟩
  · rintro i rfl
    exact ⟨(h.threads i).atWork, (h.threads i).busy, fun _ => ⟨hregion, fun _ => hmr⟩,
      (h.threads i).ops⟩
  · exact main_update (P := fun r => _ → r.joined = n) h.mainOps fun hp => absurd hp hparty
  · exact main_update (P := fun r => r.busy = true → r.joined = n) h.last fun hp => absurd hp hparty

/-- An operation is posted: by a thread that has a region, or behind all of them. -/
lemma Alone.post (h : Alone n g pool)
    (hbase : PoolBase n (Function.update g party ((g party).posted ret)) pool')
    (hidle : (g party).Idle) (hthread : party ≠ .main → (g party).region ≠ none)
    (hmain : party = .main → (g .main).joined = n)
    (hs : pool.post cap fails party ret = some pool') :
    Alone n (Function.update g party ((g party).posted ret)) pool' := by
  rcases post_cases hs with ⟨rfl, -, rfl⟩ | ⟨hret, -, rfl⟩
  · have hposted : (g party).posted 0 = { g party with busy := true } := rfl
    rw [hposted] at hbase ⊢
    have hperm : (pool.sq ++ [party] ++ pool.cq).Perm (party :: (pool.sq ++ pool.cq)) := by
      rw [List.append_assoc]
      exact List.perm_middle
    refine ⟨hbase, ?_, h.alone, ?_, ?_⟩
    · intro i
      have hops := (h.threads i).ops
      by_cases hp : party = .thread i
      · subst hp
        rw [Function.update_self]
        refine ⟨(h.threads i).atWork, fun _ => hthread (by simp), (h.threads i).shown, ?_⟩
        rw [hperm.count_eq, List.count_cons_self, hops, hidle.1]
        rfl
      · rw [Function.update_of_ne (Ne.symm hp)]
        refine ⟨(h.threads i).atWork, (h.threads i).busy, (h.threads i).shown, ?_⟩
        rw [hperm.count_eq, List.count_cons_of_ne hp, hops]
    · intro hmem
      rcases List.mem_cons.mp (hperm.mem_iff.mp hmem) with hp | hmem
      · subst hp
        rw [Function.update_self]
        exact hmain rfl
      · exact main_update (P := fun r => r.joined = n) (h.mainOps hmem)
          fun hp => hp ▸ h.mainOps hmem
    · exact main_update (P := fun r => r.busy = true → r.joined = n) h.last
        fun hp _ => hp ▸ hmain hp
  · have hposted : (g party).posted ret = g party := if_neg hret
    rw [hposted, Function.update_eq_self]
    exact h

/-- A completion is taken: it is that of the party's own operation. -/
lemma Alone.poll (h : Alone n g pool)
    (hbase : PoolBase n (Function.update g party ((g party).polled ret)) pool')
    (hruns : pool.Runs party) (hbusy : (g party).busy = true) (hended : (g party).ended = false)
    (hfails : party ≠ .main → 0 ≤ ret) (hs : pool.poll fails ret = some pool') :
    (party ≠ .main → ret = 0 ∨ ret = 1) ∧
      Alone n (Function.update g party ((g party).polled ret)) pool' := by
  rcases poll_cases hs with ⟨rfl, rfl⟩ | ⟨rfl, x, rest, hcq, rfl⟩ | ⟨hneg, -, rfl⟩
  · have hpolled : (g party).polled 0 = g party := if_pos rfl
    rw [hpolled, Function.update_eq_self]
    exact ⟨fun _ => Or.inl rfl, h⟩
  · refine ⟨fun _ => Or.inr rfl, ?_⟩
    have hpolled : (g party).polled 1 = { g party with busy := false } := rfl
    rw [hpolled] at hbase ⊢
    have hperm : (pool.sq ++ pool.cq).Perm (x :: (pool.sq ++ rest)) := by
      rw [hcq]
      exact List.perm_middle
    have hx : x ∈ pool.sq ++ pool.cq := hperm.mem_iff.mpr List.mem_cons_self
    have hown : x = party := by
      cases party with
      | main => exact h.main_only (h.last hbusy) hx
      | thread i =>
          cases x with
          | main => exact absurd (h.mainOps hx) (h.not_joined hruns hended)
          | thread j => exact h.alone _ (h.busy_atWork (h.busy_of_mem hx)) _ (h.busy_atWork hbusy)
    subst hown
    refine ⟨hbase, ?_, h.alone, ?_, ?_⟩
    · intro i
      have hops := (h.threads i).ops
      by_cases hp : x = .thread i
      · subst hp
        rw [Function.update_self]
        refine ⟨(h.threads i).atWork, fun hfalse => absurd hfalse (by simp),
          (h.threads i).shown, ?_⟩
        rw [hperm.count_eq, List.count_cons_self, hbusy, Bool.toNat_true] at hops
        exact Nat.succ.inj hops
      · rw [Function.update_of_ne (Ne.symm hp)]
        refine ⟨(h.threads i).atWork, (h.threads i).busy, (h.threads i).shown, ?_⟩
        rw [hperm.count_eq, List.count_cons_of_ne hp] at hops
        exact hops
    · intro hmem
      have hjoined := h.mainOps (hperm.mem_iff.mpr (List.mem_cons_of_mem _ hmem))
      exact main_update (P := fun r => r.joined = n) hjoined fun hp => hp ▸ hjoined
    · exact main_update (P := fun r => r.busy = true → r.joined = n) h.last
        fun _ hfalse => absurd hfalse (by simp)
  · refine ⟨fun hp => absurd (hfails hp) (not_le.mpr hneg), ?_⟩
    -- the main thread gives up on `EXIT`
    have hmain : party = .main := by
      by_contra hp
      exact absurd (hfails hp) (not_le.mpr hneg)
    subst hmain
    have hpolled : (g .main).polled ret = { g .main with busy := false } := if_neg hneg.ne
    rw [hpolled] at hbase ⊢
    refine ⟨hbase, threads_update h.threads fun i hp => absurd hp (by simp), h.alone, ?_, ?_⟩
    · rw [Function.update_self]
      exact h.mainOps
    · rw [Function.update_self]
      exact fun hfalse => absurd hfalse (by simp)

/-- The end of a thread. -/
lemma Alone.finish (h : Alone n g pool)
    (hbase : PoolBase n (Function.update g (.thread i) { g (.thread i) with ended := true })
      (pool.finish (.thread i))) (hidle : (g (.thread i)).busy = false) :
    Alone n (Function.update g (.thread i) { g (.thread i) with ended := true })
      (pool.finish (.thread i)) := by
  refine ⟨hbase, ?_, ?_, ?_, ?_⟩
  · intro j
    by_cases hp : Party.thread j = .thread i
    · rw [hp, Function.update_self]
      obtain rfl := Party.thread.inj hp
      exact ⟨fun _ hfalse => absurd hfalse (by simp), (h.threads j).busy,
        fun hshown => ⟨((h.threads j).shown hshown).1, fun hfalse => absurd hfalse (by simp)⟩,
        (h.threads j).ops⟩
    · rw [Function.update_of_ne hp]
      refine ⟨fun hregion hended => ?_, (h.threads j).busy, (h.threads j).shown, (h.threads j).ops⟩
      exact List.mem_filter.mpr ⟨(h.threads j).atWork hregion hended, by simpa using hp⟩
  · exact fun p hp q hq => h.alone p (List.mem_filter.mp hp).1 q (List.mem_filter.mp hq).1
  · exact main_update (P := fun r => _ → r.joined = n) h.mainOps fun hp => absurd hp (by simp)
  · exact main_update (P := fun r => r.busy = true → r.joined = n) h.last
      fun hp => absurd hp (by simp)

/-- The main thread has joined one more. -/
lemma Alone.join (h : Alone n g pool)
    (hbase : PoolBase n (Function.update g .main { g .main with joined := (g .main).joined + 1 })
      pool) (hidle : (g .main).Idle) (hlt : (g .main).joined < n) :
    Alone n (Function.update g .main { g .main with joined := (g .main).joined + 1 }) pool := by
  refine ⟨hbase, threads_update h.threads fun i hp => absurd hp (by simp), h.alone, ?_, ?_⟩
  · exact fun hmem => absurd (h.mainOps hmem) hlt.ne
  · rw [Function.update_self]
    intro hbusy
    have hidle' : (g .main).busy = false := hidle.1
    exact absurd (hbusy.symm.trans hidle') (by simp)

/-- **A call**, where the thread keeps to its monitor and the others are not at work.  The
condition is needed at `ibv_reg_mr`, where a thread goes to work, and at `ibv_poll_cq`, which has
to succeed for the thread to know its operation done. -/
theorem Alone.call (h : Alone n g pool) (hallowed : (g party).allowed n True party e.1)
    (hcond : OneAtATime pool party e) (hs : pool.answer cap fails party e = some pool') :
    (g party).expected True e ∧ Alone n (Function.update g party ((g party).after e)) pool' := by
  have hbase := h.toPoolBase.call hallowed hs
  have hended := not_ended_of_allowed hallowed
  obtain ⟨hruns, hs⟩ := answer_reply hs
  obtain ⟨c, reply⟩ := e
  cases c with
  | regMr addr length access =>
      cases reply with
      | none => exact absurd rfl hcond.1
      | some mr =>
          simp only [Pool.reply] at hs
          split at hs
          · obtain rfl := Option.some.inj hs
            exact ⟨fun _ => hcond.1, h.register hbase hallowed.2.1 hcond.2⟩
          · exact absurd hs (by simp)
  | setLocalMr mr =>
      obtain rfl := Option.some.inj hs
      obtain ⟨hidle, hparty, hown⟩ := hallowed
      exact ⟨trivial, h.show hbase hidle hparty (hown trivial).1 (hown trivial).2⟩
  | getLocalMr =>
      simp only [Pool.reply] at hs
      split at hs
      · rename_i hmr
        obtain rfl := Option.some.inj hs
        obtain ⟨-, hparty, hshown⟩ := hallowed
        refine ⟨fun _ => ?_, h.keep hbase rfl rfl rfl rfl rfl rfl rfl rfl⟩
        cases party with
        | main => exact absurd rfl hparty
        | thread i => exact hmr.trans (((h.threads i).shown (hshown trivial).1).2 hended)
      · exact absurd hs (by simp)
  | postWrite =>
      obtain ⟨hidle, hparty, hown⟩ := hallowed
      obtain ⟨region, -, hregion⟩ := hown trivial
      exact ⟨trivial, h.post hbase hidle (fun _ => by rw [hregion]; simp)
        (fun hp => absurd hp hparty) hs⟩
  | postRead =>
      obtain ⟨hidle, hparty, hown⟩ := hallowed
      obtain ⟨region, -, hregion⟩ := hown trivial
      exact ⟨trivial, h.post hbase hidle (fun _ => by rw [hregion]; simp)
        (fun hp => absurd hp hparty) hs⟩
  | postSend =>
      obtain ⟨hidle, rfl, hjoined⟩ := hallowed
      exact ⟨trivial, h.post hbase hidle (fun hp => absurd rfl hp) (fun _ => hjoined) hs⟩
  | pollCq =>
      obtain ⟨hbusy, -, hparty⟩ := hallowed
      obtain ⟨hret, halone⟩ := h.poll hbase hruns hbusy hended (fun _ => hcond) hs
      exact ⟨hret hparty, halone⟩
  | getSendComp =>
      obtain ⟨hbusy, -, rfl⟩ := hallowed
      exact ⟨trivial, (h.poll hbase hruns hbusy hended (fun hp => absurd rfl hp) hs).2⟩
  | join i =>
      simp only [Pool.reply] at hs
      split at hs
      · obtain rfl := Option.some.inj hs
        obtain ⟨hidle, rfl, rfl, hlt⟩ := hallowed
        exact ⟨trivial, h.join hbase hidle hlt⟩
      · exact absurd hs (by simp)
  | threadEnd =>
      obtain rfl := Option.some.inj hs
      cases party with
      | main => exact absurd rfl hallowed.2
      | thread i => exact ⟨trivial, h.finish hbase hallowed.1.1⟩
  | _ =>
      obtain rfl := Option.some.inj hs
      exact ⟨trivial, h.keep hbase rfl rfl rfl rfl rfl rfl rfl rfl⟩

lemma device_keeps {d : Unit} (hs : pool.device d = some pool') :
    pool'.atWork = pool.atWork ∧ pool'.started = pool.started := by
  rw [Pool.device] at hs
  split at hs
  · obtain rfl := Option.some.inj hs
    exact ⟨rfl, rfl⟩
  · exact absurd hs (by simp)

/-- **A completion.** -/
theorem Alone.complete {d : Unit} (h : Alone n g pool) (hs : pool.device d = some pool') :
    Alone n g pool' := by
  have hbase := h.toPoolBase.complete hs
  rw [Pool.device] at hs
  split at hs
  · rename_i party rest hsq
    obtain rfl := Option.some.inj hs
    have hperm : (rest ++ (pool.cq ++ [party])).Perm (pool.sq ++ pool.cq) := by
      rw [hsq, ← List.append_assoc]
      exact List.perm_append_singleton _ _
    refine ⟨hbase, fun i => ?_, h.alone, fun hmem => h.mainOps (hperm.mem_iff.mp hmem), h.last⟩
    refine ⟨(h.threads i).atWork, (h.threads i).busy, (h.threads i).shown, ?_⟩
    rw [hperm.count_eq]
    exact (h.threads i).ops
  · exact absurd hs (by simp)

end Alone

/-! ## Runs -/

section

variable {n cap : ℕ} {fails : Bool} {globals : Local.Globals} {fuel : Party → ℕ} {remote : Handle}
  {tr : ThreadTrace} {s : ThreadSys}

/-- A thread that waits for an operation polls. -/
lemma polls_of_busy {i : ℕ} {g : Progress} {p : Prog Call Reply Unit}
    (h : Obeys (threadMonitor n True (.thread i)) (fun g _ => g.busy = false) p g)
    (hbusy : g.busy = true) : Polls p := by
  have hidle : ¬ g.Idle := fun hidle => absurd (hbusy.symm.trans hidle.1) (by simp)
  cases p with
  | ret a => exact absurd (hbusy.symm.trans h) (by simp)
  | halt => trivial
  | call c k =>
      have hallowed : g.allowed n True (.thread i) c := h.1
      cases c with
      | pollCq => rfl
      | getSendComp => exact absurd hallowed.2.2 (by simp)
      | regMr => exact absurd hallowed.1 hidle
      | setLocalMr => exact absurd hallowed.1 hidle
      | getLocalMr => exact absurd hallowed.1 hidle
      | postWrite => exact absurd hallowed.1 hidle
      | postRead => exact absurd hallowed.1 hidle
      | postSend => exact absurd hallowed.1 hidle
      | spawn => exact absurd hallowed.1 hidle
      | join => exact absurd hallowed.1 hidle
      | threadEnd => exact absurd hallowed.1 hidle
      | _ => exact absurd hallowed hidle

/-- **Threads that work one at a time stay apart.**  As long as that holds, what a thread finds in
`local_mr` is what it has put there, and what it polls is its own. -/
theorem separate_of_oneAtATime
    (h : Runs.Run (next (pool cap fails)) (Meets OneAtATime)
      (ThreadSys.start globals fuel remote n) tr s) : ThreadsSeparate tr s := by
  obtain ⟨⟨halone, htraced⟩, hobeys⟩ :=
    Run.monitored (threadMonitor n True) (fun _ => {}) OneAtATime
    (Q := fun _ g _ => g.busy = false) (A := fun _ => True)
    (I := fun tr g pool => Alone n g pool ∧ ∀ i, Traced (traceOf (.thread i) tr) (g (.thread i)))
    (fun _ _ _ _ _ _ => trivial) (fun _ _ _ _ _ => trivial)
    ⟨alone_start, fun _ => traced_start⟩ threads_obey
    (fun tr g m party e m' hI hallowed hcond hs _ => by
      obtain ⟨hexpected, halone⟩ := hI.1.call hallowed hcond hs
      refine ⟨hexpected, halone, fun i => ?_⟩
      by_cases hp : party = .thread i
      · subst hp
        rw [traceOf_append, traceOf_self, Function.update_self]
        exact (hI.2 i).call hallowed
      · rw [traceOf_append, traceOf_ne hp, List.append_nil, Function.update_of_ne (Ne.symm hp)]
        exact hI.2 i)
    (fun tr g m d m' hI hs _ => ⟨hI.1.complete (d := d) hs, fun i => by
      rw [traceOf_append, traceOf_device, List.append_nil]
      exact hI.2 i⟩)
    h trivial
  refine ⟨fun i e he => (htraced i).posts e he, fun i hmem => ?_⟩
  exact polls_of_busy (hobeys (.thread i)) (halone.busy_of_mem (List.mem_append_left _ hmem))

/-- Who is at work has been started. -/
def WorkersStarted (pool : Pool) : Prop :=
  ∀ p ∈ pool.atWork, ∃ i ∈ pool.started, p = .thread i

lemma WorkersStarted.keep {pool pool' : Pool} (h : WorkersStarted pool)
    (hwork : ∀ p ∈ pool'.atWork, p ∈ pool.atWork)
    (hstarted : ∀ i ∈ pool.started, i ∈ pool'.started) : WorkersStarted pool' := by
  intro p hp
  obtain ⟨i, hi, rfl⟩ := h p (hwork p hp)
  exact ⟨i, hstarted i hi, rfl⟩

lemma WorkersStarted.call {pool pool' : Pool} {party : Party} {e : Event Call Reply} {r : Progress}
    (h : WorkersStarted pool) (hallowed : r.allowed n False party e.1)
    (hs : pool.answer cap false party e = some pool') :
    r.expected False e ∧ WorkersStarted pool' := by
  obtain ⟨hruns, hs⟩ := answer_reply hs
  obtain ⟨c, reply⟩ := e
  have hpost : ∀ ret, pool.post cap false party ret = some pool' → WorkersStarted pool' := by
    intro ret hs
    rcases post_cases hs with ⟨-, -, rfl⟩ | ⟨-, -, rfl⟩ <;> exact h
  have hpoll : ∀ ret, pool.poll false ret = some pool' →
      (ret = 0 ∨ ret = 1) ∧ WorkersStarted pool' := by
    intro ret hs
    rcases poll_cases hs with ⟨hret, rfl⟩ | ⟨hret, x, rest, -, rfl⟩ | ⟨-, hfails, -⟩
    · exact ⟨Or.inl hret, h⟩
    · exact ⟨Or.inr hret, h⟩
    · exact absurd hfails (by simp)
  cases c with
  | regMr addr length access =>
      cases reply with
      | none => exact absurd hs (by simp [Pool.reply])
      | some mr =>
          simp only [Pool.reply] at hs
          split at hs
          · obtain rfl := Option.some.inj hs
            refine ⟨fun hfalse => hfalse.elim, fun p hp => ?_⟩
            rcases List.mem_cons.mp hp with rfl | hp
            · cases p with
              | main => exact absurd rfl hallowed.2.1
              | thread i => exact ⟨i, hruns, rfl⟩
            · exact h p hp
          · exact absurd hs (by simp)
  | getLocalMr =>
      simp only [Pool.reply] at hs
      split at hs
      · obtain rfl := Option.some.inj hs
        exact ⟨fun hfalse => hfalse.elim, h⟩
      · exact absurd hs (by simp)
  | postWrite => exact ⟨trivial, hpost _ hs⟩
  | postRead => exact ⟨trivial, hpost _ hs⟩
  | postSend => exact ⟨trivial, hpost _ hs⟩
  | pollCq => exact hpoll _ hs
  | getSendComp => exact ⟨trivial, (hpoll _ hs).2⟩
  | spawn i =>
      obtain rfl := Option.some.inj hs
      exact ⟨trivial, h.keep (fun _ hp => hp) fun _ hi => List.mem_cons_of_mem _ hi⟩
  | join i =>
      simp only [Pool.reply] at hs
      split at hs
      · obtain rfl := Option.some.inj hs
        exact ⟨trivial, h⟩
      · exact absurd hs (by simp)
  | threadEnd =>
      obtain rfl := Option.some.inj hs
      cases party with
      | main => exact ⟨trivial, h⟩
      | thread i => exact ⟨trivial, h.keep (fun _ hp => (List.mem_filter.mp hp).1) fun _ hi => hi⟩
  | _ =>
      obtain rfl := Option.some.inj hs
      exact ⟨trivial, h⟩

/-- What every run keeps up, whatever the threads name. -/
lemma threads_base
    (h : Runs.Run (next (pool cap false)) Runs.always
      (ThreadSys.start globals fuel remote n) tr s) :
    ∃ g, PoolBase n g s.shared ∧ WorkersStarted s.shared ∧
      ∀ party, Obeys (threadMonitor n False party) (fun g _ => g.busy = false) (s.procs party)
        (g party) := by
  have hrun := Run.monitored (threadMonitor n False) (fun _ => {}) (fun _ _ _ => True)
    (Q := fun _ g _ => g.busy = false) (A := fun _ => True)
    (I := fun _ g pool => PoolBase n g pool ∧ WorkersStarted pool)
    (fun _ _ _ _ _ _ => trivial) (fun _ _ _ _ _ => trivial)
    ⟨poolBase_start, fun _ hnot => absurd hnot (by simp)⟩ threads_obey
    (fun _ _ _ _ _ _ hI hallowed _ hs _ =>
      ⟨(hI.2.call hallowed hs).1, hI.1.call hallowed hs, (hI.2.call hallowed hs).2⟩)
    (fun _ _ m d m' hI hs _ => ⟨hI.1.complete (d := d) hs, by
      have hkeep : m'.atWork = m.atWork ∧ m'.started = m.started := device_keeps (d := d) hs
      exact hI.2.keep (fun p hp => hkeep.1 ▸ hp) fun i hi => hkeep.2 ▸ hi⟩)
    (h.weaken fun _ choice _ => meets_true choice) trivial
  exact ⟨_, hrun.1.1, hrun.1.2, hrun.2⟩

/-- **At most one thread** is never at work with another. -/
theorem oneThread_oneAtATime (hn : n ≤ 1)
    (h : Runs.Run (next (pool cap false)) Runs.always
      (ThreadSys.start globals fuel remote n) tr s) :
    Runs.Run (next (pool cap false)) (Meets OneAtATime) (ThreadSys.start globals fuel remote n)
      tr s := by
  refine h.invariant (I := fun tr s => Runs.Run (next (pool cap false)) (Meets OneAtATime)
    (ThreadSys.start globals fuel remote n) tr s) Runs.Run.start ?_
  intro tr s choice s' es ih _ hs
  refine ih.step ?_ hs
  cases choice with
  | device d => trivial
  | call party reply =>
      intro c k hp
      obtain ⟨g, hbase, hworkers, hobeys⟩ := threads_base (ih.weaken fun _ _ _ => trivial)
      have hallowed := hobeys party
      rw [hp] at hallowed
      obtain ⟨c', k', m, hp', hm, -, -⟩ := next_call hs
      obtain ⟨rfl, -⟩ := Prog.call.inj (hp.symm.trans hp')
      obtain ⟨hruns, hm⟩ := answer_reply hm
      have hzero : ∀ i ∈ s.shared.started, i = 0 := by
        intro i hi
        have hlt := started_lt hbase hi
        omega
      generalize reply c = ret at hm
      cases c with
      | regMr addr length access =>
          refine ⟨?_, fun other hother => ?_⟩
          · rintro rfl
            exact absurd hm (by simp [Pool.reply])
          · obtain ⟨i, hi, rfl⟩ := hworkers other hother
            cases party with
            | main => exact absurd rfl hallowed.1.2.1
            | thread j => rw [hzero i hi, hzero j hruns]
      | pollCq =>
          rcases poll_cases hm with ⟨hret, -⟩ | ⟨hret, -⟩ | ⟨-, hfails, -⟩
          · exact hret.ge
          · exact zero_le_one.trans hret.ge
          · exact absurd hfails (by simp)
      | _ => trivial

end

/-! ## More than one thread

The run that goes wrong is written down party by party, with nothing failing: the main thread
starts two, both register, and the first one posts. -/

/-- The calls of a thread up to the store to `local_mr`, where its buffer is at `addr`. -/
def registerCalls (rmSize addr : UInt64) : Trace :=
  [⟨.malloc rmSize, addr⟩, ⟨.memset addr 0 rmSize.toNat, ()⟩,
    ⟨.regMr addr rmSize accessLocalWrite, some ⟨addr, rmSize, 7⟩⟩,
    ⟨.setLocalMr (some ⟨addr, rmSize, 7⟩), ()⟩]

/-- The calls that follow, up to the write, where `local_mr` is `mr`. -/
def writeCalls (rmSize addr : UInt64) (mr : Mr) (remote : Handle) (ret : Int) : Trace :=
  [⟨.strcpy addr (Local.decimal 0), ()⟩, ⟨.getLocalMr, some mr⟩,
    ⟨.postWrite addr rmSize (some mr) remote, ret⟩]

/-- What a post answers, where none has been posted. -/
def firstPost (cap : ℕ) : Int := if 0 < cap then 0 else -1

section

variable {cap i : ℕ} {m : Pool} {rmSize addr : UInt64} {mr : Mr} {remote : Handle} {ret : Int}

lemma answers_register (hexited : m.exited = false) (hruns : i ∈ m.started) :
    (pool cap false).answers (.thread i) m (registerCalls rmSize addr) =
      some { m with atWork := .thread i :: m.atWork, localMr := some ⟨addr, rmSize, 7⟩ } := by
  simp [registerCalls, Medium.answers, pool, Pool.answer, Pool.Runs, Pool.reply, hexited, hruns]

lemma answers_write (hexited : m.exited = false) (hruns : i ∈ m.started)
    (hmr : m.localMr = some mr) (hsq : m.sq = []) (hcq : m.cq = []) :
    ∃ m', (pool cap false).answers (.thread i) m
      (writeCalls rmSize addr mr remote (firstPost cap)) = some m' := by
  have hpost : ∃ m', m.post cap false (.thread i) (firstPost cap) = some m' := by
    simp only [Pool.post, firstPost, hsq, hcq, List.length_nil]
    by_cases hcap : 0 < cap
    · simp [hcap]
    · simp [hcap]
      omega
  obtain ⟨m', hm'⟩ := hpost
  refine ⟨m', ?_⟩
  simp [writeCalls, Medium.answers, pool, Pool.answer, Pool.Runs, Pool.reply, hexited, hruns, hmr,
    hm']

/-- **The first thread finds the region of the second.**  Both threads register their buffers and
show their regions, the second one last; then the first one posts its write. -/
lemma otherRegion_reached (m cap : ℕ) (globals : Local.Globals) (fuel : Party → ℕ)
    (remote : Handle) : ∃ tr s,
      Runs.Run (next (pool cap false)) Runs.always (ThreadSys.start globals fuel remote (m + 2))
        tr s ∧
      traceOf (.thread 0) tr = registerCalls globals.rmSize 4096 ++
        writeCalls globals.rmSize 4096 ⟨8192, globals.rmSize, 7⟩ remote (firstPost cap) := by
  have others := goodReply [] 0 none
  have hstart : Runs.Run (next (pool cap false)) Runs.always
      (ThreadSys.start globals fuel remote (m + 2)) []
      (ThreadSys.start globals fuel remote (m + 2)) :=
    Runs.Run.start
  have hmain := Run.solo (p := Party.main) (t := [⟨.spawn 0, ()⟩, ⟨.spawn 1, ()⟩]) others hstart
    (Steps.call (Steps.call (Steps.here _))) rfl
  have hfirst := Run.solo (p := Party.thread 0) (t := registerCalls globals.rmSize 4096) others
    hmain (Steps.call (Steps.call (Steps.call (Steps.call (Steps.here _)))))
    (answers_register rfl (by simp))
  have hsecond := Run.solo (p := Party.thread 1) (t := registerCalls globals.rmSize 8192) others
    hfirst (Steps.call (Steps.call (Steps.call (Steps.call (Steps.here _)))))
    (answers_register rfl (by simp))
  obtain ⟨m', hm'⟩ : ∃ m', (pool cap false).answers (.thread 0)
      ⟨some ⟨8192, globals.rmSize, 7⟩, [], [], [1, 0], [], [.thread 1, .thread 0], false⟩
      (writeCalls globals.rmSize 4096 ⟨8192, globals.rmSize, 7⟩ remote (firstPost cap)) = some m' :=
    answers_write rfl (by simp) rfl rfl rfl
  have hwrite := Run.solo (p := Party.thread 0) others hsecond
    (Steps.call (Steps.call (Steps.call (Steps.here _)))) hm'
  exact ⟨_, _, hwrite, rfl⟩

lemma otherRegion_notOwn : ¬ OwnRegion (registerCalls rmSize 4096 ++
    writeCalls rmSize 4096 ⟨8192, rmSize, 7⟩ remote ret) 4096 rmSize (some ⟨8192, rmSize, 7⟩) := by
  rintro ⟨-, access, region, hmr, hreg⟩
  obtain rfl := Option.some.inj hmr
  simp [registerCalls, writeCalls] at hreg

end

/-- **The threads stay apart as long as they work one at a time**; and in every run, exactly where
there are not two of them.

While one thread works alone, `local_mr` is the region that it has put there, and every operation
under way or completed is its own (`Alone`).  So it names its own region, and its poll takes its
own completion.  With two threads, the second one can put its region into `local_mr` before the
first one has taken its own from there (`otherRegion_reached`). -/
theorem threads_separate_iff (n cap : ℕ) (globals : Local.Globals) (fuel : Party → ℕ)
    (remote : Handle) :
    (∀ fails tr s, Runs.Run (next (pool cap fails)) (Meets OneAtATime)
      (ThreadSys.start globals fuel remote n) tr s → ThreadsSeparate tr s) ∧
    ((∀ tr s, Runs.Run (next (pool cap false)) Runs.always
      (ThreadSys.start globals fuel remote n) tr s → ThreadsSeparate tr s) ↔ n ≤ 1) := by
  refine ⟨fun fails tr s h => separate_of_oneAtATime h, fun hall => ?_, fun hn tr s h => ?_⟩
  · by_contra hn
    obtain ⟨m, rfl⟩ : ∃ m, n = m + 2 := ⟨n - 2, by omega⟩
    obtain ⟨tr, s, hrun, htrace⟩ := otherRegion_reached m cap globals fuel remote
    have hown := (hall tr s hrun).own 0
    rw [htrace] at hown
    exact otherRegion_notOwn (hown ⟨.postWrite 4096 globals.rmSize
      (some ⟨8192, globals.rmSize, 7⟩) remote, firstPost cap⟩ (by simp [writeCalls]))
  · exact separate_of_oneAtATime (oneThread_oneAtATime hn h)

/-! ### Two threads, one after the other and at once -/

instance (pool : Pool) (party : Party) (e : Event Call Reply) :
    Decidable (OneAtATime pool party e) := by
  unfold OneAtATime
  split <;> infer_instance

/-- The next calls of a party, where `malloc` returns `addr` and `local_mr` is the region there. -/
def goesAt (party : Party) (count : ℕ) (addr : UInt64) : List (Choice Party Call Reply Unit) :=
  List.replicate count (.call party (goodReply [] addr (some ⟨addr, 32, 7⟩)))

/-- A thread, with the completions of its two operations. -/
def wholeThread (i : ℕ) (addr : UInt64) : List (Choice Party Call Reply Unit) :=
  goesAt (.thread i) 7 addr ++ [.device ()] ++ goesAt (.thread i) 5 addr ++ [.device ()] ++
    goesAt (.thread i) 3 addr

/-- Two threads, the second behind the first. -/
theorem threads_separate_inTurn : ∃ tr s,
    Runs.Run (next (pool 16 true)) (Meets OneAtATime)
        (ThreadSys.start ⟨32, true⟩ (fun _ => 1) ⟨7, 0⟩ 2) tr s ∧
      s.shared.ended = [1, 0] ∧ ThreadsSeparate tr s := by
  obtain ⟨tr, s, hrun, htest⟩ := Runs.Run.exists_of_play
    (fun s choice => if Meets OneAtATime s choice then next (pool 16 true) s choice else none)
    (ThreadSys.start ⟨32, true⟩ (fun _ => 1) ⟨7, 0⟩ 2)
    (goesAt .main 2 0 ++ wholeThread 0 4096 ++ wholeThread 1 8192)
    (fun r => decide (r.1.shared.ended = [1, 0])) (by decide +kernel)
  have hmeets := Runs.Run.of_guarded hrun
  exact ⟨tr, s, hmeets, of_decide_eq_true htest,
    (threads_separate_iff 2 16 ⟨32, true⟩ (fun _ => 1) ⟨7, 0⟩).1 true tr s hmeets⟩

/-- A program that clears memory next. -/
def clears : Prog Call Reply Unit → Bool
  | .call (.memset _ _ _) _ => true
  | _ => false

/-- Both threads write, and the second polls the completion of the first. -/
def atOnce : List (Choice Party Call Reply Unit) :=
  goesAt .main 2 0 ++ goesAt (.thread 0) 4 4096 ++ goesAt (.thread 1) 4 8192 ++
    goesAt (.thread 0) 3 8192 ++ goesAt (.thread 1) 3 8192 ++ [.device ()] ++
    goesAt (.thread 1) 1 8192

/-- **Two threads at once**: the second goes on to clear its buffer with its write in flight. -/
theorem twoThreads_notSeparate : ∃ tr s,
    Runs.Run (next (pool 16 false)) Runs.always
        (ThreadSys.start ⟨32, true⟩ (fun _ => 1) ⟨7, 0⟩ 2) tr s ∧
      .thread 1 ∈ s.shared.sq ∧ clears (s.procs (.thread 1)) = true ∧ ¬ ThreadsSeparate tr s := by
  obtain ⟨tr, s, hrun, htest⟩ := Runs.Run.exists_of_play (next (pool 16 false))
    (ThreadSys.start ⟨32, true⟩ (fun _ => 1) ⟨7, 0⟩ 2) atOnce
    (fun r => decide (.thread 1 ∈ r.1.shared.sq) && clears (r.1.procs (.thread 1)))
    (by decide +kernel)
  rw [Bool.and_eq_true, decide_eq_true_eq] at htest
  obtain ⟨hmem, hclears⟩ := htest
  refine ⟨tr, s, hrun, hmem, hclears, fun hseparate => ?_⟩
  have hpolls := hseparate.waits 1 hmem
  generalize s.procs (.thread 1) = p at hpolls hclears
  cases p with
  | ret a => exact hpolls
  | halt => exact absurd hclears (by simp [clears])
  | call c k =>
      obtain rfl : c = .pollCq := hpolls
      exact absurd hclears (by simp [clears])

end Multithreading
