import RdmaExamples.Multithreading.Threads

/-!
# The completions of the threads

Whoever polls takes the first completion, so a thread often takes one that is not its own.  But
there are always as many operations under way or completed as there are threads that wait for one
(`PoolCounts.count`): nobody waits for nothing, and when all threads have been joined nothing is
left for `EXIT` to find but its own completion.

* `busyCount` — how many threads have an operation that they wait for.
* `PoolCounts` — the invariant: that number, and whose the operations are once all threads have
  been joined.
* `PoolCounts.room` — why no post is refused: a thread that is about to post does not wait, so that
  fewer than `n` operations are under way.

The count says nothing of whose the completions are, and it cannot: what a thread takes may be
another's.
-/

namespace Multithreading

open Programs Systems Monitors

/-! ## How many wait -/

/-- How many of the threads have an operation that they wait for. -/
def busyCount (n : ℕ) (g : Party → Progress) : ℕ :=
  ∑ i ∈ Finset.range n, (g (.thread i)).busy.toNat

section Counts

variable {n i : ℕ} {g : Party → Progress} {r : Progress}

lemma busyCount_main : busyCount n (Function.update g .main r) = busyCount n g :=
  Finset.sum_congr rfl fun i _ => by rw [Function.update_of_ne (by simp)]

lemma busyCount_thread (hi : i < n) :
    busyCount n (Function.update g (.thread i) r) + (g (.thread i)).busy.toNat =
      busyCount n g + r.busy.toNat := by
  have hmem : i ∈ Finset.range n := Finset.mem_range.mpr hi
  have hothers : ∀ j ∈ (Finset.range n).erase i,
      (Function.update g (.thread i) r (.thread j)).busy.toNat = (g (.thread j)).busy.toNat := by
    intro j hj
    have hne : Party.thread j ≠ .thread i := fun heq =>
      Finset.ne_of_mem_erase hj (Party.thread.inj heq)
    rw [Function.update_of_ne hne]
  rw [busyCount, busyCount, ← Finset.add_sum_erase _ _ hmem, Finset.sum_congr rfl hothers,
    Function.update_self]
  have hsplit := Finset.add_sum_erase _ (fun j => (g (.thread j)).busy.toNat) hmem
  omega

lemma busyCount_pos (hi : i < n) (hbusy : (g (.thread i)).busy = true) : 0 < busyCount n g := by
  have hle := Finset.single_le_sum (f := fun j => (g (.thread j)).busy.toNat)
    (fun _ _ => Nat.zero_le _) (Finset.mem_range.mpr hi)
  simp only [hbusy, Bool.toNat_true] at hle
  exact hle

/-- One that does not wait leaves room for itself. -/
lemma busyCount_lt (hi : i < n) (hidle : (g (.thread i)).busy = false) : busyCount n g < n := by
  have hle : ∀ j ∈ Finset.range n, (g (.thread j)).busy.toNat ≤ 1 := fun j _ => Bool.toNat_le _
  have hlt := Finset.sum_lt_sum hle ⟨i, Finset.mem_range.mpr hi, by rw [hidle]; exact one_pos⟩
  simpa [busyCount] using hlt

lemma busyCount_zero (h : ∀ i < n, (g (.thread i)).busy = false) : busyCount n g = 0 :=
  Finset.sum_eq_zero fun i hi => by rw [h i (Finset.mem_range.mp hi)]; rfl

end Counts

/-! ## As many as there are completions -/

/-- The operations under way and the completions are those that somebody waits for; behind the
joins they are the main thread's.  A party has at most one operation out, and it waits for it
before the next; the completions are not told apart, so it is only their number that fits until the
threads are joined. -/
structure PoolCounts (n : ℕ) (g : Party → Progress) (pool : Pool) : Prop extends
    PoolBase n g pool where
  count : pool.sq.length + pool.cq.length = (g .main).busy.toNat + busyCount n g
  mine : (g .main).joined = n → ∀ p ∈ pool.sq ++ pool.cq, p = .main
  last : (g .main).busy = true → (g .main).joined = n

/-- A call whose operation the queue has refused. -/
def refused : Event Call Reply → Bool
  | ⟨.postWrite _ _ _ _, ret⟩ => decide (ret ≠ 0)
  | ⟨.postRead _ _ _ _, ret⟩ => decide (ret ≠ 0)
  | _ => false

section Pool

variable {n cap : ℕ} {apart : Prop} {g : Party → Progress} {pool pool' : Pool} {party : Party}
  {e : Event Call Reply} {r : Progress} {ret : Int} {i : ℕ}

lemma poolCounts_start : PoolCounts n (fun _ => {}) {} where
  toPoolBase := poolBase_start
  count := by simp [busyCount]
  mine _ _ h := absurd h (by simp)
  last h := absurd h (by simp)

lemma PoolCounts.all_idle (h : PoolCounts n g pool) (hjoined : (g .main).joined = n) :
    busyCount n g = 0 := by
  refine busyCount_zero fun i hi => h.idle i (h.ended i (h.joined i ?_))
  rw [hjoined]
  exact hi

/-- Of a thread that has been started and has not ended, the main thread waits for nothing. -/
lemma PoolCounts.main_idle (h : PoolCounts n g pool) (hruns : i ∈ pool.started)
    (hended : (g (.thread i)).ended = false) : (g .main).busy = false := by
  by_contra hbusy
  rw [Bool.not_eq_false] at hbusy
  exact h.not_joined hruns hended (h.last hbusy)

/-- **There is room**, for as many threads as the queue takes operations. -/
lemma PoolCounts.room (h : PoolCounts n g pool) (hcap : n ≤ cap) (hruns : i ∈ pool.started)
    (hidle : (g (.thread i)).Idle) : pool.sq.length + pool.cq.length < cap := by
  have hcount := h.count
  have hlt := busyCount_lt (started_lt h.toPoolBase hruns) hidle.1
  rw [h.main_idle hruns hidle.2] at hcount
  simp only [Bool.toNat_false] at hcount
  omega

/-- A call that is not about operations. -/
lemma PoolCounts.keep (h : PoolCounts n g pool)
    (hbase : PoolBase n (Function.update g party r) pool') (hruns : pool.Runs party)
    (hsq : pool'.sq = pool.sq) (hcq : pool'.cq = pool.cq) (hbusy : r.busy = (g party).busy)
    (hjoined : r.joined = (g party).joined) : PoolCounts n (Function.update g party r) pool' := by
  cases party with
  | main =>
      refine ⟨hbase, ?_, ?_, ?_⟩
      · rw [Function.update_self, busyCount_main, hsq, hcq, hbusy]
        exact h.count
      · rw [Function.update_self, hsq, hcq, hjoined]
        exact h.mine
      · rw [Function.update_self, hbusy, hjoined]
        exact h.last
  | thread i =>
      have hmain : Function.update g (.thread i) r .main = g .main :=
        Function.update_of_ne (by simp) _ _
      refine ⟨hbase, ?_, ?_, ?_⟩
      · have hsum := busyCount_thread (g := g) (r := r) (started_lt h.toPoolBase hruns)
        rw [hbusy] at hsum
        rw [hmain, hsq, hcq, Nat.add_right_cancel hsum]
        exact h.count
      · rw [hmain, hsq, hcq]
        exact h.mine
      · rw [hmain]
        exact h.last

lemma PoolCounts.post (h : PoolCounts n g pool)
    (hbase : PoolBase n (Function.update g party ((g party).posted ret)) pool')
    (hruns : pool.Runs party) (hidle : (g party).Idle)
    (hlast : party = .main → (g .main).joined = n)
    (hs : pool.post cap false party ret = some pool') :
    PoolCounts n (Function.update g party ((g party).posted ret)) pool' := by
  rcases post_cases hs with ⟨rfl, -, rfl⟩ | ⟨hret, -, rfl⟩
  · have hcount := h.count
    have hbusy : ((g party).posted 0).busy = true := rfl
    cases party with
    | main =>
        refine ⟨hbase, ?_, ?_, ?_⟩
        · simp only [Function.update_self, busyCount_main, List.length_append,
            List.length_singleton, hbusy, Bool.toNat_true]
          rw [hidle.1, Bool.toNat_false] at hcount
          omega
        · intro _ p hp
          have hmine := h.mine (hlast rfl) p
          simp only [List.mem_append, List.mem_singleton] at hp hmine
          rcases hp with (hp | rfl) | hp
          · exact hmine (Or.inl hp)
          · rfl
          · exact hmine (Or.inr hp)
        · rw [Function.update_self]
          exact fun _ => hlast rfl
    | thread i =>
        have hmain : Function.update g (.thread i) ((g (.thread i)).posted 0) .main = g .main :=
          Function.update_of_ne (by simp) _ _
        refine ⟨hbase, ?_, ?_, ?_⟩
        · have hsum := busyCount_thread (g := g) (r := (g (.thread i)).posted 0)
            (started_lt h.toPoolBase hruns)
          rw [hidle.1, hbusy, Bool.toNat_false, Bool.toNat_true] at hsum
          simp only [hmain, List.length_append, List.length_singleton]
          omega
        · rw [hmain]
          exact fun hjoined => absurd hjoined (h.not_joined hruns hidle.2)
        · rw [hmain]
          exact h.last
  · have hposted : (g party).posted ret = g party := if_neg hret
    rw [hposted, Function.update_eq_self]
    exact h

lemma PoolCounts.poll (h : PoolCounts n g pool)
    (hbase : PoolBase n (Function.update g party ((g party).polled ret)) pool')
    (hruns : pool.Runs party) (hbusy : (g party).busy = true)
    (hended : (g party).ended = false) (hs : pool.poll false ret = some pool') :
    (ret = 0 ∨ ret = 1) ∧ PoolCounts n (Function.update g party ((g party).polled ret)) pool' := by
  rcases poll_cases hs with ⟨rfl, rfl⟩ | ⟨rfl, x, rest, hcq, rfl⟩ | ⟨-, hfails, -⟩
  · have hpolled : (g party).polled 0 = g party := if_pos rfl
    rw [hpolled, Function.update_eq_self]
    exact ⟨Or.inl rfl, h⟩
  · have hcount := h.count
    have hidle : ((g party).polled 1).busy = false := rfl
    rw [hcq, List.length_cons] at hcount
    refine ⟨Or.inr rfl, ?_⟩
    cases party with
    | main =>
        refine ⟨hbase, ?_, ?_, ?_⟩
        · simp only [Function.update_self, busyCount_main, hidle, Bool.toNat_false]
          rw [hbusy, Bool.toNat_true] at hcount
          omega
        · intro _ p hp
          have hmine := h.mine (h.last hbusy) p
          rw [hcq, List.mem_append] at hmine
          rcases List.mem_append.mp hp with hp | hp
          · exact hmine (Or.inl hp)
          · exact hmine (Or.inr (List.mem_cons_of_mem _ hp))
        · rw [Function.update_self, hidle]
          exact fun hfalse => absurd hfalse (by simp)
    | thread i =>
        have hmain : Function.update g (.thread i) ((g (.thread i)).polled 1) .main = g .main :=
          Function.update_of_ne (by simp) _ _
        refine ⟨hbase, ?_, ?_, ?_⟩
        · have hsum := busyCount_thread (g := g) (r := (g (.thread i)).polled 1)
            (started_lt h.toPoolBase hruns)
          rw [hbusy, hidle, Bool.toNat_false, Bool.toNat_true] at hsum
          simp only [hmain]
          omega
        · rw [hmain]
          exact fun hjoined => absurd hjoined (h.not_joined hruns hended)
        · rw [hmain]
          exact h.last
  · exact absurd hfails (by simp)

/-- **A call**, where the thread keeps to its monitor and no verb fails.  A post adds an operation
and makes its thread wait, a poll takes a completion and ends one wait, and no other call does
either. -/
theorem PoolCounts.call (h : PoolCounts n g pool)
    (hallowed : (g party).allowed n False party e.1)
    (hs : pool.answer cap false party e = some pool') :
    (g party).expected False e ∧
      PoolCounts n (Function.update g party ((g party).after e)) pool' := by
  have hbase := h.toPoolBase.call hallowed hs
  obtain ⟨hruns, hs⟩ := answer_reply hs
  obtain ⟨c, reply⟩ := e
  cases c with
  | regMr addr length access =>
      cases reply with
      | none => exact absurd hs (by simp [Pool.reply])
      | some mr =>
          simp only [Pool.reply] at hs
          split at hs
          · obtain rfl := Option.some.inj hs
            exact ⟨fun hfalse => hfalse.elim, h.keep hbase hruns rfl rfl rfl rfl⟩
          · exact absurd hs (by simp)
  | getLocalMr =>
      simp only [Pool.reply] at hs
      split at hs
      · obtain rfl := Option.some.inj hs
        exact ⟨fun hfalse => hfalse.elim, h.keep hbase hruns rfl rfl rfl rfl⟩
      · exact absurd hs (by simp)
  | postWrite =>
      exact ⟨trivial, h.post hbase hruns hallowed.1 (fun hp => absurd hp hallowed.2.1) hs⟩
  | postRead => exact ⟨trivial, h.post hbase hruns hallowed.1 (fun hp => absurd hp hallowed.2.1) hs⟩
  | postSend =>
      refine ⟨trivial, h.post hbase hruns hallowed.1 ?_ hs⟩
      rintro rfl
      exact hallowed.2.2
  | pollCq => exact h.poll hbase hruns hallowed.1 hallowed.2.1 hs
  | getSendComp => exact ⟨trivial, (h.poll hbase hruns hallowed.1 hallowed.2.1 hs).2⟩
  | join i =>
      simp only [Pool.reply] at hs
      split at hs
      · obtain rfl := Option.some.inj hs
        obtain ⟨hidle, rfl, -, -⟩ := hallowed
        refine ⟨trivial, hbase, ?_, ?_, ?_⟩
        · rw [Function.update_self, busyCount_main]
          exact h.count
        · intro hjoined p hp
          -- the last join: nobody waits for anything
          have hnone : busyCount n (Function.update g .main
              ((g .main).after ⟨.join i, reply⟩)) = 0 := by
            refine busyCount_zero fun j hj => hbase.idle j (hbase.ended j (hbase.joined j ?_))
            rw [hjoined]
            exact hj
          rw [busyCount_main] at hnone
          have hcount := h.count
          rw [hidle.1, hnone] at hcount
          have hempty : (pool.sq ++ pool.cq).length = 0 := by
            rw [List.length_append]
            simpa using hcount
          rw [List.length_eq_zero_iff.mp hempty] at hp
          exact absurd hp (by simp)
        · rw [Function.update_self]
          intro hbusy
          have hidle' : (g .main).busy = false := hidle.1
          exact absurd (hbusy.symm.trans hidle') (by simp)
      · exact absurd hs (by simp)
  | threadEnd =>
      obtain rfl := Option.some.inj hs
      cases party with
      | main => exact absurd rfl hallowed.2
      | thread j => exact ⟨trivial, h.keep hbase hruns rfl rfl rfl rfl⟩
  | _ =>
      obtain rfl := Option.some.inj hs
      exact ⟨trivial, h.keep hbase hruns rfl rfl rfl rfl⟩

/-- **A completion.** -/
theorem PoolCounts.complete {d : Unit} (h : PoolCounts n g pool)
    (hs : pool.device d = some pool') : PoolCounts n g pool' := by
  have hbase := h.toPoolBase.complete hs
  rw [Pool.device] at hs
  split at hs
  · rename_i party rest hsq
    obtain rfl := Option.some.inj hs
    refine ⟨hbase, ?_, fun hjoined p hp => h.mine hjoined p ?_, h.last⟩
    · rw [← h.count, hsq]
      simp only [List.length_append, List.length_cons, List.length_nil]
      omega
    · rw [hsq]
      simp only [List.mem_append, List.mem_cons, List.not_mem_nil, or_false] at hp ⊢
      rcases hp with hp | hp | hp
      · exact Or.inl (Or.inr hp)
      · exact Or.inr hp
      · exact Or.inl (Or.inl hp)
  · exact absurd hs (by simp)

end Pool

/-! ## What the threads have shown -/

/-- The records of the threads, and what they have shown. -/
structure Shown (tr : ThreadTrace) (g : Party → Progress) : Prop where
  joins : ∀ i r, (⟨.join i, r⟩ : Event Call Reply) ∈ traceOf .main tr → i < (g .main).joined
  sent : (g .main).busy = true → ∃ e ∈ traceOf .main tr, e.1 = .postSend
  accepted : ∀ i, ∀ e ∈ traceOf (.thread i) tr, refused e = false

section Shown

variable {n cap : ℕ} {g : Party → Progress} {pool pool' : Pool} {party : Party}
  {e : Event Call Reply} {r : Progress} {tr : ThreadTrace} {i : ℕ}

lemma joined_le_after : r.joined ≤ (r.after e).joined := by
  obtain ⟨c, reply⟩ := e
  cases c with
  | regMr addr length access => cases reply <;> exact le_rfl
  | postWrite => exact posted_keeps.2.1.ge
  | postRead => exact posted_keeps.2.1.ge
  | postSend => exact posted_keeps.2.1.ge
  | pollCq => exact polled_keeps.2.1.ge
  | getSendComp => exact polled_keeps.2.1.ge
  | join => exact Nat.le_succ _
  | _ => exact le_rfl

/-- The main thread waits for what it has sent. -/
lemma main_sent (hallowed : r.allowed n False .main e.1) (hbusy : (r.after e).busy = true) :
    r.busy = true ∨ e.1 = .postSend := by
  obtain ⟨c, reply⟩ := e
  cases c with
  | regMr addr length access => exact absurd rfl hallowed.2.1
  | postWrite => exact absurd rfl hallowed.2.1
  | postRead => exact absurd rfl hallowed.2.1
  | postSend => exact Or.inr rfl
  | pollCq => exact Or.inl hallowed.1
  | getSendComp => exact Or.inl hallowed.1
  | _ => exact Or.inl hbusy

/-- No operation of a thread is refused. -/
lemma not_refused (h : PoolCounts n g pool) (hcap : n ≤ cap)
    (hallowed : (g (.thread i)).allowed n False (.thread i) e.1)
    (hs : pool.answer cap false (.thread i) e = some pool') : refused e = false := by
  obtain ⟨hruns, hs⟩ := answer_reply hs
  have hzero : ∀ ret, (g (.thread i)).Idle → pool.post cap false (.thread i) ret = some pool' →
      ret = 0 := by
    intro ret hidle hpost
    rcases post_cases hpost with ⟨hret, -, -⟩ | ⟨-, hfull, -⟩
    · exact hret
    · have hroom := h.room hcap hruns hidle
      rcases hfull with hfails | hfull
      · exact absurd hfails (by simp)
      · omega
  obtain ⟨c, reply⟩ := e
  cases c with
  | postWrite => exact decide_eq_false (not_not.mpr (hzero _ hallowed.1 hs))
  | postRead => exact decide_eq_false (not_not.mpr (hzero _ hallowed.1 hs))
  | _ => rfl

lemma Shown.call (h : Shown tr g) (hcounts : PoolCounts n g pool) (hcap : n ≤ cap)
    (hallowed : (g party).allowed n False party e.1)
    (hs : pool.answer cap false party e = some pool') :
    Shown (tr ++ [.call party e]) (Function.update g party ((g party).after e)) := by
  cases party with
  | main =>
      refine ⟨fun i r hi => ?_, fun hbusy => ?_, fun i e' he' => ?_⟩
      · rw [Function.update_self]
        rw [traceOf_append, traceOf_self, List.mem_append, List.mem_singleton] at hi
        rcases hi with hi | rfl
        · exact (h.joins i r hi).trans_le joined_le_after
        · have hnext : i = (g .main).joined := hallowed.2.2.1
          rw [hnext]
          exact Nat.lt_succ_self _
      · rw [Function.update_self] at hbusy
        rw [traceOf_append, traceOf_self]
        rcases main_sent hallowed hbusy with hbusy | hpost
        · obtain ⟨e', he', hpost⟩ := h.sent hbusy
          exact ⟨e', List.mem_append_left _ he', hpost⟩
        · exact ⟨e, List.mem_append_right _ (List.mem_singleton_self _), hpost⟩
      · rw [traceOf_append, traceOf_ne (by simp), List.append_nil] at he'
        exact h.accepted i e' he'
  | thread j =>
      have hmain : Function.update g (.thread j) ((g (.thread j)).after e) .main = g .main :=
        Function.update_of_ne (by simp) _ _
      have htrace : traceOf Party.main (tr ++ [.call (.thread j) e]) = traceOf .main tr := by
        rw [traceOf_append, traceOf_ne (by simp), List.append_nil]
      refine ⟨?_, ?_, fun i e' he' => ?_⟩
      · rw [hmain, htrace]
        exact h.joins
      · rw [hmain, htrace]
        exact h.sent
      · by_cases hj : Party.thread j = .thread i
        · obtain rfl := Party.thread.inj hj
          rw [traceOf_append, traceOf_self, List.mem_append, List.mem_singleton] at he'
          rcases he' with he' | rfl
          · exact h.accepted j e' he'
          · exact not_refused hcounts hcap hallowed hs
        · rw [traceOf_append, traceOf_ne hj, List.append_nil] at he'
          exact h.accepted i e' he'

end Shown

/-! ## Runs -/

section

variable {n cap : ℕ} {globals : Local.Globals} {fuel : Party → ℕ} {remote : Handle}
  {tr : ThreadTrace} {s : ThreadSys}

/-- **What a run of the threads keeps up**, where no verb fails. -/
theorem threads_run (hcap : n ≤ cap)
    (h : Runs.Run (next (pool cap false)) Runs.always
      (ThreadSys.start globals fuel remote n) tr s) :
    ∃ g, PoolCounts n g s.shared ∧ Shown tr g ∧
      ∀ party, Obeys (threadMonitor n False party) (fun g _ => g.busy = false) (s.procs party)
        (g party) := by
  have hrun := Run.monitored (threadMonitor n False) (fun _ => {}) (fun _ _ _ => True)
    (Q := fun _ g _ => g.busy = false) (A := fun _ => True)
    (I := fun tr g pool => PoolCounts n g pool ∧ Shown tr g)
    (fun _ _ _ _ _ _ => trivial) (fun _ _ _ _ _ => trivial)
    ⟨poolCounts_start, ⟨fun _ _ hnot => absurd hnot (by simp), fun hnot => absurd hnot (by simp),
      fun _ _ hnot => absurd hnot (by simp)⟩⟩
    threads_obey
    (fun _ _ _ _ _ _ hI hallowed _ hs _ =>
      ⟨(hI.1.call hallowed hs).1, (hI.1.call hallowed hs).2, hI.2.call hI.1 hcap hallowed hs⟩)
    (fun tr _ _ d _ hI hs _ => ⟨hI.1.complete (d := d) hs, by
      refine ⟨fun i r hi => hI.2.joins i r ?_, fun hbusy => ?_, fun i e he => hI.2.accepted i e ?_⟩
      · simpa using hi
      · simpa using hI.2.sent hbusy
      · simpa using he⟩)
    (h.weaken fun _ choice _ => meets_true choice) trivial
  exact ⟨_, hrun.1.1, hrun.1.2, hrun.2⟩

/-- The main thread has joined all threads. -/
def AllJoined (n : ℕ) (tr : ThreadTrace) : Prop :=
  ∀ i < n, (⟨.join i, ()⟩ : Event Call Reply) ∈ traceOf .main tr

/-- What is expected of the threads. -/
structure Accounted (n : ℕ) (tr : ThreadTrace) (s : ThreadSys) : Prop where
  waiting : ∀ i k, s.procs (.thread i) = .call .pollCq k →
    ¬ (s.shared.sq = [] ∧ s.shared.cq = [])
  accepted : ∀ i, ∀ e ∈ traceOf (.thread i) tr, refused e = false
  emptied : AllJoined n tr → (∀ e ∈ traceOf .main tr, e.1 ≠ .postSend) →
    s.shared.sq = [] ∧ s.shared.cq = []
  exitOwn : ∀ k, s.procs .main = .call .getSendComp k → s.shared.sq ++ s.shared.cq = [.main]

/-- **The completions are accounted for**: no thread polls in vain, none is refused, and behind the
joins the only completion is that of `EXIT`.

A thread that has posted polls until it has a completion, so each one posts and takes alternately,
whosever the completion is; with all verbs succeeding, the operations under way and the completions
are then as many as the threads that wait (`PoolCounts.count`).  So a thread that polls has
something to wait for, and there is room for the one that posts next.  When all are joined none
waits, and nothing is left over for `EXIT` to take. -/
theorem completions_accounted (hcap : n ≤ cap)
    (h : Runs.Run (next (pool cap false)) Runs.always
      (ThreadSys.start globals fuel remote n) tr s) :
    Accounted n tr s := by
  obtain ⟨g, hcounts, hshown, hobeys⟩ := threads_run hcap h
  have hcount := hcounts.count
  refine ⟨?_, hshown.accepted, ?_, ?_⟩
  · rintro i k hk ⟨hsq, hcq⟩
    have hallowed := hobeys (.thread i)
    rw [hk] at hallowed
    have hbusy : (g (.thread i)).busy = true := hallowed.1.1
    have hstarted : i ∈ s.shared.started := by
      by_contra hnot
      rw [hcounts.fresh i hnot] at hbusy
      exact absurd hbusy (by simp)
    have hpos := busyCount_pos (started_lt hcounts.toPoolBase hstarted) hbusy
    rw [hsq, hcq] at hcount
    simp only [List.length_nil] at hcount
    omega
  · intro hall hnone
    have hjoined : (g .main).joined = n := by
      refine le_antisymm hcounts.joinedLe ?_
      by_contra hlt
      exact absurd (hshown.joins _ () (hall (g .main).joined (not_le.mp hlt))) (lt_irrefl _)
    have hidle : (g .main).busy = false := by
      by_contra hbusy
      obtain ⟨e, he, hpost⟩ := hshown.sent (Bool.not_eq_false _ ▸ hbusy)
      exact hnone e he hpost
    rw [hidle, hcounts.all_idle hjoined] at hcount
    simp only [Bool.toNat_false] at hcount
    exact ⟨List.length_eq_zero_iff.mp (by omega), List.length_eq_zero_iff.mp (by omega)⟩
  · intro k hk
    have hallowed := hobeys .main
    rw [hk] at hallowed
    have hbusy : (g .main).busy = true := hallowed.1.1
    have hjoined := hcounts.last hbusy
    rw [hbusy, hcounts.all_idle hjoined] at hcount
    have hone : (s.shared.sq ++ s.shared.cq).length = 1 := by
      rw [List.length_append]
      simpa using hcount
    obtain ⟨p, hp⟩ := List.length_eq_one_iff.mp hone
    rw [hp, hcounts.mine hjoined p (by rw [hp]; exact List.mem_singleton_self _)]

/-! ### Two threads -/

/-- The next calls of a party, where `local_mr` is the region of the buffer at `addr`. -/
def goes (party : Party) (count : ℕ) (addr : UInt64) : List (Choice Party Call Reply Unit) :=
  List.replicate count (.call party (goodReply [] addr (some ⟨addr, 32, 7⟩)))

/-- The main thread starts two, and the first takes the completion of the second. -/
def twoThreads : List (Choice Party Call Reply Unit) :=
  goes .main 2 0 ++ goes (.thread 0) 7 4096 ++ goes (.thread 1) 7 8192 ++
    [.device (), .device ()] ++ goes (.thread 1) 5 8192 ++ [.device ()] ++
    goes (.thread 0) 5 8192 ++ [.device ()] ++ goes (.thread 0) 3 8192 ++
    goes (.thread 1) 3 8192 ++ goes .main 5 0

/-- Two threads, joined, with the message `EXIT` under way. -/
theorem completions_accounted_twoThreads : ∃ tr s,
    Runs.Run (next (pool 16 false)) Runs.always
        (ThreadSys.start ⟨32, true⟩ (fun _ => 1) ⟨7, 0⟩ 2) tr s ∧
      s.shared.ended = [1, 0] ∧ s.shared.sq = [.main] ∧ Accounted 2 tr s := by
  obtain ⟨tr, s, hrun, htest⟩ := Runs.Run.exists_of_play (next (pool 16 false))
    (ThreadSys.start ⟨32, true⟩ (fun _ => 1) ⟨7, 0⟩ 2) twoThreads
    (fun r => decide (r.1.shared.ended = [1, 0] ∧ r.1.shared.sq = [.main])) (by decide +kernel)
  obtain ⟨hended, hsq⟩ := of_decide_eq_true htest
  exact ⟨tr, s, hrun, hended, hsq, completions_accounted (by decide) hrun⟩

end

end Multithreading
