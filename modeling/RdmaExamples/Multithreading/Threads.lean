import RdmaExamples.Multithreading.Local

/-!
# The threads of the local program

The main thread starts `n` threads, joins them and sends `EXIT`.  They share `local_mr`, and one
send queue with one completion queue, whose entries do not tell whose they are: whoever polls takes
the first one.

* `pool` — what the threads share; the send queue takes `cap` operations.
* `Progress` — what a thread has done so far; `threadMonitor` says what it may do next.
* `PoolBase` — who has been started, who has ended and who has been joined.

A thread is the program of the source; nothing of its order is written again here.  `thread_obeys`
goes through it once, and says what it may do next from what it has done, so that the invariants of
the pool need not look into it.  The results about the threads differ in what they assume of the
verbs, not in how the threads are modelled.
-/

namespace Multithreading

open Programs Systems Monitors

/-! ## What the threads share -/

/-- The threads of the local program. -/
inductive Party
  | main
  | thread (index : ℕ)
  deriving DecidableEq

/-- What they share: `local_mr`, the operations that are posted and not completed, the completions
that nobody has polled, who has been started and who has ended, and whether the program has.  Who is
at work, between `ibv_reg_mr` and its end, and whose an operation is, nobody looks at. -/
structure Pool where
  localMr : Option Mr := none
  sq : List Party := []
  cq : List Party := []
  started : List ℕ := []
  ended : List ℕ := []
  atWork : List Party := []
  exited : Bool := false

/-- A thread has been started. -/
def Pool.Runs (pool : Pool) : Party → Prop
  | .main => True
  | .thread i => i ∈ pool.started

instance (pool : Pool) (party : Party) : Decidable (pool.Runs party) :=
  match party with
  | .main => inferInstanceAs (Decidable True)
  | .thread i => inferInstanceAs (Decidable (i ∈ pool.started))

/-- An operation is posted, where the queue has room for it. -/
def Pool.post (cap : ℕ) (fails : Bool) (pool : Pool) (party : Party) (ret : Int) : Option Pool :=
  if ret = 0 then
    if pool.sq.length + pool.cq.length < cap then some { pool with sq := pool.sq ++ [party] }
    else none
  else if fails = true ∨ cap ≤ pool.sq.length + pool.cq.length then some pool
  else none

/-- A completion is taken, if there is one. -/
def Pool.poll (fails : Bool) (pool : Pool) (ret : Int) : Option Pool :=
  if ret = 0 then
    if pool.cq = [] then some pool else none
  else if ret = 1 then
    match pool.cq with
    | _ :: rest => some { pool with cq := rest }
    | [] => none
  else if ret < 0 ∧ fails = true then some pool
  else none

/-- The end of a thread. -/
def Pool.finish (pool : Pool) : Party → Pool
  | .main => pool
  | .thread i =>
      { pool with ended := i :: pool.ended, atWork := pool.atWork.filter (· ≠ .thread i) }

/-- When a call gets a reply; with `fails`, a verb may fail. -/
def Pool.reply (cap : ℕ) (fails : Bool) (pool : Pool) (party : Party) :
    Event Call Reply → Option Pool
  | ⟨.regMr addr length _, some mr⟩ =>
      if mr.addr = addr ∧ mr.length = length then
        some { pool with atWork := party :: pool.atWork }
      else none
  | ⟨.regMr _ _ _, none⟩ =>
      if fails = true then some { pool with atWork := party :: pool.atWork } else none
  | ⟨.setLocalMr mr, _⟩ => some { pool with localMr := mr }
  | ⟨.getLocalMr, mr⟩ => if mr = pool.localMr then some pool else none
  | ⟨.postWrite _ _ _ _, ret⟩ => pool.post cap fails party ret
  | ⟨.postRead _ _ _ _, ret⟩ => pool.post cap fails party ret
  | ⟨.postSend, ret⟩ => pool.post cap fails party ret
  | ⟨.pollCq, ret⟩ => pool.poll fails ret
  | ⟨.getSendComp, ret⟩ => pool.poll fails ret
  | ⟨.spawn i, _⟩ => some { pool with started := i :: pool.started }
  | ⟨.join i, _⟩ => if i ∈ pool.ended then some pool else none
  | ⟨.threadEnd, _⟩ => some (pool.finish party)
  | ⟨.exit _, _⟩ => some { pool with exited := true }
  | _ => some pool

/-- A call of a thread that has been started, before the program ends. -/
def Pool.answer (cap : ℕ) (fails : Bool) (pool : Pool) (party : Party) (e : Event Call Reply) :
    Option Pool :=
  if pool.exited = false ∧ pool.Runs party then pool.reply cap fails party e else none

/-- The oldest operation completes. -/
def Pool.device (pool : Pool) (_ : Unit) : Option Pool :=
  match pool.sq with
  | party :: rest => some { pool with sq := rest, cq := pool.cq ++ [party] }
  | [] => none

/-- What the threads share. -/
def pool (cap : ℕ) (fails : Bool) : Medium Party Call Reply Unit Pool :=
  ⟨Pool.answer cap fails, Pool.device⟩

/-- The programs of the main thread and of the others. -/
def threads (globals : Local.Globals) (fuel : Party → ℕ) (remote : Handle) (n : ℕ) :
    Party → Prog Call Reply Unit
  | .main => do
      let _ ← (Local.threadsRun (fuel .main) n).run globals
  | .thread i => do
      let _ ← (Local.thread (fuel (.thread i)) i remote).run globals

/-- The threads with what they share. -/
abbrev ThreadSys := State Party Call Reply Unit Pool

/-- What the threads show. -/
abbrev ThreadTrace := List (Label Party Call Reply Unit)

/-- The start: only the main thread runs. -/
def ThreadSys.start (globals : Local.Globals) (fuel : Party → ℕ) (remote : Handle) (n : ℕ) :
    ThreadSys := ⟨threads globals fuel remote n, {}⟩

/-! ## What a thread has done

A thread is followed by a few flags: whether it has a region, whether it has shown it, whether an
operation of its own is under way, and whether it has ended. -/

/-- The record of a thread: its buffer, with its size, the region that it has registered over it,
with the address and the length, whether that region is in `local_mr`, whether an operation of it is
under way, and whether it has ended; for the main thread, how many it has started and joined. -/
structure Progress where
  buff : Option (UInt64 × UInt64) := none
  region : Option (UInt64 × UInt64 × Mr) := none
  shown : Bool := false
  busy : Bool := false
  ended : Bool := false
  spawned : ℕ := 0
  joined : ℕ := 0

/-- A post of an operation. -/
def Progress.posted (g : Progress) (ret : Int) : Progress :=
  if ret = 0 then { g with busy := true } else g

/-- A poll. -/
def Progress.polled (g : Progress) (ret : Int) : Progress :=
  if ret = 0 then g else { g with busy := false }

/-- What a call adds to the record. -/
def Progress.after (g : Progress) : Event Call Reply → Progress
  | ⟨.malloc size, buff⟩ => { g with buff := some (buff, size) }
  | ⟨.regMr addr length _, some mr⟩ => { g with region := some (addr, length, mr), shown := false }
  | ⟨.setLocalMr _, _⟩ => { g with shown := true }
  | ⟨.postWrite _ _ _ _, ret⟩ => g.posted ret
  | ⟨.postRead _ _ _ _, ret⟩ => g.posted ret
  | ⟨.postSend, ret⟩ => g.posted ret
  | ⟨.pollCq, ret⟩ => g.polled ret
  | ⟨.getSendComp, ret⟩ => g.polled ret
  | ⟨.spawn _, _⟩ => { g with spawned := g.spawned + 1 }
  | ⟨.join _, _⟩ => { g with joined := g.joined + 1 }
  | ⟨.threadEnd, _⟩ => { g with ended := true }
  | _ => g

/-- A post names the region that the thread has registered over its buffer. -/
def Progress.Own (g : Progress) (addr length : UInt64) (mr : Option Mr) : Prop :=
  ∃ region, mr = some region ∧ g.region = some (addr, length, region)

/-- A thread that has posted nothing, or has seen it complete, and has not ended. -/
def Progress.Idle (g : Progress) : Prop := g.busy = false ∧ g.ended = false

/-- What a thread may do next: with an operation under way it only polls.  Where the threads keep
their regions apart (`apart`), it posts only into its own. -/
def Progress.allowed (n : ℕ) (apart : Prop) (party : Party) (g : Progress) : Call → Prop
  | .pollCq => g.busy = true ∧ g.ended = false ∧ party ≠ .main
  | .getSendComp => g.busy = true ∧ g.ended = false ∧ party = .main
  | .regMr addr length _ => g.Idle ∧ party ≠ .main ∧ g.buff = some (addr, length)
  | .setLocalMr mr => g.Idle ∧ party ≠ .main ∧
      (apart → mr = g.region.map (·.2.2) ∧ g.region ≠ none)
  | .getLocalMr => g.Idle ∧ party ≠ .main ∧ (apart → g.shown = true ∧ g.region ≠ none)
  | .postWrite addr length mr _ => g.Idle ∧ party ≠ .main ∧ (apart → g.Own addr length mr)
  | .postRead addr length mr _ => g.Idle ∧ party ≠ .main ∧ (apart → g.Own addr length mr)
  | .postSend => g.Idle ∧ party = .main ∧ g.joined = n
  | .spawn i => g.Idle ∧ party = .main ∧ i = g.spawned ∧ i < n
  | .join i => g.Idle ∧ party = .main ∧ i = g.joined ∧ i < n
  | .threadEnd => g.Idle ∧ party ≠ .main
  | _ => g.Idle

/-- What a thread may count on. -/
def Progress.expected (apart : Prop) (g : Progress) : Event Call Reply → Prop
  | ⟨.pollCq, ret⟩ => ret = 0 ∨ ret = 1
  | ⟨.regMr _ _ _, mr⟩ => apart → mr ≠ none
  | ⟨.getLocalMr, mr⟩ => apart → mr = g.region.map (·.2.2)
  | _ => True

/-- The monitor of a thread. -/
def threadMonitor (n : ℕ) (apart : Prop) (party : Party) : Monitor Call Reply Progress :=
  ⟨Progress.allowed n apart party, Progress.expected apart, Progress.after⟩

namespace Local

variable {n : ℕ} {apart : Prop} {party : Party} {g : Progress} {globals : Globals}

lemma teardown_free_idle (hidle : g.Idle) :
    Free (threadMonitor n apart party) Call.Teardown g := by
  intro c hc
  cases c <;> first | exact ⟨hidle, fun _ => rfl⟩ | exact absurd hc id

/-- The polling loop. -/
lemma pollLoop_obeys (hbusy : g.busy = true) (hended : g.ended = false) (hparty : party ≠ .main) :
    ∀ fuel, Obeys (threadMonitor n apart party) (fun g' _ => g' = { g with busy := false })
      ((pollLoop fuel).run globals) g
  | 0 => trivial
  | fuel + 1 => by
      refine Obeys.perform_bind ⟨hbusy, hended, hparty⟩ fun ret hret => ?_
      rcases hret with rfl | rfl
      · exact pollLoop_obeys hbusy hended hparty fuel
      · exact Obeys.pure rfl

/-- A thread that has registered its buffer, with nothing under way. -/
structure Holding (apart : Prop) (buff length : UInt64) (g : Progress) : Prop where
  idle : g.Idle
  holds : g.buff = some (buff, length)
  region : apart → g.shown = true ∧ ∃ region, g.region = some (buff, length, region)

variable {buff length : UInt64} {remote : Handle}

/-- The region that a thread finds in `local_mr`. -/
lemma Holding.own {mr : Option Mr} (h : Holding apart buff length g)
    (hmr : apart → mr = g.region.map (·.2.2)) (hapart : apart) : g.Own buff length mr := by
  obtain ⟨-, region, hregion⟩ := h.region hapart
  refine ⟨region, ?_, hregion⟩
  rw [hmr hapart, hregion]
  rfl

/-- A post, and the loop that polls for it. -/
lemma post_obeys {α : Type} {Q : Progress → α × Globals → Prop} {ret : Int}
    {f : Int → LocalM α} (fuel : ℕ) (h : Holding apart buff length g) (hparty : party ≠ .main)
    (hrest : ∀ ret globals', Obeys (threadMonitor n apart party) Q ((f ret).run globals') g) :
    Obeys (threadMonitor n apart party) Q
      ((if ret ≠ 0 then outFunc .disconnect else do
        let ret ← pollLoop fuel
        f ret : LocalM α).run globals) (g.posted ret) := by
  refine Obeys.ite (fun hret => ?_) fun hret => ?_
  · rw [Progress.posted, if_neg hret]
    exact outFunc_obeys (teardown_free_idle h.idle) .disconnect
  · rw [Progress.posted, if_pos (not_not.mp hret)]
    have hpoll : Obeys (threadMonitor n apart party) (fun g' _ => g' = { g with busy := false })
        ((pollLoop fuel).run globals) { g with busy := true } :=
      pollLoop_obeys (g := { g with busy := true }) rfl h.idle.2 hparty fuel
    have hsame : { g with busy := false } = g := by rw [← h.idle.1]
    refine Obeys.bind hpoll ?_
    rintro g' ret' globals' rfl
    rw [hsame]
    exact hrest ret' globals'

lemma threadRead_obeys (fuel : ℕ) (h : Holding apart buff length g) (hparty : party ≠ .main) :
    Obeys (threadMonitor n apart party) (fun g' _ => g'.Idle)
      ((threadRead fuel length buff remote).run globals) g := by
  refine Obeys.perform_bind h.idle fun _ _ => ?_
  refine Obeys.perform_bind h.idle fun _ _ => ?_
  have hshown : apart → g.shown = true ∧ g.region ≠ none := by
    intro hapart
    obtain ⟨hshown, region, hregion⟩ := h.region hapart
    exact ⟨hshown, by rw [hregion]; simp⟩
  refine Obeys.perform_bind ⟨h.idle, hparty, hshown⟩ fun mr hmr => ?_
  refine Obeys.perform_bind ⟨h.idle, hparty, h.own hmr⟩ fun ret _ => ?_
  exact post_obeys fuel h hparty fun _ _ => Obeys.perform_bind h.idle fun _ _ => h.idle

lemma threadWrite_obeys (fuel threadIdx : ℕ) (hidle : g.Idle) (hbuff : g.buff = some (buff, length))
    (hparty : party ≠ .main) :
    Obeys (threadMonitor n apart party) (fun g' _ => g'.Idle)
      ((threadWrite fuel length buff threadIdx remote).run globals) g := by
  refine Obeys.perform_bind ⟨hidle, hparty, hbuff⟩ fun mr hmr => ?_
  -- the record with what has been registered, whether it is `NULL` or not
  obtain ⟨g', hafter, hidle', hbuff', hregion⟩ : ∃ g', (threadMonitor n apart party).after g
      ⟨.regMr buff length accessLocalWrite, mr⟩ = g' ∧ g'.Idle ∧ g'.buff = some (buff, length) ∧
        (apart → mr = g'.region.map (·.2.2) ∧
          ∃ region, g'.region = some (buff, length, region)) := by
    cases mr with
    | none => exact ⟨g, rfl, hidle, hbuff, fun hapart => absurd rfl (hmr hapart)⟩
    | some mr => exact ⟨_, rfl, hidle, hbuff, fun _ => ⟨rfl, mr, rfl⟩⟩
  rw [hafter]
  refine Obeys.perform_bind ⟨hidle', hparty, fun hapart => ⟨(hregion hapart).1, ?_⟩⟩ fun _ _ => ?_
  · obtain ⟨-, region, hsome⟩ := hregion hapart
    rw [hsome]
    simp
  · have hholding : Holding apart buff length { g' with shown := true } :=
      ⟨hidle', hbuff', fun hapart => ⟨rfl, (hregion hapart).2⟩⟩
    refine Obeys.perform_bind hholding.idle fun _ _ => ?_
    refine Obeys.perform_bind ⟨hidle', hparty, fun hapart => ⟨rfl, ?_⟩⟩ fun mr hmr => ?_
    · obtain ⟨-, region, hsome⟩ := hregion hapart
      exact fun hnone => absurd (hsome.symm.trans hnone) (by simp)
    · refine Obeys.perform_bind ⟨hidle', hparty, hholding.own hmr⟩ fun ret _ => ?_
      exact post_obeys fuel hholding hparty fun _ _ => threadRead_obeys fuel hholding hparty

/-- **A thread.** -/
theorem thread_obeys (fuel threadIdx : ℕ) (hparty : party ≠ .main) :
    Obeys (threadMonitor n apart party) (fun g' _ => g'.busy = false)
      ((thread fuel threadIdx remote).run globals) {} := by
  refine Obeys.bind (Q := fun g' _ => g'.Idle) ?_ fun g _ globals' hidle => ?_
  · refine Obeys.get_bind (Obeys.perform_bind ⟨rfl, rfl⟩ fun buff _ => ?_)
    refine Obeys.perform_bind ⟨rfl, rfl⟩ fun _ _ => ?_
    exact threadWrite_obeys fuel threadIdx ⟨rfl, rfl⟩ rfl hparty
  · exact Obeys.perform ⟨hidle, hparty⟩ fun _ _ => hidle.1

/-! ### The main thread -/

/-- The main thread, when it has started and joined so many. -/
structure MainAt (spawned joined : ℕ) (g : Progress) : Prop where
  idle : g.Idle
  spawned : g.spawned = spawned
  joined : g.joined = joined

lemma spawnLoop_obeys : ∀ (m i : ℕ) {g : Progress}, i + m = n → MainAt i 0 g →
    Obeys (threadMonitor n apart .main) (fun g' _ => MainAt n 0 g')
      ((spawnLoop m i).run globals) g
  | 0, i, _, hn, h => by
      rw [Nat.add_zero] at hn
      rw [← hn]
      exact h
  | m + 1, i, _, hn, h => by
      refine Obeys.perform_bind ⟨h.idle, rfl, h.spawned.symm, by omega⟩ fun _ _ => ?_
      exact spawnLoop_obeys m (i + 1) (by omega) ⟨h.idle, congrArg (· + 1) h.spawned, h.joined⟩

lemma joinLoop_obeys : ∀ (m i : ℕ) {g : Progress}, i + m = n → MainAt n i g →
    Obeys (threadMonitor n apart .main) (fun g' _ => MainAt n n g')
      ((joinLoop m i).run globals) g
  | 0, i, _, hn, h => by
      rw [Nat.add_zero] at hn
      rw [hn] at h
      exact h
  | m + 1, i, _, hn, h => by
      refine Obeys.perform_bind ⟨h.idle, rfl, h.joined.symm, by omega⟩ fun _ _ => ?_
      exact joinLoop_obeys m (i + 1) (by omega) ⟨h.idle, h.spawned, congrArg (· + 1) h.joined⟩

lemma waitSendComp_idle (hbusy : g.busy = true) (hended : g.ended = false) : ∀ fuel,
    Obeys (threadMonitor n apart .main) (fun g' _ => g'.Idle) ((waitSendComp fuel).run globals) g
  | 0 => trivial
  | fuel + 1 => by
      refine Obeys.perform_bind ⟨hbusy, hended, rfl⟩ fun ret _ =>
        Obeys.ite (fun hret => ?_) fun hret => ?_
      · show Obeys _ _ _ (g.polled ret)
        rw [Progress.polled, if_pos hret]
        exact waitSendComp_idle hbusy hended fuel
      · show (g.polled ret).Idle
        rw [Progress.polled, if_neg hret]
        exact ⟨rfl, hended⟩

/-- `EXIT` is sent, and its completion is taken. -/
lemma sendExit_obeys (fuel : ℕ) (h : MainAt n n g) :
    Obeys (threadMonitor n apart .main) (fun g' _ => g'.Idle)
      ((sendCommCode fuel .exit).run globals) g := by
  refine Obeys.perform_bind h.idle fun _ _ => Obeys.perform_bind h.idle fun _ _ => ?_
  refine Obeys.perform_bind ⟨h.idle, rfl, h.joined⟩ fun ret _ => ?_
  show Obeys _ _ _ (g.posted ret)
  refine Obeys.ite (fun hret => ?_) fun hret => ?_
  · rw [Progress.posted, if_neg hret]
    exact outFunc_obeys (teardown_free_idle h.idle) .disconnect
  · rw [Progress.posted, if_pos (not_not.mp hret)]
    have hwait : Obeys (threadMonitor n apart .main) (fun g' _ => g'.Idle)
        ((waitSendComp fuel).run globals) { g with busy := true } :=
      waitSendComp_idle (g := { g with busy := true }) rfl h.idle.2 fuel
    refine Obeys.bind hwait fun g' ret' _ hidle => ?_
    exact Obeys.ite (fun _ => Obeys.pure hidle) fun _ => Obeys.pure hidle

/-- **The main thread.** -/
theorem threadsRun_obeys (fuel n : ℕ) :
    Obeys (threadMonitor n apart .main) (fun g' _ => g'.busy = false)
      ((threadsRun fuel n).run globals) {} := by
  refine Obeys.bind (spawnLoop_obeys n 0 (Nat.zero_add n) ⟨⟨rfl, rfl⟩, rfl, rfl⟩) ?_
  intro g _ globals' hg
  refine Obeys.bind (joinLoop_obeys n 0 (Nat.zero_add n) hg) fun g _ globals' hg => ?_
  refine Obeys.bind (sendExit_obeys fuel hg) fun g _ globals' hidle => ?_
  exact outFunc_obeys (teardown_free_idle hidle) .disconnect

end Local

/-- **Every thread keeps to its monitor.** -/
theorem threads_obey {globals : Local.Globals} {fuel : Party → ℕ} {remote : Handle} {n : ℕ}
    {apart : Prop} (party : Party) :
    Obeys (threadMonitor n apart party) (fun g _ => g.busy = false)
      (threads globals fuel remote n party) {} := by
  cases party with
  | main => exact Obeys.prog_bind (Local.threadsRun_obeys _ n) fun _ _ h => h
  | thread i =>
      exact Obeys.prog_bind (Local.thread_obeys _ i (by simp)) fun _ _ h => h

/-! ## Who has been started, and who has ended -/

/-- The records of the threads, and what the pool knows of them. -/
structure PoolBase (n : ℕ) (g : Party → Progress) (pool : Pool) : Prop where
  started : ∀ i ∈ pool.started, i < (g .main).spawned
  spawned : (g .main).spawned ≤ n
  fresh : ∀ i, i ∉ pool.started → g (.thread i) = {}
  ended : ∀ i ∈ pool.ended, (g (.thread i)).ended = true
  idle : ∀ i, (g (.thread i)).ended = true → (g (.thread i)).busy = false
  joined : ∀ i < (g .main).joined, i ∈ pool.ended
  joinedLe : (g .main).joined ≤ n

section Pool

variable {n cap : ℕ} {apart : Prop} {fails : Bool} {g : Party → Progress} {pool pool' : Pool}
  {party : Party} {e : Event Call Reply} {r : Progress} {ret : Int}

lemma poolBase_start : PoolBase n (fun _ => {}) {} where
  started _ h := absurd h (by simp)
  spawned := Nat.zero_le n
  fresh _ _ := rfl
  ended _ h := absurd h (by simp)
  idle _ h := absurd h (by simp)
  joined _ h := absurd h (Nat.not_lt_zero _)
  joinedLe := Nat.zero_le n

/-- A thread that has ended does nothing any more. -/
lemma not_ended_of_allowed {c : Call} (h : r.allowed n apart party c) : r.ended = false := by
  cases c with
  | pollCq => exact h.2.1
  | getSendComp => exact h.2.1
  | regMr => exact h.1.2
  | setLocalMr => exact h.1.2
  | getLocalMr => exact h.1.2
  | postWrite => exact h.1.2
  | postRead => exact h.1.2
  | postSend => exact h.1.2
  | spawn => exact h.1.2
  | join => exact h.1.2
  | threadEnd => exact h.1.2
  | _ => exact h.2

lemma answer_reply (hs : pool.answer cap fails party e = some pool') :
    pool.Runs party ∧ pool.reply cap fails party e = some pool' := by
  rw [Pool.answer] at hs
  split at hs
  · rename_i hruns
    exact ⟨hruns.2, hs⟩
  · exact absurd hs (by simp)

/-- All that a post can do. -/
lemma post_cases (hs : pool.post cap fails party ret = some pool') :
    (ret = 0 ∧ pool.sq.length + pool.cq.length < cap ∧
      pool' = { pool with sq := pool.sq ++ [party] }) ∨
    (ret ≠ 0 ∧ (fails = true ∨ cap ≤ pool.sq.length + pool.cq.length) ∧ pool' = pool) := by
  rw [Pool.post] at hs
  split at hs
  · rename_i hret
    split at hs
    · rename_i hroom
      exact Or.inl ⟨hret, hroom, (Option.some.inj hs).symm⟩
    · exact absurd hs (by simp)
  · rename_i hret
    split at hs
    · rename_i hfull
      exact Or.inr ⟨hret, hfull, (Option.some.inj hs).symm⟩
    · exact absurd hs (by simp)

/-- All that a poll can do. -/
lemma poll_cases (hs : pool.poll fails ret = some pool') :
    (ret = 0 ∧ pool' = pool) ∨
    (ret = 1 ∧ ∃ x rest, pool.cq = x :: rest ∧ pool' = { pool with cq := rest }) ∨
    (ret < 0 ∧ fails = true ∧ pool' = pool) := by
  rw [Pool.poll] at hs
  split at hs
  · rename_i hret
    split at hs
    · exact Or.inl ⟨hret, (Option.some.inj hs).symm⟩
    · exact absurd hs (by simp)
  · split at hs
    · rename_i hret
      split at hs
      · rename_i x rest hcq
        exact Or.inr (Or.inl ⟨hret, x, rest, hcq, (Option.some.inj hs).symm⟩)
      · exact absurd hs (by simp)
    · split at hs
      · rename_i hneg
        exact Or.inr (Or.inr ⟨hneg.1, hneg.2, (Option.some.inj hs).symm⟩)
      · exact absurd hs (by simp)

lemma started_lt (h : PoolBase n g pool) {i : ℕ} (hi : i ∈ pool.started) : i < n :=
  (h.started i hi).trans_le h.spawned

/-- A thread that may go on has not been joined. -/
lemma PoolBase.not_joined (h : PoolBase n g pool) {i : ℕ} (hruns : i ∈ pool.started)
    (hended : (g (.thread i)).ended = false) : (g .main).joined ≠ n := by
  intro hjoined
  have hmem := h.joined i (by rw [hjoined]; exact started_lt h hruns)
  rw [h.ended i hmem] at hended
  exact absurd hended (by simp)

/-- A change at one thread that is about neither. -/
lemma PoolBase.keep (h : PoolBase n g pool) (hruns : pool.Runs party)
    (hended : (g party).ended = false) (hstarted : pool'.started = pool.started)
    (hpool : pool'.ended = pool.ended) (hspawned : r.spawned = (g party).spawned)
    (hjoined : r.joined = (g party).joined) (hrecord : r.ended = (g party).ended) :
    PoolBase n (Function.update g party r) pool' := by
  have hspawnedMain : (Function.update g party r .main).spawned = (g .main).spawned := by
    by_cases hp : Party.main = party
    · subst hp
      rwa [Function.update_self]
    · rw [Function.update_of_ne hp]
  have hjoinedMain : (Function.update g party r .main).joined = (g .main).joined := by
    by_cases hp : Party.main = party
    · subst hp
      rwa [Function.update_self]
    · rw [Function.update_of_ne hp]
  constructor
  · rw [hspawnedMain, hstarted]
    exact h.started
  · rw [hspawnedMain]
    exact h.spawned
  · intro i hi
    rw [hstarted] at hi
    have hp : Party.thread i ≠ party := by
      rintro rfl
      exact hi hruns
    rw [Function.update_of_ne hp]
    exact h.fresh i hi
  · intro i hi
    rw [hpool] at hi
    have hp : Party.thread i ≠ party := by
      rintro rfl
      rw [h.ended i hi] at hended
      exact absurd hended (by simp)
    rw [Function.update_of_ne hp]
    exact h.ended i hi
  · intro i
    by_cases hp : Party.thread i = party
    · subst hp
      rw [Function.update_self, hrecord, hended]
      exact fun hfalse => absurd hfalse (by simp)
    · rw [Function.update_of_ne hp]
      exact h.idle i
  · rw [hjoinedMain, hpool]
    exact h.joined
  · rw [hjoinedMain]
    exact h.joinedLe

lemma posted_keeps : (r.posted ret).spawned = r.spawned ∧ (r.posted ret).joined = r.joined ∧
    (r.posted ret).ended = r.ended := by
  rw [Progress.posted]
  split <;> exact ⟨rfl, rfl, rfl⟩

lemma polled_keeps : (r.polled ret).spawned = r.spawned ∧ (r.polled ret).joined = r.joined ∧
    (r.polled ret).ended = r.ended := by
  rw [Progress.polled]
  split <;> exact ⟨rfl, rfl, rfl⟩

lemma PoolBase.post (h : PoolBase n g pool) (hruns : pool.Runs party)
    (hended : (g party).ended = false) (hs : pool.post cap fails party ret = some pool') :
    PoolBase n (Function.update g party ((g party).posted ret)) pool' := by
  obtain ⟨hspawned, hjoined, hrecord⟩ := @posted_keeps (g party) ret
  rcases post_cases hs with ⟨-, -, rfl⟩ | ⟨-, -, rfl⟩
  · exact h.keep hruns hended rfl rfl hspawned hjoined hrecord
  · exact h.keep hruns hended rfl rfl hspawned hjoined hrecord

lemma PoolBase.poll (h : PoolBase n g pool) (hruns : pool.Runs party)
    (hended : (g party).ended = false) (hs : pool.poll fails ret = some pool') :
    PoolBase n (Function.update g party ((g party).polled ret)) pool' := by
  obtain ⟨hspawned, hjoined, hrecord⟩ := @polled_keeps (g party) ret
  rcases poll_cases hs with ⟨-, rfl⟩ | ⟨-, x, rest, -, rfl⟩ | ⟨-, -, rfl⟩
  · exact h.keep hruns hended rfl rfl hspawned hjoined hrecord
  · exact h.keep hruns hended rfl rfl hspawned hjoined hrecord
  · exact h.keep hruns hended rfl rfl hspawned hjoined hrecord

/-- A change at `main` alone, which starts a thread or joins one. -/
lemma PoolBase.atMain (h : PoolBase n g pool) (hstarted : ∀ i ∈ pool'.started, i < r.spawned)
    (hmono : ∀ i ∈ pool.started, i ∈ pool'.started) (hended : pool'.ended = pool.ended)
    (hspawned : r.spawned ≤ n) (hjoined : ∀ i < r.joined, i ∈ pool.ended) (hle : r.joined ≤ n) :
    PoolBase n (Function.update g .main r) pool' := by
  have hthread : ∀ i, Function.update g .main r (.thread i) = g (.thread i) :=
    fun i => Function.update_of_ne (by simp) _ _
  have hmain := Function.update_self Party.main r g
  constructor
  · rw [hmain]
    exact hstarted
  · rw [hmain]
    exact hspawned
  · intro i hi
    rw [hthread]
    exact h.fresh i fun hmem => hi (hmono i hmem)
  · intro i hi
    rw [hthread]
    exact h.ended i (hended ▸ hi)
  · intro i
    rw [hthread]
    exact h.idle i
  · rw [hmain, hended]
    exact hjoined
  · rw [hmain]
    exact hle

/-- A thread ends, with nothing outstanding. -/
lemma PoolBase.threadEnd {j : ℕ} (h : PoolBase n g pool) (hruns : pool.Runs (.thread j))
    (hrecord : r.ended = true) (hidle : r.busy = false) :
    PoolBase n (Function.update g (.thread j) r) (pool.finish (.thread j)) := by
  have hmain : Function.update g (.thread j) r .main = g .main :=
    Function.update_of_ne (by simp) _ _
  constructor
  · rw [hmain]
    exact h.started
  · rw [hmain]
    exact h.spawned
  · intro i hi
    have hp : Party.thread i ≠ .thread j := by
      intro heq
      rw [Party.thread.inj heq] at hi
      exact hi hruns
    rw [Function.update_of_ne hp]
    exact h.fresh i hi
  · intro i hi
    by_cases hp : Party.thread i = .thread j
    · rw [hp, Function.update_self]
      exact hrecord
    · rw [Function.update_of_ne hp]
      rcases List.mem_cons.mp hi with rfl | hi
      · exact absurd rfl hp
      · exact h.ended i hi
  · intro i
    by_cases hp : Party.thread i = .thread j
    · rw [hp, Function.update_self]
      exact fun _ => hidle
    · rw [Function.update_of_ne hp]
      exact h.idle i
  · intro i hi
    rw [hmain] at hi
    exact List.mem_cons_of_mem _ (h.joined i hi)
  · rw [hmain]
    exact h.joinedLe

/-- **A call**, where the thread keeps to its monitor. -/
theorem PoolBase.call (h : PoolBase n g pool) (hallowed : (g party).allowed n apart party e.1)
    (hs : pool.answer cap fails party e = some pool') :
    PoolBase n (Function.update g party ((g party).after e)) pool' := by
  obtain ⟨hruns, hs⟩ := answer_reply hs
  have hended := not_ended_of_allowed hallowed
  obtain ⟨c, reply⟩ := e
  cases c with
  | regMr addr length access =>
      cases reply with
      | none =>
          simp only [Pool.reply] at hs
          split at hs
          · obtain rfl := Option.some.inj hs
            exact h.keep hruns hended rfl rfl rfl rfl rfl
          · exact absurd hs (by simp)
      | some mr =>
          simp only [Pool.reply] at hs
          split at hs
          · obtain rfl := Option.some.inj hs
            exact h.keep hruns hended rfl rfl rfl rfl rfl
          · exact absurd hs (by simp)
  | getLocalMr =>
      simp only [Pool.reply] at hs
      split at hs
      · obtain rfl := Option.some.inj hs
        exact h.keep hruns hended rfl rfl rfl rfl rfl
      · exact absurd hs (by simp)
  | postWrite => exact h.post hruns hended hs
  | postRead => exact h.post hruns hended hs
  | postSend => exact h.post hruns hended hs
  | pollCq => exact h.poll hruns hended hs
  | getSendComp => exact h.poll hruns hended hs
  | spawn i =>
      obtain rfl := Option.some.inj hs
      obtain ⟨-, rfl, rfl, hlt⟩ := hallowed
      refine h.atMain ?_ (fun i => List.mem_cons_of_mem _) rfl hlt h.joined h.joinedLe
      intro i hi
      rcases List.mem_cons.mp hi with rfl | hi
      · exact Nat.lt_succ_self _
      · exact (h.started i hi).trans (Nat.lt_succ_self _)
  | join i =>
      simp only [Pool.reply] at hs
      split at hs
      · rename_i hi
        obtain rfl := Option.some.inj hs
        obtain ⟨-, rfl, rfl, hlt⟩ := hallowed
        refine h.atMain h.started (fun _ => id) rfl h.spawned ?_ hlt
        intro i hlt
        rcases Nat.lt_succ_iff_lt_or_eq.mp hlt with hlt | rfl
        · exact h.joined i hlt
        · exact hi
      · exact absurd hs (by simp)
  | threadEnd =>
      obtain rfl := Option.some.inj hs
      obtain ⟨hidle, hparty⟩ := hallowed
      cases party with
      | main => exact absurd rfl hparty
      | thread j =>
          exact h.threadEnd (r := (g (.thread j)).after ⟨.threadEnd, reply⟩) hruns rfl hidle.1
  | _ =>
      obtain rfl := Option.some.inj hs
      exact h.keep hruns hended rfl rfl rfl rfl rfl

/-- A completion. -/
lemma PoolBase.complete {d : Unit} (h : PoolBase n g pool) (hs : pool.device d = some pool') :
    PoolBase n g pool' := by
  rw [Pool.device] at hs
  split at hs
  · obtain rfl := Option.some.inj hs
    exact { h with }
  · exact absurd hs (by simp)

end Pool

end Multithreading
