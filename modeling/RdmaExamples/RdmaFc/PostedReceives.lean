import RdmaExamples.Library.Monitors
import RdmaExamples.RdmaFc.SetupRuns

/-!
# The receives of a process

`post_receives` comes with every `init_transport`, and `recv_available` lets only the first one
post anything: `rx_queue_len` receives, for the whole life of the process.

A monitor (`posting`) watches the calls of a setup phase.  It lets a receive be posted on the next
slot of the buffer only, and while there is one.  Every function of the phase obeys it
(`setup_posts`), whatever the calls answer and whatever rdma_cm delivers.

The monitor keeps the address of the buffer and how many slots have been posted.  The proof goes
through the functions of the phase once, from `post_receives` up; each lemma says from which states
of the monitor a function obeys it and in which state it leaves it.  What a run has posted is read
off the monitor afterwards, for a run that is cut off anywhere (`receives_of_canDo`) and for one
that ended well (`receives_of_returns`).
-/

namespace RdmaFc

open MachineWords Programs Monitors

/-- The address of a receive that was posted. -/
def receive? : Event Verb Reply → Option ℕ
  | ⟨.postSrqRecv _ addr _ _, r⟩ => if r = 0 then some addr else none
  | _ => none

/-- The receives a run posts, by their addresses, in order. -/
def receives (t : Trace) : List ℕ := t.filterMap receive?

/-- The first `n` slots of a buffer of receives. -/
def recvSlots (ptr n : ℕ) : List ℕ := (List.range n).map fun i => ptr + i * packetSize

lemma length_recvSlots (ptr n : ℕ) : (recvSlots ptr n).length = n := by simp [recvSlots]

lemma recvSlots_zero (ptr : ℕ) : recvSlots ptr 0 = [] := rfl

lemma recvSlots_succ (ptr n : ℕ) :
    recvSlots ptr (n + 1) = recvSlots ptr n ++ [ptr + n * packetSize] := by
  rw [recvSlots, List.range_succ, List.map_append]
  rfl

/-- No two slots overlap. -/
lemma recvSlots_pairwise (ptr n : ℕ) :
    (recvSlots ptr n).Pairwise fun a b => a + packetSize ≤ b := by
  rw [recvSlots, List.pairwise_map]
  refine List.pairwise_lt_range.imp fun hlt => ?_
  rw [packetSize]
  omega

/-- Every slot lies inside the buffer. -/
lemma recvSlots_inside {ptr n a : ℕ} (h : a ∈ recvSlots ptr n) :
    ptr ≤ a ∧ a + packetSize ≤ ptr + n * packetSize := by
  obtain ⟨i, hi, rfl⟩ := List.mem_map.mp h
  have hlt := List.mem_range.mp hi
  rw [packetSize]
  omega

/-! ## The monitor -/

/-- What is known of the receives: whether `init_transport` was asked for, the memory of the buffer,
and how many are posted. -/
structure Posting where
  asked : Bool
  ptr : ℕ
  size : ℕ
  posted : ℕ

/-- The event makes `init_transport` run. -/
instance (ev : CmEvent) : Decidable (InitsTransport ev) := inferInstanceAs (Decidable (_ ∨ _))

namespace Posting

/-- Nothing is known yet. -/
def start : Posting := ⟨false, 0, 0, 0⟩

/-- A receive goes on the next of `n` slots, inside the buffer. -/
def Allowed (n : ℕ) (g : Posting) : Verb → Prop
  | .postSrqRecv _ addr length _ =>
      g.ptr ≠ 0 ∧ g.posted < n ∧ (g.posted + 1) * packetSize ≤ g.size ∧
        addr = g.ptr + g.posted * packetSize ∧ length = packetSize
  | _ => True

/-- The first buffer is that of the receives. -/
def after (g : Posting) : Event Verb Reply → Posting
  | ⟨.getCmEvent, r⟩ => if r.1 = 0 ∧ InitsTransport r.2 then { g with asked := true } else g
  | ⟨.memalign _ size, ptr⟩ => if g.ptr = 0 then { g with ptr := ptr, size := size } else g
  | ⟨.postSrqRecv .., r⟩ => if r = 0 then { g with posted := g.posted + 1 } else g
  | _ => g

end Posting

/-- The monitor. -/
def posting (n : ℕ) : Monitor Verb Reply Posting :=
  ⟨Posting.Allowed n, fun _ _ => True, Posting.after⟩

instance (v : Verb) : Nonempty (Reply v) := ⟨(obliging [] v).1⟩

lemma posting_countsOn (n : ℕ) (g : Posting) (t : Trace) : (posting n).CountsOn g t :=
  Monitor.countsOn_of_forall fun _ _ _ _ => trivial

/-- Other calls are not seen. -/
lemma posting_free (n : ℕ) (g : Posting) : Free (posting n) Plain g := by
  intro v hv
  cases v <;> first | exact ⟨trivial, fun _ => rfl⟩ | exact absurd hv id

lemma receives_cons (e : Event Verb Reply) (t : Trace) :
    receives (e :: t) = (receive? e).toList ++ receives t := by
  rw [receives, List.filterMap_cons]
  cases receive? e <;> rfl

/-- The posted receives are the first slots of the buffer, and there is none without it. -/
structure Posting.Ok (n : ℕ) (g : Posting) : Prop where
  none : g.ptr = 0 → g.posted = 0
  posted_le : g.posted ≤ n
  room : g.posted * packetSize ≤ g.size

/-- A call that may be made fills at most the next slot. -/
lemma Posting.Ok.step {n : ℕ} {g : Posting} (hg : g.Ok n) (e : Event Verb Reply)
    (h : g.Allowed n e.1) : (g.after e).Ok n ∧
      recvSlots (g.after e).ptr (g.after e).posted
        = recvSlots g.ptr g.posted ++ (receive? e).toList := by
  obtain ⟨v, r⟩ := e
  cases v
  case postSrqRecv srq addr length lkey =>
    obtain ⟨hptr, hlt, hroom, haddr, -⟩ := h
    simp only [Posting.after, receive?]
    split
    · exact ⟨⟨fun hzero => absurd hzero hptr, hlt, hroom⟩, by rw [recvSlots_succ, haddr]; rfl⟩
    · exact ⟨hg, (List.append_nil _).symm⟩
  case memalign alignment size =>
    simp only [Posting.after]
    split
    · rename_i hptr
      have hzero := hg.none hptr
      exact ⟨⟨fun _ => hzero, hg.posted_le, by simp [hzero]⟩, by rw [hzero]; rfl⟩
    · exact ⟨hg, (List.append_nil _).symm⟩
  case getCmEvent =>
    simp only [Posting.after]
    split
    · exact ⟨⟨hg.none, hg.posted_le, hg.room⟩, (List.append_nil _).symm⟩
    · exact ⟨hg, (List.append_nil _).symm⟩
  all_goals exact ⟨hg, (List.append_nil _).symm⟩

/-- **What the monitor lets through**: the receives of a run are the slots of the buffer, one after
the other. -/
theorem posting_receives {n : ℕ} {t : Trace} {g : Posting} (hg : g.Ok n)
    (h : (posting n).Allows g t) : (t.foldl Posting.after g).Ok n ∧
      recvSlots (t.foldl Posting.after g).ptr (t.foldl Posting.after g).posted
        = recvSlots g.ptr g.posted ++ receives t := by
  induction t generalizing g with
  | nil => exact ⟨hg, (List.append_nil _).symm⟩
  | cons e t ih =>
      obtain ⟨hallowed, hrest⟩ := h
      obtain ⟨hg', hstep⟩ := hg.step e hallowed
      obtain ⟨hend, hslots⟩ := ih hg' hrest
      refine ⟨hend, ?_⟩
      rw [List.foldl_cons, hslots, hstep, receives_cons, List.append_assoc]

/-- The monitor knows when `init_transport` was asked for. -/
lemma posting_asked {t : Trace} {g : Posting} : (t.foldl Posting.after g).asked = true ↔
    g.asked = true ∨ ∃ ev ∈ cmEvents t, InitsTransport ev := by
  induction t generalizing g with
  | nil => simp
  | cons e t ih =>
      rw [List.foldl_cons, ih]
      obtain ⟨v, r⟩ := e
      cases v
      case getCmEvent =>
        simp only [Posting.after, cmEvents_getCmEvent]
        by_cases hret : r.1 = 0
        · by_cases hev : InitsTransport r.2 <;> simp [hret, hev]
        · simp [hret]
      case memalign alignment size =>
        simp only [Posting.after]
        split <;> rfl
      case postSrqRecv srq addr length lkey =>
        simp only [Posting.after]
        split <;> rfl
      all_goals rfl

/-- The run obtained memory of this size at this address. -/
def Obtained (t : Trace) (ptr size : ℕ) : Prop :=
  ∃ alignment, (⟨.memalign alignment size, ptr⟩ : Event Verb Reply) ∈ t

/-- The monitor knows the buffer that was obtained. -/
lemma posting_obtained {t : Trace} {g : Posting} (h : (t.foldl Posting.after g).ptr ≠ 0) :
    ((t.foldl Posting.after g).ptr = g.ptr ∧ (t.foldl Posting.after g).size = g.size) ∨
      Obtained t (t.foldl Posting.after g).ptr (t.foldl Posting.after g).size := by
  induction t generalizing g with
  | nil => exact Or.inl ⟨rfl, rfl⟩
  | cons e t ih =>
      rw [List.foldl_cons] at h ⊢
      rcases ih h with ⟨hptr, hsize⟩ | ⟨alignment, hmem⟩
      · obtain ⟨v, r⟩ := e
        cases v
        case memalign alignment size =>
          by_cases hzero : g.ptr = 0
          · have hafter : g.after ⟨.memalign alignment size, r⟩
                = { g with ptr := r, size := size } := if_pos hzero
            rw [hafter] at hptr hsize ⊢
            exact Or.inr ⟨alignment, by rw [hptr, hsize]; exact List.mem_cons_self⟩
          · have hafter : g.after ⟨.memalign alignment size, r⟩ = g := if_neg hzero
            rw [hafter] at hptr hsize ⊢
            exact Or.inl ⟨hptr, hsize⟩
        case getCmEvent =>
          refine Or.inl ⟨hptr.trans ?_, hsize.trans ?_⟩ <;> simp only [Posting.after] <;>
            split <;> rfl
        case postSrqRecv srq addr length lkey =>
          refine Or.inl ⟨hptr.trans ?_, hsize.trans ?_⟩ <;> simp only [Posting.after] <;>
            split <;> rfl
        all_goals exact Or.inl ⟨hptr, hsize⟩
      · exact Or.inr ⟨alignment, List.mem_cons_of_mem e hmem⟩

/-! ## Rules

The functions of the phase are put together with the rules for monitors.  What is carried along is
a condition on the record and the context together, so the rules are stated once with both. -/

/-- From a record and a context with `P`, the function obeys the monitor and ends with `Q`. -/
abbrev Posts {α : Type} (n : ℕ) (P : Posting → TestContext → Prop) (m : Setup α)
    (Q : α → Posting → TestContext → Prop) : Prop :=
  ∀ g s, P g s → Obeys (posting n) (fun g' r => Q r.1 g' r.2) (m.run s) g

/-- The same for what it ends with where it returns `0`. -/
abbrev PostsOk (n : ℕ) (P : Posting → TestContext → Prop) (m : Setup Int)
    (Q : Posting → TestContext → Prop) : Prop :=
  Posts n P m fun ret g s => ret = 0 → Q g s

section Rules

variable {n : ℕ} {α β : Type} {P P' : Posting → TestContext → Prop}
  {Q Q' : α → Posting → TestContext → Prop} {S : β → Posting → TestContext → Prop}

lemma Posts.pure {a : α} (h : ∀ g s, P g s → Q a g s) : Posts n P (pure a) Q :=
  fun g s hP => Obeys.pure (h g s hP)

lemma Posts.bind {m : Setup α} {f : α → Setup β} (hm : Posts n P m Q)
    (hf : ∀ a, Posts n (Q a) (f a) S) : Posts n P (m >>= f) S :=
  fun g s hP => Obeys.bind (hm g s hP) fun g' a s' hQ => hf a g' s' hQ

lemma Posts.get_bind {f : TestContext → Setup α}
    (h : ∀ s₀, Posts n (fun g s => s = s₀ ∧ P g s₀) (f s₀) Q) : Posts n P (get >>= f) Q :=
  fun g s hP => Obeys.get_bind (h s g s ⟨rfl, hP⟩)

lemma Posts.modify_bind {K : Posting → TestContext → Prop} {u : TestContext → TestContext}
    {f : PUnit → Setup α} (h : Posts n K (f ⟨⟩) Q) (hu : ∀ g s, P g s → K g (u s)) :
    Posts n P (modify u >>= f) Q :=
  fun g s hP => Obeys.modify_bind (h g (u s) (hu g s hP))

lemma Posts.call_bind {v : Verb} {f : Reply v → Setup α} (hv : Plain v)
    (h : ∀ r, Posts n P (f r) Q) : Posts n P (verb v >>= f) Q :=
  fun g s hP => Obeys.free_bind (posting_free n g) hv fun r => h r g s hP

lemma Posts.ite {c : Prop} [Decidable c] {m m' : Setup α} (h : c → Posts n P m Q)
    (h' : ¬ c → Posts n P m' Q) : Posts n P (if c then m else m') Q := by
  split
  · exact h ‹_›
  · exact h' ‹_›

lemma Posts.weaken {m : Setup α} (h : Posts n P m Q) (hpre : ∀ g s, P' g s → P g s)
    (hpost : ∀ a g s, Q a g s → Q' a g s) : Posts n P' m Q' :=
  fun g s hP => (h g s (hpre g s hP)).weaken fun g' r hQ => hpost r.1 g' r.2 hQ

lemma Posts.halt : Posts n P (StateProg.halt : Setup α) Q := fun _ _ _ => Obeys.halt

lemma Posts.memalign_bind {alignment size : ℕ} {f : ℕ → Setup α}
    (h : ∀ ptr, Posts n (fun g' s => ∃ g, P g s ∧ g' = g.after ⟨.memalign alignment size, ptr⟩)
      (f ptr) Q) : Posts n P (verb (.memalign alignment size) >>= f) Q :=
  fun g s hP => Obeys.perform_bind trivial fun ptr _ => h ptr _ s ⟨g, hP, rfl⟩

/-- A failure is handed on, otherwise the function goes on. -/
lemma PostsOk.andThen {m : Setup Int} {f : Int → Setup Int} (hm : PostsOk n P m P')
    {R : Posting → TestContext → Prop} (hf : ∀ ret, PostsOk n P' (f ret) R) :
    PostsOk n P (m >>= fun ret => if ret ≠ 0 then pure ret else f ret) R := by
  refine Posts.bind hm fun ret => Posts.ite ?_ ?_
  · intro hret
    exact Posts.pure fun _ _ _ hzero => absurd hzero hret
  · intro hret
    exact (hf ret).weaken (fun g s hs => hs (not_not.mp hret)) fun _ _ _ => id

/-- A function that has nothing to do with receives, and leaves alone what `P` looks at. -/
lemma Posts.of_keeps {γ : Type} {view : TestContext → γ} {m : Setup α} (h : Keeps view Plain m)
    (hview : ∀ g s s', view s' = view s → P g s → P g s') : Posts n P m fun _ => P := by
  intro g s hP
  refine (Obeys.of_keeps h (posting_free n g)).weaken ?_
  rintro g' ⟨a, s'⟩ ⟨rfl, heq⟩
  exact hview g' s s' heq hP

lemma PostsOk.of_keeps {γ : Type} {view : TestContext → γ} {m : Setup Int}
    (h : Keeps view Plain m) (hview : ∀ g s s', view s' = view s → P g s → P g s') :
    PostsOk n P m P :=
  (Posts.of_keeps h hview).weaken (fun _ _ => id) fun _ _ _ hP _ => hP

end Rules

/-! ## `init_transport` -/

/-- What the receives depend on. -/
def recvView (s : TestContext) : Option Handle × ℕ × Buffer := (s.srq, s.recvAvailable, s.recvBuf)

/-- Before the first `init_transport`. -/
structure Untapped (g : Posting) (s : TestContext) : Prop where
  srq : s.srq = none
  available : s.recvAvailable = 0
  buffer : s.recvBuf.ptr = 0
  ptr : g.ptr = 0
  posted : g.posted = 0

/-- The queue and the buffer are there, and `left` of `n` receives are to be posted: all or none.
`recv_available` is the latch: the first `init_transport` that gets so far posts all receives and
then sets it to `0`, and the later ones find nothing to post. -/
structure Latched (n left : ℕ) (g : Posting) (s : TestContext) : Prop where
  srq : s.srq.isSome
  available : s.recvAvailable = left
  buffer : s.recvBuf.ptr = g.ptr
  ptr : g.ptr ≠ 0
  posted : g.posted + left = n
  fresh : left ≠ 0 → g.posted = 0
  room : n * packetSize ≤ g.size

/-- The queue is there, the buffer not yet. -/
structure Queued (n : ℕ) (g : Posting) (s : TestContext) : Prop where
  srq : s.srq.isSome
  available : s.recvAvailable = n
  buffer : s.recvBuf.ptr = 0
  ptr : g.ptr = 0
  posted : g.posted = 0

/-- Before an `init_transport`. -/
def Closed (n : ℕ) (g : Posting) (s : TestContext) : Prop := Latched n 0 g s ∨ Untapped g s

section InitTransport

variable {n left : ℕ} {o : Options} {ev : CmEvent} {g : Posting} {s s' : TestContext}

lemma Latched.of_view (g : Posting) (s s' : TestContext) (h : recvView s' = recvView s)
    (hs : Latched n left g s) : Latched n left g s' := by
  simp only [recvView, Prod.mk.injEq] at h
  obtain ⟨hsrq, havail, hbuf⟩ := h
  exact ⟨by rw [hsrq]; exact hs.srq, by rw [havail]; exact hs.available,
    by rw [hbuf]; exact hs.buffer, hs.ptr, hs.posted, hs.fresh, hs.room⟩

lemma Untapped.of_view (g : Posting) (s s' : TestContext) (h : recvView s' = recvView s)
    (hs : Untapped g s) : Untapped g s' := by
  simp only [recvView, Prod.mk.injEq] at h
  obtain ⟨hsrq, havail, hbuf⟩ := h
  exact ⟨hsrq.trans hs.srq, havail.trans hs.available, by rw [hbuf]; exact hs.buffer, hs.ptr,
    hs.posted⟩

lemma Closed.of_view (g : Posting) (s s' : TestContext) (h : recvView s' = recvView s)
    (hs : Closed n g s) : Closed n g s' :=
  hs.imp (Latched.of_view g s s' h) (Untapped.of_view g s s' h)

lemma createSrq_posts (hn : n = o.rxQueueLen % 2 ^ 32) (id : Handle) :
    PostsOk n (Closed n) (createSrq o id) fun g s => Latched n 0 g s ∨ Queued n g s := by
  refine Posts.get_bind fun s₀ => Posts.ite ?_ ?_
  · intro hsrq
    refine Posts.pure ?_
    rintro g s ⟨rfl, hs | hs⟩ -
    · exact Or.inl hs
    · simp [hs.srq] at hsrq
  · intro hsrq
    refine Posts.call_bind trivial fun srq => ?_
    refine Posts.modify_bind (K := fun g s => s.srq = srq ∧ s.recvBuf.ptr = 0 ∧ g.ptr = 0 ∧
      g.posted = 0) ?_ ?_
    · refine Posts.ite (fun _ => Posts.pure fun _ _ _ h => absurd h (by decide)) fun hnone => ?_
      refine Posts.modify_bind (K := Queued n) ?_ ?_
      · exact Posts.pure fun _ _ h _ => Or.inr h
      · rintro g s ⟨rfl, hbuf, hptr, hposted⟩
        exact ⟨by simpa [Option.isSome_iff_ne_none] using hnone, hn.symm, hbuf, hptr, hposted⟩
    · rintro g s ⟨rfl, hs | hs⟩
      · exact absurd hs.srq hsrq
      · exact ⟨rfl, hs.buffer, hs.ptr, hs.posted⟩

/-- The buffer of the receives is the first buffer there is. -/
lemma initRecvBuffer_posts (id : Handle) {size : ℕ} (hsize : n * packetSize ≤ size) :
    PostsOk n (fun g s => Latched n 0 g s ∨ Queued n g s)
      (initBuffer id size TestContext.recvBuf fun buf ctx => { ctx with recvBuf := buf })
      fun g s => ∃ left, Latched n left g s := by
  refine Posts.get_bind fun s₀ => Posts.ite ?_ ?_
  · intro hptr
    refine Posts.pure ?_
    rintro g s ⟨rfl, hs | hs⟩ -
    · exact ⟨0, hs⟩
    · exact absurd hs.buffer hptr
  · intro hptr
    rw [not_not] at hptr
    refine Posts.memalign_bind fun ptr => ?_
    refine Posts.modify_bind (K := fun g s => s.srq.isSome ∧ s.recvAvailable = n ∧
      s.recvBuf.ptr = ptr ∧ g.ptr = ptr ∧ g.posted = 0 ∧ g.size = size) ?_ ?_
    · refine Posts.ite (fun _ => Posts.pure fun _ _ _ h => absurd h (by decide)) fun hptr => ?_
      refine Posts.call_bind trivial fun mr => ?_
      refine Posts.modify_bind (K := fun g s => Latched n n g s) ?_ ?_
      · refine Posts.ite (fun _ => Posts.pure fun _ _ _ h => absurd h (by decide)) fun _ => ?_
        exact Posts.pure fun _ _ h _ => ⟨n, h⟩
      · rintro g s ⟨hsrq, havail, -, hbuf, hposted, hroom⟩
        exact ⟨hsrq, havail, hbuf.symm, by rwa [hbuf], by rw [hposted, Nat.zero_add],
          fun _ => hposted, by rwa [hroom]⟩
    · rintro _ s ⟨g, ⟨rfl, hs | hs⟩, rfl⟩
      · exact absurd (hs.buffer.symm.trans hptr) hs.ptr
      · refine ⟨hs.srq, hs.available, rfl, ?_, ?_, ?_⟩
        · simp [Posting.after, hs.ptr]
        · simp [Posting.after, hs.ptr, hs.posted]
        · simp [Posting.after, hs.ptr]

/-- The buffer of the reads is another one. -/
lemma initRdmaBuffer_posts (id : Handle) (size : ℕ) :
    PostsOk n (fun g s => ∃ left, Latched n left g s)
      (initBuffer id size TestContext.rdmaBuf fun buf ctx => { ctx with rdmaBuf := buf })
      fun g s => ∃ left, Latched n left g s := by
  refine Posts.get_bind fun s₀ => Posts.ite ?_ ?_
  · intro _
    refine Posts.pure ?_
    rintro g s ⟨rfl, hs⟩ -
    exact hs
  · intro _
    have hview : ∀ buf g s, (∃ left, Latched n left g s) →
        ∃ left, Latched n left g { s with rdmaBuf := buf } := by
      rintro buf g s ⟨left, hs⟩
      exact ⟨left, hs.of_view g s _ rfl⟩
    refine Posts.memalign_bind fun ptr => ?_
    refine Posts.modify_bind (K := fun g s => ∃ left, Latched n left g s) ?_ ?_
    · refine Posts.ite (fun _ => Posts.pure fun _ _ _ h => absurd h (by decide)) fun _ => ?_
      refine Posts.call_bind trivial fun mr => ?_
      refine Posts.modify_bind (K := fun g s => ∃ left, Latched n left g s) ?_
        fun g s hs => hview _ g s hs
      refine Posts.ite (fun _ => Posts.pure fun _ _ _ h => absurd h (by decide)) fun _ => ?_
      exact Posts.pure fun _ _ h _ => h
    · rintro _ s ⟨g, ⟨rfl, left, hs⟩, rfl⟩
      have hsame : g.after ⟨.memalign 4096 size, ptr⟩ = g := if_neg hs.ptr
      rw [hsame]
      exact hview _ g s ⟨left, hs⟩

/-- The loop fills `left` slots from the slot `i` on. -/
lemma postReceivesFrom_obeys {ptr lkey : ℕ} (hptr : ptr ≠ 0) : ∀ i left (g : Posting),
    g.ptr = ptr → (left ≠ 0 → g.posted = i) → g.posted + left ≤ n → n * packetSize ≤ g.size →
    Obeys (posting n)
      (fun g' r => r.1 = 0 → r.2 = s ∧ g' = { g with posted := g.posted + left })
      ((postReceivesFrom ptr lkey i left).run s) g
  | _, 0, g, _, _, _, _ => Obeys.pure fun _ => ⟨rfl, rfl⟩
  | i, left + 1, g, hg, hi, hle, hroom => by
      have hpos := hi (Nat.succ_ne_zero left)
      have hnext : (g.posted + 1) * packetSize ≤ g.size :=
        (Nat.mul_le_mul_right _ (by omega)).trans hroom
      refine Obeys.get_bind (Obeys.perform_bind
        ⟨by rwa [hg], by omega, hnext, by rw [hg, hpos], rfl⟩ ?_)
      intro ret _
      refine Obeys.ite (fun hret => Obeys.pure fun hzero => absurd hzero hret) fun hret => ?_
      have hafter : (posting n).after g
          ⟨.postSrqRecv s.srq (ptr + i * packetSize) packetSize lkey, ret⟩
            = { g with posted := g.posted + 1 } := if_pos (not_not.mp hret)
      rw [hafter]
      refine (postReceivesFrom_obeys hptr (i + 1) left { g with posted := g.posted + 1 } hg ?_
        ?_ hroom).weaken ?_
      · exact fun _ => congrArg (· + 1) hpos
      · dsimp only
        omega
      · rintro g' r hQ hr
        obtain ⟨hs, rfl⟩ := hQ hr
        exact ⟨hs, by rw [Nat.add_assoc, Nat.add_comm 1]⟩

/-- **The latch**: what is left is posted, and then nothing is left. -/
lemma postReceives_posts :
    PostsOk n (fun g s => ∃ left, Latched n left g s) postReceives (Latched n 0) := by
  refine Posts.get_bind fun s₀ => ?_
  cases s₀.recvBuf.mr with
  | none => exact Posts.halt
  | some mr =>
      rintro g s ⟨rfl, left, hs⟩
      refine Obeys.bind (postReceivesFrom_obeys (n := n) (by rw [hs.buffer]; exact hs.ptr) 0
        s.recvAvailable g hs.buffer.symm ?_ ?_ hs.room) ?_
      · rw [hs.available]
        exact hs.fresh
      · rw [hs.available, hs.posted]
      · intro g' ret s' hQ
        refine Obeys.ite (fun hret => Obeys.pure fun hzero => absurd hzero hret) fun hret => ?_
        obtain ⟨rfl, rfl⟩ := hQ (not_not.mp hret)
        refine Obeys.modify_bind (Obeys.pure fun _ => ?_)
        exact ⟨hs.srq, rfl, hs.buffer, hs.ptr, by rw [hs.available]; exact hs.posted,
          fun h => absurd rfl h, hs.room⟩

/-- **`init_transport`**: once it went well, all receives are posted. -/
theorem initTransport_posts (hn : n = o.rxQueueLen % 2 ^ 32) :
    PostsOk n (Closed n) (initTransport o ev) (Latched n 0) := by
  refine PostsOk.andThen (PostsOk.of_keeps
    (createCq_keeps o _ (fun _ _ => rfl) QueueCall.plain) Closed.of_view) fun _ => ?_
  refine PostsOk.andThen (createSrq_posts hn _) fun _ => ?_
  refine PostsOk.andThen (initRecvBuffer_posts _ ?_) fun _ => ?_
  · exact Nat.mul_le_mul_right _ (hn ▸ Nat.mod_le _ _)
  refine PostsOk.andThen (initRdmaBuffer_posts _ _) fun _ => ?_
  refine PostsOk.andThen postReceives_posts fun _ => ?_
  exact PostsOk.of_keeps (createQps_keeps o _ (fun _ _ => rfl) QueueCall.plain) Latched.of_view

/-! ## The handlers -/

variable {P : Posting → TestContext → Prop}

/-- What `recv_available` and the rest of the context say of the receives. -/
def OfView (P : Posting → TestContext → Prop) : Prop :=
  ∀ g s s', recvView s' = recvView s → P g s → P g s'

lemma addConnection_posts (hP : OfView P) : Posts n P (addConnection o ev) fun _ => P := by
  refine Posts.get_bind fun s₀ => ?_
  have hstore : ∀ f : Unit → Setup (Option ℕ), (Posts n P (f ()) fun _ => P) →
      Posts n (fun g s => s = s₀ ∧ P g s₀) (verb (.storeConn s₀.numConns) >>= f) fun _ => P := by
    intro f hf g s hs
    exact Obeys.perform_bind trivial fun _ _ => hf g s (hs.1 ▸ hs.2)
  refine hstore _ ?_
  refine Posts.modify_bind (K := P) ?_ fun g s hs => hP g s _ rfl hs
  refine Posts.bind (Posts.of_keeps
    (setConnParam_keeps o _ ev (fun _ _ _ => rfl) fun _ => trivial) hP) fun ret => ?_
  refine Posts.ite (fun _ => Posts.pure fun _ _ => id) fun _ => ?_
  exact Posts.modify_bind (K := P) (Posts.pure fun _ _ => id) fun g s hs => hP g s _ rfl hs

lemma handleConnectRequest_posts (hn : n = o.rxQueueLen % 2 ^ 32) :
    PostsOk n (Closed n) (handleConnectRequest o ev) (Latched n 0) := by
  refine PostsOk.andThen (initTransport_posts hn) fun _ => ?_
  refine Posts.bind (addConnection_posts Latched.of_view) fun i => ?_
  cases i with
  | none => exact Posts.pure fun _ _ _ h => absurd h (by decide)
  | some i =>
      exact PostsOk.of_keeps (acceptConnection_keeps o ev i (fun _ _ => rfl) (fun _ => trivial)
        fun _ => trivial) Latched.of_view

lemma handleEstablished_posts (hP : OfView P) : PostsOk n P (handleEstablished o ev) P := by
  have hcount : PostsOk n P (do countEstablished; return 0) P :=
    Posts.modify_bind (K := P) (Posts.pure fun _ _ hs _ => hs) fun g s hs => hP g s _ rfl hs
  refine Posts.ite (fun _ => Posts.bind (addConnection_posts hP) fun i => ?_) fun _ => hcount
  cases i with
  | none => exact Posts.pure fun _ _ _ h => absurd h (by decide)
  | some i => exact hcount

/-- A handler whose event is always acknowledged. -/
lemma Posts.acked {m : Setup Int} {Q : Posting → TestContext → Prop} (hm : PostsOk n P m Q) :
    Posts n P (do let ret ← m; return (ret, true)) fun r g s => r.1 = 0 → Q g s :=
  Posts.bind hm fun _ => Posts.pure fun _ _ => id

/-- An event that makes `init_transport` run. -/
lemma processEvent_posts (hn : n = o.rxQueueLen % 2 ^ 32) (hev : InitsTransport ev) :
    Posts n (Closed n) (processEvent o ev) fun r g s => r.1 = 0 → Latched n 0 g s := by
  rw [processEvent]
  rcases hev with hev | hev <;> rw [hev]
  · exact Posts.acked (handleConnectRequest_posts hn)
  · refine Posts.bind (initTransport_posts hn) fun ret => Posts.ite ?_ fun hret => ?_
    · intro hret
      exact Posts.pure fun _ _ _ hzero => absurd hzero hret
    · refine (Posts.of_keeps (routeResolved_rest o ev) (P := Latched n 0) ?_).weaken
        (fun g s hs => hs (not_not.mp hret)) fun _ _ _ hs _ => hs
      exact fun g s s' heq hs => (show s' = s from heq) ▸ hs

/-- Any other event leaves the receives alone. -/
lemma processEvent_posts_of_not (hev : ¬ InitsTransport ev) (hP : OfView P) :
    Posts n P (processEvent o ev) fun r g s => r.1 = 0 → P g s := by
  rw [processEvent]
  split
  · exact Posts.acked (PostsOk.of_keeps (Keeps.perform trivial) hP)
  · rename_i hty
    exact absurd (Or.inr hty) hev
  · rename_i hty
    exact absurd (Or.inl hty) hev
  · exact Posts.acked (handleEstablished_posts hP)
  · exact Posts.modify_bind (K := P) (Posts.pure fun _ _ hs _ => hs) fun g s hs => hP g s _ rfl hs
  · exact Posts.pure fun _ _ hs _ => hs

/-! ## The whole phase -/

/-- Between two events: all receives are posted, or `init_transport` was never asked for. -/
def Settled (n : ℕ) (g : Posting) (s : TestContext) : Prop :=
  Latched n 0 g s ∨ Untapped g s ∧ g.asked = false

lemma Settled.of_view (g : Posting) (s s' : TestContext) (h : recvView s' = recvView s)
    (hs : Settled n g s) : Settled n g s' :=
  hs.imp (Latched.of_view g s s' h) fun hs => ⟨hs.1.of_view g s s' h, hs.2⟩

/-- The record says that `init_transport` is asked for; the rest of it stays. -/
lemma Settled.ask (h : Settled n g s) : Closed n { g with asked := true } s :=
  h.imp (fun h => ⟨h.srq, h.available, h.buffer, h.ptr, h.posted, h.fresh, h.room⟩)
    fun h => ⟨h.1.srq, h.1.available, h.1.buffer, h.1.ptr, h.1.posted⟩

lemma waitAndProcessOneEvent_posts (hn : n = o.rxQueueLen % 2 ^ 32) (mask : BitVec 64) :
    PostsOk n (Settled n) (waitAndProcessOneEvent o mask) (Settled n) := by
  intro g s hs
  refine Obeys.perform_bind trivial fun r _ => Obeys.ite ?_ fun hret => ?_
  · intro _
    exact Obeys.pure fun hzero => absurd hzero (show (-1 : Int) ≠ 0 by decide)
  rw [not_not] at hret
  refine Obeys.ite (fun _ => ?_) fun _ => ?_
  · refine Obeys.free_bind (posting_free n _) trivial fun _ => ?_
    exact Obeys.pure fun hzero => absurd hzero (show (-1 : Int) ≠ 0 by decide)
  · have hprocess : Obeys (posting n) (fun g' r => r.1.1 = 0 → Settled n g' r.2)
        ((processEvent o r.2).run s) ((posting n).after g ⟨.getCmEvent, r⟩) := by
      by_cases hev : InitsTransport r.2
      · have hafter : (posting n).after g ⟨.getCmEvent, r⟩ = { g with asked := true } :=
          if_pos ⟨hret, hev⟩
        rw [hafter]
        exact (processEvent_posts hn hev _ _ hs.ask).weaken fun _ _ h hzero => Or.inl (h hzero)
      · have hafter : (posting n).after g ⟨.getCmEvent, r⟩ = g := if_neg fun h => hev h.2
        rw [hafter]
        exact processEvent_posts_of_not hev Settled.of_view _ _ hs
    refine Obeys.bind hprocess fun g' r s' hr => Obeys.ite (fun _ => Obeys.pure hr) fun _ => ?_
    refine Obeys.free_bind (posting_free n g') trivial fun ack => ?_
    refine Obeys.ite (fun _ => Obeys.pure hr) fun hret => ?_
    exact Obeys.pure fun _ => hr (not_not.mp hret)

lemma waitConnections_posts (hn : n = o.rxQueueLen % 2 ^ 32) (mask : BitVec 64) :
    ∀ fuel, PostsOk n (Settled n) (waitConnections o mask fuel) (Settled n)
  | 0 => Posts.halt
  | fuel + 1 => by
      refine Posts.get_bind fun s₀ => Posts.ite (fun _ => ?_) fun _ => ?_
      · refine (PostsOk.andThen (waitAndProcessOneEvent_posts hn mask) fun _ =>
          waitConnections_posts hn mask fuel).weaken ?_ fun _ _ _ => id
        rintro g s ⟨rfl, hs⟩
        exact hs
      · refine Posts.pure ?_
        rintro g s ⟨rfl, hs⟩ -
        exact hs

end InitTransport

/-- **The setup phase obeys the monitor** of `rx_queue_len` slots. -/
theorem setup_posts {n : ℕ} {o : Options} (hn : n = o.inForce.rxQueueLen % 2 ^ 32) (fuel : ℕ) :
    PostsOk n (Settled n) (setup o fuel) (Settled n) := by
  refine PostsOk.andThen (PostsOk.of_keeps (initTest_keeps o fun _ _ => rfl)
    Settled.of_view) fun _ => Posts.ite (fun hclient => ?_) fun hserver => ?_
  · rw [Options.inForce, if_pos hclient] at hn
    refine Posts.call_bind trivial fun found => ?_
    refine Posts.ite (fun _ => Posts.pure fun _ _ _ h => absurd h (by decide)) fun _ => ?_
    refine PostsOk.andThen (PostsOk.of_keeps (resolveAddrs_keeps o _) Settled.of_view) fun _ => ?_
    exact waitConnections_posts hn clientMask fuel
  · rw [Options.inForce, if_neg hserver] at hn
    refine Posts.call_bind trivial fun r => ?_
    refine Posts.ite (fun hret => Posts.pure fun _ _ _ h => absurd h hret) fun _ => ?_
    refine Posts.modify_bind (K := Settled n) ?_ fun g s hs => Settled.of_view g s _ rfl hs
    refine PostsOk.andThen (PostsOk.of_keeps (Keeps.perform trivial) Settled.of_view) fun _ => ?_
    refine PostsOk.andThen (PostsOk.of_keeps (Keeps.perform trivial) Settled.of_view) fun _ => ?_
    exact waitConnections_posts hn serverMask fuel

section Receives

variable {o : Options} {fuel : ℕ} {t : Trace} {ctx : TestContext}

lemma settled_start (n : ℕ) : Settled n Posting.start {} :=
  Or.inr ⟨⟨rfl, rfl, rfl, rfl, rfl⟩, rfl⟩

lemma ok_start (n : ℕ) : Posting.start.Ok n := ⟨fun _ => rfl, Nat.zero_le n, Nat.zero_le 0⟩

/-- **The receives of a setup phase, at any moment**, also of one that fails: the first slots of one
buffer, each posted once, `rx_queue_len` of them at most. -/
theorem receives_of_canDo (h : CanDo ((setup o fuel).run {}) t) :
    ∃ ptr, ∃ k ≤ o.inForce.rxQueueLen % 2 ^ 32, receives t = recvSlots ptr k := by
  obtain ⟨q, hsteps⟩ := h
  obtain ⟨hallows, -⟩ := (setup_posts rfl fuel _ _ (settled_start _)).steps hsteps
    (posting_countsOn _ _ _)
  obtain ⟨hok, hslots⟩ := posting_receives (ok_start _) hallows
  exact ⟨_, _, hok.posted_le, hslots.symm⟩

/-- **The receives of a setup phase that went well**: the first slots of `recv_buf`, inside the
memory it was given, and all of them if `init_transport` ran. -/
theorem receives_of_returns (h : Returns ((setup o fuel).run {}) t (0, ctx)) :
    ∃ k, receives t = recvSlots ctx.recvBuf.ptr k ∧
      (k ≠ 0 → ∃ size, Obtained t ctx.recvBuf.ptr size ∧ k * packetSize ≤ size) ∧
      ((∃ ev ∈ cmEvents t, InitsTransport ev) → k = o.inForce.rxQueueLen % 2 ^ 32) := by
  obtain ⟨hallows, hend⟩ := (setup_posts rfl fuel _ _ (settled_start _)).steps h
    (posting_countsOn _ _ _)
  obtain ⟨hok, hslots⟩ := posting_receives (ok_start _) hallows
  have hsettled : Settled _ (t.foldl Posting.after Posting.start) ctx := hend rfl
  have hasked := @posting_asked t Posting.start
  have hget := @posting_obtained t Posting.start
  generalize t.foldl Posting.after Posting.start = g at hok hslots hsettled hasked hget
  refine ⟨g.posted, ?_, fun hk => ?_, fun hev => ?_⟩
  · rcases hsettled with hdone | ⟨hnone, -⟩
    · rw [hdone.buffer]
      exact hslots.symm
    · rw [hnone.posted] at hslots ⊢
      exact hslots.symm
  · rcases hsettled with hdone | ⟨hnone, -⟩
    · rw [hdone.buffer]
      rcases hget hdone.ptr with ⟨hptr, -⟩ | hget
      · exact absurd hptr hdone.ptr
      · exact ⟨g.size, hget, hok.room⟩
    · exact absurd hnone.posted hk
  · rcases hsettled with hdone | ⟨-, hnot⟩
    · exact hdone.posted
    · rw [hasked.mpr (Or.inr hev)] at hnot
      exact absurd hnot (by decide)

end Receives

end RdmaFc
