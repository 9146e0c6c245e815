import RdmaExamples.Multithreading.Channel
import RdmaExamples.Multithreading.Remote

/-!
# Receives that fail

`get_comm_code` clears its buffer, posts a receive, and waits until the receive has ended.  It does
not look at how: not at the status of the completion, and a negative result is overwritten by the
code that it reads from the buffer.  Where nothing has arrived the buffer is still all zeros, which
is the code BEGIN.

* `Heard` — the codes that local sends arrive in order; a receive that fails leaves the buffer as it
  is.
* `acted_prefix` — the remote program acts on the codes that have arrived, with a BEGIN for every
  receive that failed.
* `brokenLink_noWayOut`, `brokenLink_begins` — where the receives fail for good the command loop
  goes on for ever.
-/

namespace Multithreading.Remote

open Programs Monitors ByteStrings

/-! ## The link

A receive ends with the next code that was sent, or it fails and the code stays.  `Heard` follows a
run along the link and lists how its receives have ended. -/

/-- The buffer that the remote program receives into, and the codes that have been sent and have not
arrived. -/
structure Link where
  recvMsg : List UInt8 := zeros bufferSize
  coming : List CommCode

/-- How an event fits the link.  A receive ends with the code that arrived, or it failed: with a
negative result, or with a completion whose status tells so. -/
def Hears (l : Link) : Event Call Reply → List (Option CommCode) → Link → Prop
  | ⟨.clearRecv, _⟩, ends, l' => ends = [] ∧ l' = { l with recvMsg := zeros bufferSize }
  | ⟨.getRecvComp, ret⟩, ends, l' =>
      (ret = 0 ∧ ends = [] ∧ l' = l) ∨
      (0 < ret ∧ ∃ code rest, l.coming = code :: rest ∧ ends = [some code] ∧
        l' = ⟨code.message, rest⟩) ∨
      (ret ≠ 0 ∧ ends = [none] ∧ l' = l)
  | ⟨.loadRecv off n, bytes⟩, ends, l' =>
      bytes = (l.recvMsg.drop off).take n ∧ ends = [] ∧ l' = l
  | _, ends, l' => ends = [] ∧ l' = l

/-- How a run fits the link, with the ends of its receives. -/
def Heard : Link → Trace → List (Option CommCode) → Link → Prop
  | l, [], ends, l' => ends = [] ∧ l' = l
  | l, e :: t, ends, l'' =>
      ∃ l' ends₁ ends₂, ends = ends₁ ++ ends₂ ∧ Hears l e ends₁ l' ∧ Heard l' t ends₂ l''

/-- The code that `get_comm_code` takes from its buffer. -/
def codeRead : Event Call Reply → Option (Option CommCode)
  | ⟨.loadRecv off _, bytes⟩ => if off = 0 then some (readCode bytes) else none
  | _ => none

/-- The codes that the remote program acts on. -/
def acted (t : Trace) : List (Option CommCode) := t.filterMap codeRead

/-- What the end of a receive comes to: a failure is a BEGIN. -/
def commandOf (received : Option CommCode) : Option CommCode := some (received.getD .begin)

/-- The call does not concern the link. -/
def Quiet : Call → Prop
  | .clearRecv => False
  | .getRecvComp => False
  | .loadRecv _ _ => False
  | _ => True

section Link

variable {l l' l'' : Link} {t t₁ t₂ : Trace} {ends : List (Option CommCode)} {e : Event Call Reply}

@[simp] lemma heard_nil : Heard l [] ends l' ↔ ends = [] ∧ l' = l := Iff.rfl

lemma heard_append : Heard l (t₁ ++ t₂) ends l'' ↔
    ∃ l' ends₁ ends₂, ends = ends₁ ++ ends₂ ∧ Heard l t₁ ends₁ l' ∧ Heard l' t₂ ends₂ l'' := by
  induction t₁ generalizing l ends with
  | nil =>
      constructor
      · intro h
        exact ⟨l, [], ends, rfl, ⟨rfl, rfl⟩, h⟩
      · rintro ⟨l', ends₁, ends₂, rfl, ⟨rfl, rfl⟩, h⟩
        exact h
  | cons e t ih =>
      constructor
      · rintro ⟨l₁, ends₁, ends₂, rfl, he, h⟩
        obtain ⟨l', ends₃, ends₄, rfl, h₃, h₄⟩ := ih.mp h
        exact ⟨l', ends₁ ++ ends₃, ends₄, by rw [List.append_assoc],
          ⟨l₁, ends₁, ends₃, rfl, he, h₃⟩, h₄⟩
      · rintro ⟨l', ends₁, ends₂, rfl, ⟨l₁, ends₃, ends₄, rfl, he, h₁⟩, h₂⟩
        exact ⟨l₁, ends₃, ends₄ ++ ends₂, by rw [List.append_assoc], he,
          ih.mpr ⟨l', ends₄, ends₂, rfl, h₁, h₂⟩⟩

@[simp] lemma acted_nil : acted [] = [] := rfl

@[simp] lemma acted_append : acted (t₁ ++ t₂) = acted t₁ ++ acted t₂ := List.filterMap_append

/-- The codes that arrive are those that were sent. -/
lemma Hears.coming (h : Hears l e ends l') : l.coming = ends.reduceOption ++ l'.coming := by
  obtain ⟨c, r⟩ := e
  cases c with
  | clearRecv =>
      obtain ⟨rfl, rfl⟩ := h
      rfl
  | getRecvComp =>
      rcases h with ⟨-, rfl, rfl⟩ | ⟨-, code, rest, hcoming, rfl, rfl⟩ | ⟨-, rfl, rfl⟩
      · rfl
      · rw [hcoming]
        rfl
      · rfl
  | loadRecv off n =>
      obtain ⟨-, rfl, rfl⟩ := h
      rfl
  | _ =>
      obtain ⟨rfl, rfl⟩ := h
      rfl

lemma Heard.coming (h : Heard l t ends l') : l.coming = ends.reduceOption ++ l'.coming := by
  induction t generalizing l ends with
  | nil =>
      obtain ⟨rfl, rfl⟩ := h
      rfl
  | cons e t ih =>
      obtain ⟨l₁, ends₁, ends₂, rfl, he, h⟩ := h
      rw [he.coming, ih h, List.reduceOption_append, List.append_assoc]

/-- Calls that do not concern the link. -/
lemma Heard.quiet (hquiet : ∀ e ∈ t, Quiet e.1) (h : Heard l t ends l') :
    ends = [] ∧ l' = l ∧ acted t = [] := by
  induction t generalizing l ends with
  | nil =>
      obtain ⟨rfl, rfl⟩ := h
      exact ⟨rfl, rfl, rfl⟩
  | cons e t ih =>
      obtain ⟨l₁, ends₁, ends₂, rfl, he, h⟩ := h
      obtain ⟨rfl, rfl, hacted⟩ := ih (fun e he => hquiet e (List.mem_cons_of_mem _ he)) h
      have hq := hquiet e List.mem_cons_self
      obtain ⟨c, r⟩ := e
      cases c with
      | clearRecv => exact hq.elim
      | getRecvComp => exact hq.elim
      | loadRecv off n => exact hq.elim
      | _ =>
          obtain ⟨rfl, rfl⟩ := he
          exact ⟨rfl, rfl, hacted⟩

end Link

/-! ## The commands that are acted on -/

section Commands

variable {fuel rounds : ℕ} {l l' : Link} {t : Trace} {ends : List (Option CommCode)}
  {g g' : Globals} {code : Option CommCode}

lemma quiet_free : Free (R := Reply) (watch Quiet) Call.Teardown () := by
  intro c hc
  refine ⟨?_, fun _ => rfl⟩
  cases c <;> trivial

lemma waitSendComp_quiet : ∀ fuel, Obeys (watch Quiet) (fun _ _ => True)
    ((waitSendComp fuel : RemoteM Int).run g) ()
  | 0 => trivial
  | fuel + 1 => Obeys.perform_bind trivial fun _ _ =>
      Obeys.ite (fun _ => waitSendComp_quiet fuel) fun _ => trivial

/-- A command does not concern the link. -/
lemma command_quiet : Obeys (watch Quiet) (fun _ _ => True) ((command fuel code).run g) () := by
  refine Obeys.get_bind (Obeys.ite (fun _ => ?_) fun _ => trivial)
  refine Obeys.get_bind (Obeys.perform_bind trivial fun buff _ => ?_)
  refine Obeys.perform_bind trivial fun _ _ => Obeys.ite (fun _ => trivial) fun _ => ?_
  refine Obeys.perform_bind trivial fun mr _ => Obeys.perform_bind trivial fun _ _ => ?_
  refine Obeys.modify_bind ?_
  cases mr with
  | none => exact Obeys.perform_bind trivial fun _ _ => trivial
  | some mr =>
      refine Obeys.perform_bind trivial fun _ _ => Obeys.perform_bind trivial fun _ _ => ?_
      refine Obeys.perform_bind trivial fun ret _ =>
        Obeys.ite (fun _ => outFunc_obeys quiet_free _) fun _ => ?_
      refine Obeys.bind (waitSendComp_quiet fuel) fun _ ret _ _ => ?_
      exact Obeys.ite (fun _ => outFunc_obeys quiet_free _) fun _ => trivial

/-- The loop that waits takes one end of a receive from the link. -/
lemma waitRecvComp_heard {ret : Int}
    (h : Returns ((waitRecvComp fuel : RemoteM Int).run g) t (ret, g'))
    (hheard : Heard l t ends l') : g' = g ∧ acted t = [] ∧ ∃ received, ends = [received] ∧
      l'.recvMsg = received.elim l.recvMsg CommCode.message := by
  induction fuel generalizing t ends l with
  | zero => exact absurd h returns_run_halt
  | succ fuel ih =>
      rw [waitRecvComp] at h
      obtain ⟨ret', t₁, rfl, h₁⟩ := returns_run_perform_bind.mp h
      obtain ⟨l₁, ends₁, ends₂, rfl, he, ht⟩ := hheard
      split at h₁
      · rename_i hret
        rcases he with ⟨-, rfl, rfl⟩ | ⟨hpos, -⟩ | ⟨hne, -⟩
        · obtain ⟨hg, hacted, hend⟩ := ih h₁ ht
          exact ⟨hg, hacted, hend⟩
        · exact absurd hret hpos.ne'
        · exact absurd hret hne
      · rename_i hret
        obtain ⟨rfl, -, rfl⟩ := returns_run_pure.mp h₁
        obtain ⟨rfl, rfl⟩ := ht
        rcases he with ⟨hzero, -⟩ | ⟨-, code, rest, -, rfl, rfl⟩ | ⟨-, rfl, rfl⟩
        · exact absurd hzero hret
        · exact ⟨rfl, rfl, some code, rfl, rfl⟩
        · exact ⟨rfl, rfl, none, rfl, rfl⟩

lemma waitRecvComp_acted (h : CanDo ((waitRecvComp fuel : RemoteM Int).run g) t) :
    acted t = [] := by
  induction fuel generalizing t with
  | zero =>
      rw [canDo_run_halt.mp h]
      rfl
  | succ fuel ih =>
      rw [waitRecvComp] at h
      rcases canDo_run_perform_bind.mp h with rfl | ⟨ret, t₁, rfl, h₁⟩
      · rfl
      · show acted t₁ = []
        split at h₁
        · exact ih h₁
        · rw [canDo_run_pure.mp h₁]
          rfl

/-- The code is read from the first byte of the buffer. -/
lemma readCommCode_heard (h : Returns (readCommCode.run g) t (code, g'))
    (hheard : Heard l t ends l') :
    ends = [] ∧ acted t = [code] ∧ code = readCode (l.recvMsg.take 4) := by
  rw [readCommCode] at h
  obtain ⟨bytes, t₁, rfl, h₁⟩ := returns_run_perform_bind.mp h
  obtain ⟨l₁, ends₁, ends₂, rfl, ⟨rfl, rfl, rfl⟩, ht⟩ := hheard
  dsimp only at h₁
  rw [List.drop_zero] at h₁
  split at h₁
  · obtain ⟨size, t₂, rfl, h₂⟩ := returns_run_perform_bind.mp h₁
    rw [run_modify_bind] at h₂
    obtain ⟨rfl, rfl, -⟩ := returns_run_pure.mp h₂
    obtain ⟨l₂, ends₃, ends₄, rfl, ⟨-, rfl, rfl⟩, rfl, rfl⟩ := ht
    exact ⟨rfl, rfl, rfl⟩
  · obtain ⟨rfl, rfl, -⟩ := returns_run_pure.mp h₁
    obtain ⟨rfl, rfl⟩ := ht
    exact ⟨rfl, rfl, rfl⟩

lemma readCommCode_acted (h : CanDo (readCommCode.run g) t) (hheard : Heard l t ends l') :
    acted t <+: [readCode (l.recvMsg.take 4)] := by
  rw [readCommCode] at h
  rcases canDo_run_perform_bind.mp h with rfl | ⟨bytes, t₁, rfl, h₁⟩
  · exact List.nil_prefix
  · obtain ⟨l₁, ends₁, ends₂, rfl, ⟨rfl, rfl, rfl⟩, ht⟩ := hheard
    have hrest : acted t₁ = [] := by
      dsimp only at h₁
      split at h₁
      · rcases canDo_run_perform_bind.mp h₁ with rfl | ⟨size, t₂, rfl, h₂⟩
        · rfl
        · rw [run_modify_bind] at h₂
          rw [canDo_run_pure.mp h₂]
          rfl
      · rw [canDo_run_pure.mp h₁]
        rfl
    have hall : acted (⟨.loadRecv 0 4, (l₁.recvMsg.drop 0).take 4⟩ :: t₁)
        = readCode ((l₁.recvMsg.drop 0).take 4) :: acted t₁ := rfl
    rw [hall, hrest, List.drop_zero]

/-- What a receive leaves in a buffer that was cleared before it. -/
lemma readCode_received (received : Option CommCode) :
    readCode ((received.elim (zeros bufferSize) CommCode.message).take 4) = commandOf received := by
  cases received with
  | none => rfl
  | some code => cases code <;> rfl

/-- **A round acts on what its receive came to.**  A receive that ends with a message has put it
into the buffer; one that fails leaves the zeros there. -/
theorem getCommCode_heard (h : Returns ((getCommCode fuel).run g) t (code, g'))
    (hheard : Heard l t ends l') :
    ∃ received, ends = [received] ∧ acted t = [code] ∧ code = commandOf received := by
  rw [getCommCode] at h
  obtain ⟨u, t₁, rfl, h₁⟩ := returns_run_perform_bind.mp h
  obtain ⟨ret, t₂, rfl, h₂⟩ := returns_run_perform_bind.mp h₁
  obtain ⟨l₁, ends₁, ends₂, rfl, ⟨rfl, rfl⟩, l₂, ends₃, ends₄, rfl, ⟨rfl, rfl⟩, ht⟩ := hheard
  split at h₂
  · rw [outFunc] at h₂
    obtain ⟨t₃, t₄, v, g₁, rfl, -, h₄⟩ := returns_run_bind.mp h₂
    obtain ⟨v', t₅, rfl, h₅⟩ := returns_run_perform_bind.mp h₄
    exact absurd h₅ returns_run_halt
  · obtain ⟨t₃, t₄, ret', g₁, rfl, h₃, h₄⟩ := returns_run_bind.mp h₂
    obtain ⟨l₃, ends₅, ends₆, rfl, ht₃, ht₄⟩ := heard_append.mp ht
    obtain ⟨rfl, hwait, received, rfl, hmsg⟩ := waitRecvComp_heard h₃ ht₃
    obtain ⟨rfl, hacted, rfl⟩ := readCommCode_heard h₄ ht₄
    have hall : acted (⟨.clearRecv, u⟩ :: ⟨.postRecv, ret⟩ :: (t₃ ++ t₄))
        = acted t₃ ++ acted t₄ := acted_append
    rw [hall, hwait, hacted, hmsg]
    exact ⟨received, rfl, rfl, readCode_received received⟩

/-- A round that is under way. -/
lemma getCommCode_acted (h : CanDo ((getCommCode fuel).run g) t) (hheard : Heard l t ends l') :
    acted t <+: ends.map commandOf := by
  rw [getCommCode] at h
  rcases canDo_run_perform_bind.mp h with rfl | ⟨u, t₁, rfl, h₁⟩
  · exact List.nil_prefix
  · rcases canDo_run_perform_bind.mp h₁ with rfl | ⟨ret, t₂, rfl, h₂⟩
    · exact List.nil_prefix
    · obtain ⟨l₁, ends₁, ends₂, rfl, ⟨rfl, rfl⟩, l₂, ends₃, ends₄, rfl, ⟨rfl, rfl⟩, ht⟩ := hheard
      split at h₂
      · obtain ⟨q, hsteps⟩ := h₂
        have hquiet := Obeys.calls (outFunc_obeys (Q := fun _ _ => True) quiet_free .deregSend)
          hsteps
        have hnone : acted t₂ = [] := (ht.quiet hquiet).2.2
        exact hnone ▸ List.nil_prefix
      · rcases canDo_run_bind.mp h₂ with h₃ | ⟨t₃, t₄, ret', g₁, rfl, h₃, h₄⟩
        · have hnone : acted t₂ = [] := waitRecvComp_acted h₃
          exact hnone ▸ List.nil_prefix
        · obtain ⟨l₃, ends₅, ends₆, rfl, ht₃, ht₄⟩ := heard_append.mp ht
          obtain ⟨-, hwait, received, rfl, hmsg⟩ := waitRecvComp_heard h₃ ht₃
          have hacted := readCommCode_acted h₄ ht₄
          rw [hmsg, readCode_received] at hacted
          have hall : acted (⟨.clearRecv, u⟩ :: ⟨.postRecv, ret⟩ :: (t₃ ++ t₄))
              = acted t₃ ++ acted t₄ := acted_append
          rw [hall, hwait, List.nil_append]
          exact hacted.trans (List.prefix_append [commandOf received] (ends₆.map commandOf))

/-- A command, complete or not. -/
lemma command_heard (h : CanDo ((command fuel code).run g) t) (hheard : Heard l t ends l') :
    ends = [] ∧ l' = l ∧ acted t = [] := by
  obtain ⟨q, hsteps⟩ := h
  exact hheard.quiet (Obeys.calls command_quiet hsteps)

/-- The command loop, complete or not. -/
lemma commandLoop_acted (h : CanDo ((commandLoop fuel rounds).run g) t)
    (hheard : Heard l t ends l') : acted t <+: ends.map commandOf := by
  induction rounds generalizing g l t ends with
  | zero =>
      rw [canDo_run_halt.mp h]
      exact List.nil_prefix
  | succ rounds ih =>
      rw [commandLoop] at h
      rcases canDo_run_bind.mp h with h₁ | ⟨t₁, t₂, code, g₁, rfl, h₁, h₂⟩
      · exact getCommCode_acted h₁ hheard
      · obtain ⟨l₁, ends₁, ends₂, rfl, ht₁, ht₂⟩ := heard_append.mp hheard
        obtain ⟨received, rfl, hround, rfl⟩ := getCommCode_heard h₁ ht₁
        rw [acted_append, hround, List.map_append]
        refine (List.prefix_append_right_inj _).mpr ?_
        split at h₂
        · rw [canDo_run_pure.mp h₂]
          exact List.nil_prefix
        · rcases canDo_run_bind.mp h₂ with h₃ | ⟨t₃, t₄, u, g₂, rfl, h₃, h₄⟩
          · rw [(command_heard h₃ ht₂).2.2]
            exact List.nil_prefix
          · obtain ⟨l₂, ends₃, ends₄, rfl, ht₃, ht₄⟩ := heard_append.mp ht₂
            obtain ⟨rfl, rfl, hquiet⟩ := command_heard h₃.canDo ht₃
            rw [acted_append, hquiet]
            exact ih h₄ ht₄

/-- **What the remote program acts on**: the codes that arrived, and a BEGIN for every receive that
failed.  Each round that is over has acted on what one receive came to, and behind the loop nothing
is received any more. -/
theorem acted_prefix (h : CanDo ((remoteNodeRun fuel rounds).run g) t)
    (hheard : Heard l t ends l') : acted t <+: ends.map commandOf := by
  rw [remoteNodeRun] at h
  rcases canDo_run_bind.mp h with h₁ | ⟨t₁, t₂, u, g₁, rfl, h₁, h₂⟩
  · exact commandLoop_acted h₁ hheard
  · obtain ⟨l₁, ends₁, ends₂, rfl, ht₁, ht₂⟩ := heard_append.mp hheard
    have hquiet : ∀ e ∈ t₂, Quiet e.1 := by
      obtain ⟨q, hsteps⟩ := h₂
      refine Obeys.calls (Q := fun _ _ => True) (Obeys.get_bind ?_) hsteps
      refine Obeys.bind (deregDown_obeys quiet_free _ _) fun _ _ _ _ => ?_
      exact Obeys.bind (outDisconnect_obeys quiet_free) fun _ _ _ _ => trivial
    obtain ⟨rfl, -, hnone⟩ := ht₂.quiet hquiet
    rw [acted_append, hnone, List.append_nil, List.append_nil]
    exact commandLoop_acted h₁.canDo ht₁

/-! ## Receives that fail for good -/

/-- The receive could be posted. -/
def PostOk : Event Call Reply → Prop
  | ⟨.postRecv, ret⟩ => ret = 0
  | _ => True

/-- The call is on no way out. -/
def StaysIn (c : Call) : Prop := ¬ c.Teardown

lemma waitRecvComp_staysIn : ∀ fuel, Obeys (watch StaysIn) (fun _ _ => True)
    ((waitRecvComp fuel : RemoteM Int).run g) ()
  | 0 => trivial
  | fuel + 1 => Obeys.perform_bind id fun _ _ =>
      Obeys.ite (fun _ => waitRecvComp_staysIn fuel) fun _ => trivial

lemma readCommCode_staysIn : Obeys (watch StaysIn) (fun _ _ => True) (readCommCode.run g) () := by
  refine Obeys.perform_bind id fun bytes _ => Obeys.ite (fun _ => ?_) fun _ => trivial
  exact Obeys.perform_bind id fun size _ => Obeys.modify_bind trivial

/-- A round whose receive could be posted. -/
lemma getCommCode_staysIn (h : CanDo ((getCommCode fuel).run g) t) (hpost : ∀ e ∈ t, PostOk e) :
    ∀ e ∈ t, StaysIn e.1 := by
  rw [getCommCode] at h
  rcases canDo_run_perform_bind.mp h with rfl | ⟨u, t₁, rfl, h₁⟩
  · simp
  · rcases canDo_run_perform_bind.mp h₁ with rfl | ⟨ret, t₂, rfl, h₂⟩
    · simp [StaysIn, Call.Teardown]
    · have hret : ret = 0 := hpost ⟨.postRecv, ret⟩ (by simp)
      rw [if_neg (not_not.mpr hret)] at h₂
      obtain ⟨q, hsteps⟩ := h₂
      have hrest : ∀ e ∈ t₂, StaysIn e.1 := by
        refine Obeys.calls (Q := fun _ _ => True) ?_ hsteps
        exact Obeys.bind (waitRecvComp_staysIn fuel) fun _ _ _ _ => readCommCode_staysIn
      intro e he
      rcases List.mem_cons.mp he with rfl | he
      · exact id
      · rcases List.mem_cons.mp he with rfl | he
        · exact id
        · exact hrest e he

/-- A BEGIN does nothing. -/
lemma command_begin : command fuel (some .begin) = pure () := by
  funext s
  rfl

lemma commandLoop_staysIn (hheard : Heard l t ends l') (hfail : ∀ received ∈ ends, received = none)
    (hpost : ∀ e ∈ t, PostOk e) :
    (CanDo ((commandLoop fuel rounds).run g) t → ∀ e ∈ t, StaysIn e.1) ∧
      ∀ u g', ¬ Returns ((commandLoop fuel rounds).run g) t (u, g') := by
  induction rounds generalizing g l t ends with
  | zero =>
      refine ⟨fun h => ?_, fun u g' h => absurd h returns_run_halt⟩
      rw [canDo_run_halt.mp h]
      simp
  | succ rounds ih =>
      have hround : ∀ {t₁ t₂ code g₁}, t = t₁ ++ t₂ →
          Returns ((getCommCode fuel).run g) t₁ (code, g₁) →
            code = some .begin ∧ ∃ l₁ ends₂, Heard l₁ t₂ ends₂ l' ∧
            (∀ received ∈ ends₂, received = none) ∧ ∀ e ∈ t₂, PostOk e := by
        rintro t₁ t₂ code g₁ rfl h₁
        obtain ⟨l₁, ends₁, ends₂, rfl, ht₁, ht₂⟩ := heard_append.mp hheard
        obtain ⟨received, rfl, -, rfl⟩ := getCommCode_heard h₁ ht₁
        rw [hfail received (by simp)]
        exact ⟨rfl, l₁, ends₂, ht₂, fun r hr => hfail r (by simp [hr]),
          fun e he => hpost e (by simp [he])⟩
      rw [commandLoop]
      constructor
      · intro h
        rcases canDo_run_bind.mp h with h₁ | ⟨t₁, t₂, code, g₁, rfl, h₁, h₂⟩
        · exact getCommCode_staysIn h₁ hpost
        · obtain ⟨rfl, l₁, ends₂, ht₂, hfail₂, hpost₂⟩ := hround rfl h₁
          rw [if_neg (by decide), command_begin, pure_bind] at h₂
          intro e he
          rcases List.mem_append.mp he with he | he
          · exact getCommCode_staysIn h₁.canDo (fun e he => hpost e (by simp [he])) e he
          · exact (ih ht₂ hfail₂ hpost₂).1 h₂ e he
      · intro u g' h
        obtain ⟨t₁, t₂, code, g₁, rfl, h₁, h₂⟩ := returns_run_bind.mp h
        obtain ⟨rfl, l₁, ends₂, ht₂, hfail₂, hpost₂⟩ := hround rfl h₁
        rw [if_neg (by decide), command_begin, pure_bind] at h₂
        exact (ih ht₂ hfail₂ hpost₂).2 u g' h₂

/-- **There is no way out** where all receives fail: the loop goes round and round.  A BEGIN does
nothing and is not the EXIT, so that every round leads to the next one. -/
theorem brokenLink_noWayOut (h : CanDo ((remoteNodeRun fuel rounds).run g) t)
    (hheard : Heard l t ends l') (hfail : ∀ received ∈ ends, received = none)
    (hpost : ∀ e ∈ t, PostOk e) : ∀ e ∈ t, StaysIn e.1 := by
  rw [remoteNodeRun] at h
  rcases canDo_run_bind.mp h with h₁ | ⟨t₁, t₂, u, g₁, rfl, h₁, -⟩
  · exact (commandLoop_staysIn hheard hfail hpost).1 h₁
  · obtain ⟨l₁, ends₁, ends₂, rfl, ht₁, -⟩ := heard_append.mp hheard
    exact absurd h₁ ((commandLoop_staysIn ht₁ (fun r hr => hfail r (by simp [hr]))
      fun e he => hpost e (by simp [he])).2 u g₁)

/-- A round whose receive fails. -/
def failedRound : Trace :=
  [⟨.clearRecv, ()⟩, ⟨.postRecv, (0 : Int)⟩, ⟨.getRecvComp, (-1 : Int)⟩, ⟨.loadRecv 0 4, zeros 4⟩]

/-- **Each of them is a BEGIN**, as often as one likes. -/
theorem brokenLink_begins (g : Globals) (codes : List CommCode) (n : ℕ) : ∃ t l',
    CanDo ((remoteNodeRun 1 n).run g) t ∧
      Heard { coming := codes } t (List.replicate n none) l' ∧
      acted t = List.replicate n (some .begin) := by
  have hround : Returns ((getCommCode 1).run g) failedRound (some .begin, g) :=
    Steps.call (Steps.call (Steps.call (Steps.call (Steps.here _))))
  have hloop : ∀ n, ∃ t, CanDo ((commandLoop 1 n).run g) t ∧
      Heard { coming := codes } t (List.replicate n none) { coming := codes } ∧
      acted t = List.replicate n (some .begin) := by
    intro n
    induction n with
    | zero => exact ⟨[], canDo_nil _, ⟨rfl, rfl⟩, rfl⟩
    | succ n ih =>
        obtain ⟨t, ht, hheard, hacted⟩ := ih
        refine ⟨failedRound ++ t, ?_, ?_, ?_⟩
        · rw [commandLoop, canDo_run_bind_append hround, if_neg (by decide), command_begin,
            pure_bind]
          exact ht
        · refine heard_append.mpr ⟨_, [none], List.replicate n none, rfl, ?_, hheard⟩
          exact ⟨_, [], [none], rfl, ⟨rfl, rfl⟩, _, [], [none], rfl, ⟨rfl, rfl⟩, _, [none], [], rfl,
            Or.inr (Or.inr ⟨by decide, rfl, rfl⟩), _, [], [], rfl, ⟨rfl, rfl, rfl⟩, rfl, rfl⟩
        · rw [acted_append, hacted]
          rfl
  obtain ⟨t, ht, hheard, hacted⟩ := hloop n
  exact ⟨t, _, canDo_run_bind.mpr (Or.inl ht), hheard, hacted⟩

/-! ## The result -/

/-- Ends of receives none of which failed. -/
lemma map_commandOf (h : none ∉ ends) : ends.map commandOf = ends.reduceOption.map some := by
  induction ends with
  | nil => rfl
  | cons received ends ih =>
      rw [List.mem_cons, not_or] at h
      cases received with
      | none => exact absurd rfl h.1
      | some code =>
          rw [List.map_cons, ih h.2]
          rfl

/-- **What comes of failed receives.**  In every run in which no receive fails the remote program
acts on a prefix of the codes that were sent; in every run in which all of them fail, it never
leaves its loop.

What the program reads after a receive is the code that arrived, or zeros, which is a BEGIN
(`getCommCode_heard`).  So the codes that it acts on are what its receives came to, with a BEGIN
for each failure (`acted_prefix`), and without failures they are those that were sent.  Where all
fail, every round is a BEGIN, and only an EXIT, or a receive that cannot be posted, leads out of
the loop. -/
theorem commands_sent (fuel rounds : ℕ) (g : Globals) (codes : List CommCode) (t : Trace)
    (ends : List (Option CommCode)) (l : Link) (h : CanDo ((remoteNodeRun fuel rounds).run g) t)
    (hheard : Heard { coming := codes } t ends l) :
    (none ∉ ends → acted t <+: codes.map some) ∧
    ((∀ received ∈ ends, received = none) → (∀ e ∈ t, PostOk e) → ∀ e ∈ t, ¬ e.1.Teardown) := by
  refine ⟨fun hall => ?_, brokenLink_noWayOut h hheard⟩
  have hcodes : codes = ends.reduceOption ++ l.coming := hheard.coming
  have hacted := acted_prefix h hheard
  rw [map_commandOf hall] at hacted
  rw [hcodes, List.map_append]
  exact hacted.trans (List.prefix_append _ _)

/-- A receive that ends with a code, and the code read. -/
def receives (code : CommCode) : Trace :=
  [⟨.clearRecv, ()⟩, ⟨.postRecv, (0 : Int)⟩, ⟨.getRecvComp, (1 : Int)⟩,
    ⟨.loadRecv 0 4, codeBytes code⟩]

/-- What a REG_MR leads to: an empty region at address 4096 with the key 7, and its handle sent. -/
def registers : Trace :=
  [⟨.loadRecv 4 8, zeros 8⟩, ⟨.malloc 0, (4096 : UInt64)⟩, ⟨.storeBuff 0 4096, ()⟩,
    ⟨.regMr 4096 0 (accessLocalWrite ||| accessRemoteWrite ||| accessRemoteRead),
      some (⟨4096, 0, 7⟩ : Mr)⟩,
    ⟨.storeMr 0 (some ⟨4096, 0, 7⟩), ()⟩, ⟨.storeSend 0 (toBytes 4 7), ()⟩,
    ⟨.storeSend 4 (toBytes 8 4096), ()⟩, ⟨.postSend, (0 : Int)⟩, ⟨.getSendComp, (1 : Int)⟩]

lemma receives_heard (recvMsg : List UInt8) (code : CommCode) (rest : List CommCode) :
    Heard ⟨recvMsg, code :: rest⟩ (receives code) [some code] ⟨code.message, rest⟩ := by
  refine ⟨_, [], [some code], rfl, ⟨rfl, rfl⟩, _, [], [some code], rfl, ⟨rfl, rfl⟩, _,
    [some code], [], rfl, Or.inr (Or.inl ⟨by decide, code, rest, rfl, rfl, rfl⟩), _, [], [], rfl,
    ⟨?_, rfl, rfl⟩, rfl, rfl⟩
  cases code <;> rfl

lemma registers_heard (rest : List CommCode) :
    Heard ⟨CommCode.regMr.message, rest⟩ registers [] ⟨CommCode.regMr.message, rest⟩ := by
  refine ⟨_, [], [], rfl, ⟨rfl, rfl, rfl⟩, ?_⟩
  iterate 8 refine ⟨_, [], [], rfl, ⟨rfl, rfl⟩, ?_⟩
  exact ⟨rfl, rfl⟩

/-- A TEST, a REG_MR and the EXIT that arrive. -/
theorem commands_sent_registers :
    ∃ t, CanDo ((remoteNodeRun 1 3).run { rmSize := 0, sendInline := true }) t ∧
      Heard { coming := [.test, .regMr, .exit] } t [some .test, some .regMr, some .exit]
        ⟨CommCode.exit.message, []⟩ ∧
      acted t = [some .test, some .regMr, some .exit] ∧
      acted t <+: [some .test, some .regMr, some .exit] := by
  have hrun : CanDo ((remoteNodeRun 1 3).run { rmSize := 0, sendInline := true })
      (receives .test ++ (receives .regMr ++ (registers ++ receives .exit))) := by
    apply Exists.intro
    iterate 21 apply Steps.call
    exact Steps.here _
  have hheard : Heard { coming := [.test, .regMr, .exit] }
      (receives .test ++ (receives .regMr ++ (registers ++ receives .exit)))
      [some .test, some .regMr, some .exit] ⟨CommCode.exit.message, []⟩ := by
    refine heard_append.mpr ⟨_, [_], _, rfl, receives_heard _ .test _, ?_⟩
    refine heard_append.mpr ⟨_, [_], _, rfl, receives_heard _ .regMr _, ?_⟩
    exact heard_append.mpr ⟨_, [], _, rfl, registers_heard _, receives_heard _ .exit _⟩
  exact ⟨_, hrun, hheard, rfl,
    (commands_sent 1 3 _ [.test, .regMr, .exit] _ _ _ hrun hheard).1 (by decide)⟩

/-- **A failure is taken for a BEGIN**, where local sent an EXIT, and it goes on like that. -/
theorem failure_takenForBegin :
    (∃ t ends l, CanDo ((remoteNodeRun 1 1).run { rmSize := 0, sendInline := true }) t ∧
      Heard { coming := [.exit] } t ends l ∧ ¬ acted t <+: [some .exit]) ∧
    ∀ n, ∃ t l, CanDo ((remoteNodeRun 1 n).run { rmSize := 0, sendInline := true }) t ∧
      Heard { coming := [.exit] } t (List.replicate n none) l ∧
      acted t = List.replicate n (some .begin) := by
  constructor
  · obtain ⟨t, l, hrun, hheard, hacted⟩ :=
      brokenLink_begins { rmSize := 0, sendInline := true } [.exit] 1
    refine ⟨t, _, l, hrun, hheard, ?_⟩
    rw [hacted]
    decide
  · exact brokenLink_begins _ _

end Commands

end Multithreading.Remote
