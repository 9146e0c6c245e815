import RdmaExamples.Messages.ExchangeRuns
import RdmaExamples.Messages.Steady

/-!
# Message programs that are underway

Where no verb fails a program is cut off only where one of its loops runs out of fuel
(`attempt_sturdy` and what follows, one lemma for each part that both programs have).  Two programs
of which that is known, and that keep to the exchange, are `Underway`: one of them, or one of the
devices, can always go on (`Underway.goes`), and where neither program has a call left both have
returned `0` and their messages have arrived (`Underway.finished`).

The two programs use this in the same way: each shows of its own functions that they are sturdy,
and that they keep to the exchange; the rest is here.
-/

namespace Messages

open Programs Systems Monitors Progress

instance : Finite Side :=
  .of_surjective (fun server : Bool => if server = true then Side.server else Side.client) fun
    | .server => ⟨true, rfl⟩
    | .client => ⟨false, rfl⟩

/-- A reply that ends a loop. -/
def Advances : Event Call Reply → Prop
  | ⟨.getSendComp, ret⟩ => ret ≠ 0
  | ⟨.getRecvComp, ret⟩ => ret ≠ 0
  | ⟨.pollCq, ret⟩ => ret ≠ 0
  | _ => True

section

variable {sendInline : Bool} {label : Label} {side : Side} {verb wait : MsgM Int}
  {body rest : MsgM Exit} {ok : Event Call Reply → Prop}

/-! ## The programs are not cut off -/

lemma attempt_sturdy (hverb : ∀ sendInline, Sturdy ok Advances (verb.run sendInline))
    (hrest : ∀ sendInline, Sturdy ok Advances (rest.run sendInline)) :
    Sturdy ok Advances ((attempt label verb rest).run sendInline) :=
  Sturdy.bind (hverb _) fun _ _ => Sturdy.ite (fun _ => Sturdy.pure) fun _ => hrest _

lemma attemptWait_sturdy (hwait : ∀ sendInline, Sturdy ok Advances (wait.run sendInline))
    (hrest : ∀ sendInline, Sturdy ok Advances (rest.run sendInline)) :
    Sturdy ok Advances ((attemptWait label wait rest).run sendInline) :=
  Sturdy.bind (hwait _) fun _ _ => Sturdy.ite (fun _ => Sturdy.pure) fun _ => hrest _

lemma lastWait_sturdy (hwait : Sturdy ok Advances (wait.run sendInline)) :
    Sturdy ok Advances ((lastWait label wait).run sendInline) :=
  Sturdy.bind hwait fun _ _ => Sturdy.pure

lemma waitSendComp_sturdy : ∀ (fuel : ℕ) (sendInline : Bool),
    Sturdy ok Advances ((waitSendComp (fuel + 1)).run sendInline)
  | 0, _ => Sturdy.last fun ret _ => by
      by_cases hret : ret = 0
      · subst hret
        exact Or.inr ⟨fun hon => hon rfl, rfl⟩
      · rw [if_neg hret]
        exact Or.inl Sturdy.pure
  | fuel + 1, sendInline => Sturdy.perform_bind fun ret _ =>
      Sturdy.ite (fun _ => waitSendComp_sturdy fuel sendInline) fun _ => Sturdy.pure

lemma waitRecvComp_sturdy : ∀ (fuel : ℕ) (sendInline : Bool),
    Sturdy ok Advances ((waitRecvComp (fuel + 1)).run sendInline)
  | 0, _ => Sturdy.last fun ret _ => by
      by_cases hret : ret = 0
      · subst hret
        exact Or.inr ⟨fun hon => hon rfl, rfl⟩
      · rw [if_neg hret]
        exact Or.inl Sturdy.pure
  | fuel + 1, sendInline => Sturdy.perform_bind fun ret _ =>
      Sturdy.ite (fun _ => waitRecvComp_sturdy fuel sendInline) fun _ => Sturdy.pure

/-- A part that makes no loop is not cut off. -/
lemma goto_sturdy (label : Label) : Sturdy ok Advances ((goto side label).run sendInline) := by
  have hep : ∀ sendInline, Sturdy ok Advances ((outDestroyEp side).run sendInline) := by
    intro sendInline
    refine Sturdy.perform_bind fun _ _ => ?_
    cases side with
    | server => exact Sturdy.perform_bind fun _ _ => Sturdy.perform
    | client => exact Sturdy.perform
  have hrecv : ∀ sendInline, Sturdy ok Advances ((outDeregRecv side).run sendInline) :=
    fun sendInline => Sturdy.perform_bind fun _ _ => hep sendInline
  have hsend : ∀ sendInline, Sturdy ok Advances ((outDeregSend side).run sendInline) :=
    fun sendInline => Sturdy.get_bind (Sturdy.ite
      (fun _ => Sturdy.perform_bind fun _ _ => hrecv sendInline) fun _ => hrecv sendInline)
  have hdisconnect : ∀ sendInline, Sturdy ok Advances ((outDisconnect side).run sendInline) :=
    fun sendInline => Sturdy.perform_bind fun _ _ => hsend sendInline
  cases label with
  | deregRdmaMr => exact Sturdy.perform_bind fun _ _ => hdisconnect _
  | disconnect => exact hdisconnect _
  | deregSend => exact hsend _
  | deregRecv => exact hrecv _
  | destroyEp => exact hep _
  | destroyListenEp => exact Sturdy.perform_bind fun _ _ => Sturdy.perform
  | freeAddrinfo => exact Sturdy.perform
  | out => exact Sturdy.pure

lemma leave_sturdy (hbody : Sturdy ok Advances (body.run sendInline)) :
    Sturdy ok Advances ((leave side body).run sendInline) :=
  Sturdy.bind hbody fun _ _ => Sturdy.bind (goto_sturdy _) fun _ _ => Sturdy.pure

lemma regBuffers_sturdy (hrest : ∀ sendInline, Sturdy ok Advances (rest.run sendInline)) :
    Sturdy ok Advances ((regBuffers rest).run sendInline) := by
  refine Sturdy.perform_bind fun _ _ => Sturdy.ite (fun _ => Sturdy.pure) fun _ => ?_
  refine Sturdy.get_bind (Sturdy.ite (fun _ => ?_) fun _ => hrest _)
  exact Sturdy.perform_bind fun _ _ => Sturdy.ite (fun _ => Sturdy.pure) fun _ => hrest _

lemma rdmaPostSend_sturdy (sendInline : Bool) :
    Sturdy ok Advances (rdmaPostSend.run sendInline) := Sturdy.get_bind Sturdy.perform

lemma call_sturdy (c : Call) (sendInline : Bool) :
    Sturdy ok Advances ((call c).run sendInline) := Sturdy.perform

lemma serverStart_sturdy (hrest : ∀ sendInline, Sturdy ok Advances (rest.run sendInline)) :
    Sturdy ok Advances ((serverStart rest).run sendInline) := by
  refine attempt_sturdy (call_sturdy _) fun _ => attempt_sturdy (call_sturdy _) fun _ => ?_
  refine attempt_sturdy (call_sturdy _) fun _ => attempt_sturdy (call_sturdy _) fun _ => ?_
  refine Sturdy.perform_bind fun _ _ => Sturdy.ite (fun _ => Sturdy.pure) fun _ => ?_
  refine Sturdy.modify_bind (regBuffers_sturdy fun _ => ?_)
  refine attempt_sturdy (call_sturdy _) fun _ => ?_
  rw [attempt_rdmaAccept]
  exact attempt_sturdy (call_sturdy _) fun _ => attempt_sturdy (call_sturdy _) hrest

lemma clientStart_sturdy (hrest : ∀ sendInline, Sturdy ok Advances (rest.run sendInline)) :
    Sturdy ok Advances ((clientStart rest).run sendInline) := by
  refine attempt_sturdy (call_sturdy _) fun _ => Sturdy.perform_bind fun _ _ => ?_
  refine Sturdy.modify_bind (Sturdy.ite (fun _ => Sturdy.pure) fun _ => ?_)
  refine regBuffers_sturdy fun _ => attempt_sturdy (call_sturdy _) fun _ => ?_
  rw [attempt_rdmaConnect]
  exact attempt_sturdy (call_sturdy _) fun _ => attempt_sturdy (call_sturdy _) hrest

end

/-! ## The end -/

/-- Where the two programs stand in a run in which no verb has failed: both sides are steady, each
program keeps to the exchange from here on, and has fuel left. -/
structure Underway (tell : Tell) (n : ℕ) (kind : Side → List (List UInt8) → Prop)
    (ok : Event Call Reply → Prop) (g : Side → Record)
    (s : State Side Call Reply (Int × Bool) Link) : Prop where
  steady : Steady n g s.shared
  obeys : ∀ side, Obeys (exchange tell n side fun _ => Good)
    (fun r x => LeavesIn n (kind side) r x.1) (s.procs side) (g side)
  sturdy : ∀ side, Sturdy ok Advances (s.procs side)

section

variable {tell : Tell} {n : ℕ} {kind : Side → List (List UInt8) → Prop}
  {ok : Event Call Reply → Prop} {side : Side} {g : Side → Record} {l : Link} {c : Call}
  {move : Move}
  {s : State Side Call Reply (Int × Bool) Link}

lemma advances_goodReply (fresh : Buffer → Mr) (port : Port) :
    Advances ⟨c, goodReply fresh port c⟩ := by
  cases c with
  | getSendComp | getRecvComp | pollCq => exact one_ne_zero
  | _ => trivial

/-- A step on. -/
lemma Underway.call (h : Underway tell n kind ok g s) {k : Reply c → Prog Call Reply (Int × Bool)}
    (hp : s.procs side = .call c k) (fresh : Buffer → Mr)
    (hok : ok ⟨c, goodReply fresh (s.shared side) c⟩)
    (hs : s.shared.answer side ⟨c, goodReply fresh (s.shared side) c⟩ = some l) :
    Underway tell n kind ok
      (Function.update g side ((g side).after ⟨c, goodReply fresh (s.shared side) c⟩))
      ⟨Function.update s.procs side (k (goodReply fresh (s.shared side) c)), l⟩ := by
  have hobeys := h.obeys side
  have hsturdy := h.sturdy side
  rw [hp] at hobeys hsturdy
  refine ⟨steady_call h.steady hobeys.1 failed_goodReply hs, fun q => ?_, fun q => ?_⟩
  · by_cases hq : q = side
    · subst hq
      simp only [Function.update_self]
      exact hobeys.2 _ failed_goodReply
    · simp only [Function.update_of_ne hq]
      exact h.obeys q
  · by_cases hq : q = side
    · subst hq
      simp only [Function.update_self]
      exact hsturdy.next hok (advances_goodReply fresh _)
    · simp only [Function.update_of_ne hq]
      exact h.sturdy q

/-- A move of the devices leaves the programs where they are. -/
lemma Underway.device (h : Underway tell n kind ok g s) (hfit : AccessesFit s.shared)
    (hs : s.shared.device move = some l) : Underway tell n kind ok g ⟨s.procs, l⟩ :=
  ⟨h.steady.device hfit hs, h.obeys, h.sturdy⟩

/-- **The two programs go on**, where the accesses fit, with what both kinds of steps keep. -/
theorem Underway.goes {J : (Side → Record) → Link → Prop} (fresh : Buffer → Mr)
    (h : Underway tell n kind ok g s) (hfit : AccessesFit s.shared)
    (hok : ∀ port c, ok ⟨c, goodReply fresh port c⟩)
    (hkeep : ∀ side c l, (g side).allowed tell n side c →
      s.shared.answer side ⟨c, goodReply fresh (s.shared side) c⟩ = some l →
        J (Function.update g side ((g side).after ⟨c, goodReply fresh (s.shared side) c⟩)) l)
    (hmove : ∀ move l, s.shared.device move = some l → J g l)
    (hcall : ∃ side c k, s.procs side = .call c k) :
    Goes link (fun _ _ => ok) (fun s => ∃ g, Underway tell n kind ok g s ∧ J g s.shared)
      Link.todo s := by
  rcases h.steady.goes hfit h.obeys (fun _ _ _ hleaves hgood => hleaves.done hgood)
    (fun side => (h.sturdy side).2) hcall fresh with ⟨side, c, k, l, hp, hl⟩ | ⟨move, l, hl⟩
  · have hobeys := h.obeys side
    rw [hp] at hobeys
    exact Or.inl ⟨side, c, k, _, l, hp, hok _ c, hl, _, h.call hp fresh (hok _ c) hl,
      hkeep side c l hobeys.1 hl⟩
  · exact Or.inr ⟨move, l, hl, todo_device hl, g, h.device hfit hl, hmove move l hl⟩

/-- Where neither program has a call left, both have returned, and their messages have arrived. -/
lemma Underway.finished (h : Underway tell n kind ok g s)
    (hend : ∀ side c k, s.procs side ≠ .call c k) (side : Side) :
    ∃ x, s.procs side = .ret x ∧ x.1 = 0 ∧ (g side).Done n ∧
      kind side.other (s.shared side).delivered := by
  have hret : ∀ side, ∃ x, s.procs side = .ret x ∧ LeavesIn n (kind side) (g side) x.1 := by
    intro side
    have hobeys := h.obeys side
    have hcut := (h.sturdy side).2
    cases hp : s.procs side with
    | ret x =>
        rw [hp] at hobeys
        exact ⟨x, rfl, hobeys⟩
    | call c k => exact absurd hp (hend side c k)
    | halt => exact absurd hp hcut
  obtain ⟨x, hx, hleaves⟩ := hret side
  obtain ⟨_, -, hother⟩ := hret side.other
  have hgood := h.steady.good
  refine ⟨x, hx, hleaves.zero.mpr (hgood side), hleaves.done (hgood side), ?_⟩
  have hsent := hother.sent (hgood side.other)
  have hdone := hother.done (hgood side.other)
  have hposts := (h.steady.inLine.fits side.other).posts
  have hcomps := hdone.sendComps
  have hqueue : (s.shared side.other).sendQueue = [] := List.length_eq_zero_iff.mp (by omega)
  rw [h.steady.fifo side.other, Side.other_other, Port.outgoing, hqueue, List.filterMap_nil,
    List.append_nil] at hsent
  exact hsent

end

/-- In an exchange of one message nobody accesses the memory of the other side. -/
lemma Steady.accessesFit {g : Side → Record} {l : Link} (h : Steady 1 g l) : AccessesFit l := by
  intro side wr rest hqueue hsend
  have haccesses := (h.inLine.fits side).accesses
  have haccessed := (h.inLine.ok side).accessed
  have hcomps := (h.inLine.fits side).recvComps
  have hposts := (h.inLine.fits side).recvPosts
  have hroom := (h.inLine.ok side).receives
  have hrest : rest.countP WorkRequest.isSend ≤ rest.length := List.countP_le_length
  rw [Port.messages, hqueue, List.length_cons, List.countP_cons, hsend] at haccesses
  simp only [Bool.false_eq_true, if_false] at haccesses
  omega

end Messages
