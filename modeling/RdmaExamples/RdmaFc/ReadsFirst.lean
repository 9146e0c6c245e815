import RdmaExamples.RdmaFc.FinGate

/-!
# The reads come before the FINs

A client frees its memory when it has counted a FIN for each of its connections; the server sends
its FINs when `do_rdma_reads` has returned, which it does with nothing outstanding.  So a client
with a connection is gone only when the server's reads are over.

Three invariants, each over single processes or single FINs: where each process stands
(`ProcOk`), which FINs are still to be sent (`FinsOk`), and what the receivers have counted
(`CountsOk`).

The first two say nothing about each other, and each is kept by a step of its own accord: a step
moves one process, or changes the state of one FIN.  Only the third connects a process with what it
has received.  What the argument needs of a client is that it has a connection: one that has none
waits for nothing, and `idleClient_leaves` is a run in which such a client frees its memory while
the server still reads.
-/

namespace RdmaFc

open MachineWords

/-! ## What the read phase leaves alone

The server counts FINs in two places, while it reads and while it waits.  So the steps of the read
phase are looked at here for what they do to the count, apart from the reads. -/

section Reads

variable {o : Options} {r r' : ReadSys} {es : List ReadEvent}

lemma ReadStep.numConns_eq (h : ReadStep o r es r') :
    r'.code.ctx.numConns = r.code.ctx.numConns := by
  cases h <;> simp

@[simp] lemma afterPost_numFinRecvd (ctx : TestContext) (queue : SendQueue) (conn length : ℕ) :
    (ctx.afterPost queue conn length).numFinRecvd = ctx.numFinRecvd := by
  cases queue <;> rfl

lemma postPart_numFinRecvd (s : ReadState) (f : SendWr → Int) :
    (postPart o s f).1.ctx.numFinRecvd = s.ctx.numFinRecvd := by
  rw [postPart]
  split
  · rfl
  · split
    · dsimp only
      split
      · rfl
      · split
        · rfl
        · rename_i ret wr ctx' hpost
          have hctx : ctx'.numFinRecvd = s.ctx.numFinRecvd := by
            rcases postRdmaRead_cases hpost with ⟨-, rfl⟩ | ⟨-, mr, queue, wrId, -, -, rfl⟩
            · rfl
            · simp
          split
          · exact hctx
          · split
            · exact hctx
            · exact hctx
    · rfl

lemma pollPart_read_numFinRecvd (s : ReadState) (p : PostedRead) :
    (pollPart o s (.wc (readWc p))).ctx.numFinRecvd = s.ctx.numFinRecvd := by
  rw [pollPart, pollCq, processWc_read]
  cases o.transport with
  | rc => rfl
  | dc =>
      dsimp only
      split
      · rfl
      · rename_i ret ctx' hdone
        obtain ⟨d, -, rfl, rfl⟩ := dcSendCompletion_cases hdone
        rfl

/-- A choice that brings no packet leaves the count of FINs alone. -/
lemma nextRead_plain {c : ReadChoice} (hplain : c.Plain)
    (h : nextRead o r c = some (r', es)) :
    r'.code.ctx.numFinRecvd = r.code.ctx.numFinRecvd := by
  unfold nextRead at h
  split at h
  case h_1 =>
    simp only [Option.some.injEq, Prod.mk.injEq] at h
    obtain ⟨rfl, rfl⟩ := h
    dsimp only [forTest]
    split
    · rfl
    · split <;> rfl
  case h_2 =>
    simp only [Option.some.injEq, Prod.mk.injEq] at h
    obtain ⟨rfl, rfl⟩ := h
    dsimp only [whileTest]
    split <;> rfl
  case h_3 _ _ ret _ =>
    have hpost := postPart_numFinRecvd (o := o) r.code fun _ => ret
    simp only [ReadSys.afterPost, Option.some.injEq] at h
    split at h
    · rename_i code hcode
      simp only [Prod.mk.injEq] at h
      obtain ⟨rfl, rfl⟩ := h
      rwa [hcode] at hpost
    · rename_i code conn offset wr hcode
      simp only [Prod.mk.injEq] at h
      obtain ⟨rfl, rfl⟩ := h
      rwa [hcode] at hpost
  case h_4 => exact hplain.elim
  case h_5 =>
    simp only [Option.some.injEq, Prod.mk.injEq] at h
    obtain ⟨rfl, rfl⟩ := h
    rfl
  case h_6 => exact hplain.elim
  case h_7 => exact hplain.elim
  case h_8 _ _ k _ =>
    split at h
    · exact absurd h (by simp)
    · rename_i p hk
      simp only [Option.some.injEq, Prod.mk.injEq] at h
      obtain ⟨rfl, rfl⟩ := h
      exact pollPart_read_numFinRecvd r.code p
  case h_9 => exact absurd h (by simp)

/-- A FIN is counted. -/
lemma nextRead_fin {packet : Packet} (htype : packet.type = packetFin)
    (h : nextRead o r (.pollRecv packet) = some (r', es)) :
    r'.code.ctx.numFinRecvd = incr 32 r.code.ctx.numFinRecvd := by
  unfold nextRead at h
  split at h
  case h_7 _ _ packet' _ heq =>
    obtain rfl : packet = packet' := ReadChoice.pollRecv.inj heq
    simp only [pollPart, pollCq, processWc_recv, htype, Option.some.injEq, Prod.mk.injEq] at h
    obtain ⟨rfl, rfl⟩ := h
    rfl
  all_goals contradiction

end Reads

/-! ## Where a process stands

A process never goes back: it is in its setup phase, reads if it is the server, sends its FINs,
waits, and tears down.  `ProcOk` says what is known of its context at each place. -/

/-- The server has not sent a FIN yet. -/
def Proc.BeforeFins : Proc → Prop
  | .setup _ => True
  | .reads _ => True
  | _ => False

/-- What is known of a process from where it stands. -/
structure ProcOk (n : Network) (p : Party) (proc : Proc) : Prop where
  numConns : proc.ctx.numConns = (n.ctx p).numConns
  setup : ∀ ctx, proc = .setup ctx → ctx = n.ctx p
  reads : ∀ r, proc = .reads r →
    p = .server ∧ ∃ tr, ReadRun (n.opts .server) (n.ctx .server) tr r
  idle : p = .server → ¬ proc.BeforeFins → proc.ctx.numOutstandingReads = 0
  past : proc.Past → proc.ctx.numConns ≤ proc.ctx.numFinRecvd

section Procs

variable {n : Network} {s s' : Sys} {choice : SysChoice} {es : List ReadEvent} {p : Party}

/-- A place in `disconnect`: it keeps what is known of the place before. -/
lemma ProcOk.next {proc x : Proc} (h : ProcOk n p proc) (hbefore : ¬ proc.BeforeFins)
    (hconns : x.ctx.numConns = proc.ctx.numConns)
    (hreads : x.ctx.numOutstandingReads = proc.ctx.numOutstandingReads)
    (hafter : ¬ x.BeforeFins)
    (hpast : x.Past → x.ctx.numConns ≤ x.ctx.numFinRecvd) : ProcOk n p x where
  numConns := hconns.trans h.numConns
  setup ctx hp := by
    subst hp
    exact absurd trivial hafter
  reads r hp := by
    subst hp
    exact absurd trivial hafter
  idle hs _ := hreads.trans (h.idle hs hbefore)
  past := hpast

/-- What is known of every process. -/
def ProcsOk (n : Network) (s : Sys) : Prop := ∀ p, ProcOk n p (s.procs p)

lemma ProcsOk.setProc {proc : Proc} (h : ProcsOk n s) (hp : ProcOk n p proc) :
    ProcsOk n (s.setProc p proc) := by
  intro q
  by_cases hq : q = p
  · subst hq
    rwa [setProc_self]
  · rw [setProc_of_ne s proc hq]
    exact h q

/-- A process in `disconnect` goes on. -/
lemma ProcsOk.next {proc x : Proc} (h : ProcsOk n s) (hp : s.procs p = proc)
    (hbefore : ¬ proc.BeforeFins) (hconns : x.ctx.numConns = proc.ctx.numConns)
    (hreads : x.ctx.numOutstandingReads = proc.ctx.numOutstandingReads)
    (hafter : ¬ x.BeforeFins)
    (hpast : x.Past → x.ctx.numConns ≤ x.ctx.numFinRecvd) :
    ProcsOk n (s.setProc p x) :=
  h.setProc ((hp ▸ h p).next hbefore hconns hreads hafter hpast)

/-- A read phase goes on. -/
lemma ProcsOk.readStep {r r' : ReadSys} {c : ReadChoice} (h : ProcsOk n s)
    (hp : s.procs .server = .reads r)
    (hread : nextRead (n.opts .server) r c = some (r', es)) :
    ProcsOk n (s.setProc .server (.reads r')) := by
  have hr := h .server
  rw [hp] at hr
  obtain ⟨-, tr, hrun⟩ := hr.reads r rfl
  refine h.setProc {
    numConns := (ReadStep.numConns_eq (nextRead_step hread)).trans hr.numConns
    setup := by simp
    reads := ?_
    idle := fun _ hbefore => absurd trivial hbefore
    past := fun hpast => hpast.elim }
  rintro _ ⟨rfl⟩
  exact ⟨rfl, _, hrun.step trivial hread⟩

/-- The state a process starts `disconnect` or the reads with. -/
lemma ProcsOk.start {ctx : TestContext} (h : ProcsOk n s) (hp : s.procs p = .setup ctx) :
    ProcsOk n (s.setProc p (enter p ctx)) := by
  have hsetup := h p
  rw [hp] at hsetup
  obtain rfl := hsetup.setup ctx rfl
  cases p with
  | server =>
      refine h.setProc {
        numConns := rfl
        setup := by simp [enter]
        reads := ?_
        idle := fun _ hbefore => absurd trivial hbefore
        past := fun hpast => hpast.elim }
      rintro _ ⟨rfl⟩
      exact ⟨rfl, [], Runs.Run.start⟩
  | client c =>
      exact h.setProc {
        numConns := rfl
        setup := by simp [enter]
        reads := by simp [enter]
        idle := by simp
        past := fun hpast => hpast.elim }

/-- `do_rdma_reads` returns with nothing outstanding. -/
lemma ProcsOk.leaveReads {r : ReadSys} (h : ProcsOk n s) (hp : s.procs .server = .reads r)
    (hret : r.code.pc = .stopped (.ret 0)) :
    ProcsOk n (s.setProc .server (.sendFin r.code.ctx 0)) := by
  have hr := h .server
  rw [hp] at hr
  obtain ⟨-, tr, hrun⟩ := hr.reads r rfl
  exact h.setProc {
    numConns := hr.numConns
    setup := by simp
    reads := by simp
    idle := fun _ _ => (between_of_return hrun hret).1.outstanding
    past := fun hpast => hpast.elim }

theorem ProcsOk.step (h : ProcsOk n s) (hs : SysStep n s choice es s') : ProcsOk n s' := by
  cases hs with
  | start p ctx hp _ => exact h.start hp
  | reads r r' c es hp _ hread => exact h.readStep hp hread
  | readsFin r r' k packet es _ hp _ hread => exact h.readStep hp hread
  | leaveReads r hp hret => exact h.leaveReads hp hret
  | sendFin p ctx ctx' i wr hp _ hsame _ =>
      exact h.next hp id hsame.numConns hsame.numOutstandingReads id fun hpast => hpast.elim
  | finsSent p ctx i hp _ => exact h.next hp id rfl rfl id fun hpast => hpast.elim
  | abort p ctx stop hp s' hs =>
      have h' : ProcsOk n (s.setProc p (.stopped ctx stop)) := by
        rcases hp with ⟨i, hp⟩ | hp
        · exact h.next hp id rfl rfl id fun hpast => hpast.elim
        · exact h.next hp id rfl rfl id fun hpast => hpast.elim
      rcases hs with rfl | ⟨k, wr, -, rfl⟩
      · exact h'
      · exact h'
  | wait p ctx hp _ => exact h.next hp id rfl rfl id fun hpast => hpast.elim
  | leave p ctx _ hp hge _ => exact h.next hp id rfl rfl id fun _ => not_lt.mp hge
  | leaveDc p ctx _ hp hge _ =>
      have h' : ProcsOk n (s.setProc p (.cleanup ctx)) :=
        h.next hp id rfl rfl id fun _ => not_lt.mp hge
      intro q
      rw [tearAll_procs]
      exact h' q
  | pollEmpty p ctx hp => exact h.next hp id rfl rfl id fun hpast => hpast.elim
  | pollFin p ctx k packet _ hp _ => exact h.next hp id rfl rfl id fun hpast => hpast.elim
  | pollSend p ctx ctx' k wr hp _ hsame =>
      exact h.next hp id hsame.numConns hsame.numOutstandingReads id fun hpast => hpast.elim
  | disconnect p ctx i hp _ =>
      have hpast := (h p).past
      rw [hp] at hpast
      exact h.next hp id rfl rfl id hpast
  | disconnected p ctx i hp _ =>
      have hpast := (h p).past
      rw [hp] at hpast
      exact h.next hp id rfl rfl id hpast
  | waitDisc p ctx hp _ =>
      have hpast := (h p).past
      rw [hp] at hpast
      exact h.next hp id rfl rfl id hpast
  | leaveDisc p ctx hp _ =>
      have hpast := (h p).past
      rw [hp] at hpast
      exact h.next hp id rfl rfl id hpast
  | discEvent p ctx k hp =>
      have hpast := (h p).past
      rw [hp] at hpast
      exact h.next hp id rfl rfl id hpast
  | deliver c i toServer wr _ _ => exact h
  | complete p k wr _ _ => exact h

end Procs

/-! ## Which FINs are out

On the side of its sender a FIN is unsent, in flight, delivered, completed or flushed, and on the
other side it is not there, waiting or counted.  `FinsOk` ties the two together: nothing has
arrived that is not out. -/

/-- The first connection whose FIN a process has still to send. -/
def Proc.nextFin : Proc → Option ℕ
  | .setup _ => some 0
  | .reads _ => some 0
  | .sendFin _ i => some i
  | _ => none

/-- The FIN has left its sender's side. -/
def SendStatus.Out : SendStatus → Prop
  | .unsent => False
  | .inFlight _ => False
  | _ => True

/-- What is known of the FINs. -/
structure FinsOk (n : Network) (s : Sys) : Prop where
  unsent : ∀ p i, (s.procs p).nextFin = some i → ∀ j, i ≤ j → j < (n.ctx p).numConns →
    s.sent p (n.index p j) = .unsent
  packet : ∀ p k wr, s.sent p k = .inFlight wr → wr.packet.type = packetFin
  waiting : ∀ p k packet, s.recvd p k = .waiting packet → packet.type = packetFin
  out : ∀ c i toServer, i < (n.ctx (.client c)).numConns →
    s.recvd (receiver c toServer) (n.conn c i) ≠ .none →
    (s.sent (sender c toServer) (n.conn c i)).Out
  bound : ∀ p k, s.recvd p k ≠ .none → k < (n.ctx .server).numConns
  own : ∀ c k, s.recvd (.client c) k ≠ .none →
    ∃ i < (n.ctx (.client c)).numConns, k = n.conn c i

section Fins

variable {n : Network} {s s' : Sys} {choice : SysChoice} {es : List ReadEvent} {p : Party}

lemma index_inj (n : Network) (p : Party) {i j : ℕ} (hi : i < (n.ctx p).numConns)
    (hj : j < (n.ctx p).numConns) (h : n.index p i = n.index p j) : i = j := by
  cases p with
  | server => exact h
  | client c => exact (n.conn_inj c i c j hi hj h).2

@[simp] lemma out_flush {st : SendStatus} (h : st.Out) : st.flush.Out := by
  cases st <;> trivial

/-- One process goes on, and has no more FINs to send than before. -/
lemma FinsOk.setProc {x : Proc} (h : FinsOk n s)
    (hnext : ∀ i, x.nextFin = some i → ∃ j ≤ i, (s.procs p).nextFin = some j) :
    FinsOk n (s.setProc p x) where
  unsent q i hq j hij hj := by
    by_cases hqp : q = p
    · subst hqp
      rw [setProc_self] at hq
      obtain ⟨i', hi', hq'⟩ := hnext i hq
      exact h.unsent q i' hq' j (hi'.trans hij) hj
    · rw [setProc_of_ne s x hqp] at hq
      exact h.unsent q i hq j hij hj
  packet := h.packet
  waiting := h.waiting
  out := h.out
  bound := h.bound
  own := h.own

/-- A process that has no FINs to send any more. -/
lemma FinsOk.setProc_none {x : Proc} (h : FinsOk n s) (hnone : x.nextFin = none) :
    FinsOk n (s.setProc p x) :=
  h.setProc fun i hi => by simp [hnone] at hi

/-- A FIN that was out changes its status, and stays out. -/
lemma FinsOk.setSent {k : ℕ} {st : SendStatus} (h : FinsOk n s) (hold : s.sent p k ≠ .unsent)
    (hst : st.Out) : FinsOk n { s with sent := put s.sent p k st } where
  unsent q i hq j hij hj := by
    have hun := h.unsent q i hq j hij hj
    have hne : ¬ (q = p ∧ n.index q j = k) := by
      rintro ⟨rfl, rfl⟩
      exact hold hun
    exact (put_of_ne hne).trans hun
  packet q j wr hq := by
    by_cases hqj : q = p ∧ j = k
    · rw [hqj.1, hqj.2] at hq
      simp only [put_same] at hq
      subst hq
      exact hst.elim
    · simp only [put_of_ne hqj] at hq
      exact h.packet q j wr hq
  waiting := h.waiting
  out c i toServer hi hr := put_property (fun _ => hst) (h.out c i toServer hi hr)
  bound := h.bound
  own := h.own

/-- A FIN that had arrived is counted. -/
lemma FinsOk.count {k : ℕ} (h : FinsOk n s) (hold : s.recvd p k ≠ .none) :
    FinsOk n { s with recvd := put s.recvd p k .counted } := by
  have harrived : ∀ q j, put s.recvd p k .counted q j ≠ .none → s.recvd q j ≠ .none := by
    intro q j hq
    by_cases hqj : q = p ∧ j = k
    · rwa [hqj.1, hqj.2]
    · rwa [put_of_ne hqj] at hq
  exact {
    unsent := h.unsent
    packet := h.packet
    waiting := by
      intro q j packet hq
      by_cases hqj : q = p ∧ j = k
      · rw [hqj.1, hqj.2] at hq
        simp at hq
      · simp only [put_of_ne hqj] at hq
        exact h.waiting q j packet hq
    out := fun c i toServer hi hr => h.out c i toServer hi (harrived _ _ hr)
    bound := fun q j hq => h.bound q j (harrived q j hq)
    own := fun c j hq => h.own c j (harrived _ j hq) }

/-- A queue pair is torn down where no FIN is still to be sent. -/
lemma FinsOk.tear {k : ℕ} (h : FinsOk n s) (hnone : (s.procs p).nextFin = none) :
    FinsOk n (s.tear p k) where
  unsent q i hq j hij hj := by
    have hne : ¬ (q = p ∧ n.index q j = k) := by
      rintro ⟨rfl, -⟩
      rw [show (s.tear q k).procs q = s.procs q from rfl, hnone] at hq
      exact absurd hq (by simp)
    exact (put_of_ne hne).trans (h.unsent q i hq j hij hj)
  packet q j wr hq := by
    by_cases hqj : q = p ∧ j = k
    · rw [hqj.1, hqj.2] at hq
      simp only [Sys.tear, put_same] at hq
      cases hst : s.sent p k <;> simp [hst, SendStatus.flush] at hq
    · simp only [Sys.tear, put_of_ne hqj] at hq
      exact h.packet q j wr hq
  waiting := h.waiting
  out c i toServer hi hr := put_property out_flush (h.out c i toServer hi hr)
  bound := h.bound
  own := h.own

lemma FinsOk.tearAll (h : FinsOk n s) (hnone : (s.procs p).nextFin = none) :
    ∀ m, FinsOk n (s.tearAll n p m)
  | 0 => h
  | m + 1 => (FinsOk.tearAll h hnone m).tear (by rwa [tearAll_procs])

/-- The next FIN is posted. -/
lemma FinsOk.post {ctx ctx' : TestContext} {i : ℕ} {wr : ControlWr} (h : FinsOk n s)
    (hp : s.procs p = .sendFin ctx i) (hi : i < (n.ctx p).numConns)
    (htype : wr.packet.type = packetFin) :
    FinsOk n { s.setProc p (.sendFin ctx' (i + 1)) with
      sent := put s.sent p (n.index p i) (.inFlight wr) } := by
  have hnext : (s.procs p).nextFin = some i := by rw [hp]; rfl
  have hun := h.unsent p i hnext i le_rfl hi
  exact {
    unsent := by
      intro q i' hq j hij hj
      by_cases hqp : q = p
      · subst hqp
        rw [show ({ s.setProc q (.sendFin ctx' (i + 1)) with
          sent := put s.sent q (n.index q i) (.inFlight wr) } : Sys).procs q
            = .sendFin ctx' (i + 1) from setProc_self _ _ _] at hq
        obtain rfl : i + 1 = i' := Option.some.inj hq
        have hne : ¬ (q = q ∧ n.index q j = n.index q i) := by
          rintro ⟨-, hidx⟩
          have := index_inj n q hj hi hidx
          omega
        exact (put_of_ne hne).trans (h.unsent q i hnext j (by omega) hj)
      · rw [show ({ s.setProc p (.sendFin ctx' (i + 1)) with
          sent := put s.sent p (n.index p i) (.inFlight wr) } : Sys).procs q
            = s.procs q from setProc_of_ne s _ hqp] at hq
        exact (put_of_ne fun hqj => hqp hqj.1).trans (h.unsent q i' hq j hij hj)
    packet := by
      intro q j wr' hq
      by_cases hqj : q = p ∧ j = n.index p i
      · rw [hqj.1, hqj.2] at hq
        simp only [put_same, SendStatus.inFlight.injEq] at hq
        exact hq ▸ htype
      · simp only [put_of_ne hqj] at hq
        exact h.packet q j wr' hq
    waiting := h.waiting
    out := by
      intro c i' toServer hi' hr
      refine put_property (fun hout => ?_) (h.out c i' toServer hi' hr)
      rw [hun] at hout
      exact hout.elim
    bound := h.bound
    own := h.own }

/-- A FIN arrives. -/
lemma FinsOk.deliver {c i : ℕ} {toServer : Bool} {wr : ControlWr} (h : FinsOk n s)
    (hsent : s.sent (sender c toServer) (n.conn c i) = .inFlight wr)
    (hi : i < (n.ctx (.client c)).numConns) :
    FinsOk n { s with
      sent := put s.sent (sender c toServer) (n.conn c i) (.delivered wr)
      recvd := put s.recvd (receiver c toServer) (n.conn c i) (.waiting wr.packet) } := by
  have h' : FinsOk n { s with
      sent := put s.sent (sender c toServer) (n.conn c i) (.delivered wr) } :=
    h.setSent (by simp [hsent]) trivial
  have hcases : ∀ q j, put s.recvd (receiver c toServer) (n.conn c i) (.waiting wr.packet) q j
      ≠ .none → (q = receiver c toServer ∧ j = n.conn c i) ∨ s.recvd q j ≠ .none := by
    intro q j hq
    by_cases hqj : q = receiver c toServer ∧ j = n.conn c i
    · exact Or.inl hqj
    · rw [put_of_ne hqj] at hq
      exact Or.inr hq
  exact {
    unsent := h'.unsent
    packet := h'.packet
    waiting := by
      intro q j packet hq
      by_cases hqj : q = receiver c toServer ∧ j = n.conn c i
      · rw [hqj.1, hqj.2] at hq
        simp only [put_same, RecvStatus.waiting.injEq] at hq
        exact hq ▸ h.packet _ _ _ hsent
      · simp only [put_of_ne hqj] at hq
        exact h.waiting q j packet hq
    out := by
      intro c' i' toServer' hi' hr
      rcases hcases _ _ hr with ⟨hq, hk⟩ | hr
      · -- the receiver and the connection determine the sender
        obtain ⟨rfl, rfl⟩ := n.conn_inj c' i' c i hi' hi hk
        obtain rfl : toServer' = toServer := by
          cases toServer' <;> cases toServer <;> first | rfl | exact absurd hq (by simp [receiver])
        show (put _ _ _ _ _ _ : SendStatus).Out
        rw [put_same]
        trivial
      · exact h'.out c' i' toServer' hi' hr
    bound := by
      intro q j hq
      rcases hcases q j hq with ⟨-, rfl⟩ | hq
      · exact n.conn_lt c i hi
      · exact h.bound q j hq
    own := by
      intro c' j hq
      rcases hcases _ j hq with ⟨hrecv, rfl⟩ | hq
      · cases toServer with
        | true => exact absurd hrecv (by simp [receiver])
        | false =>
            obtain rfl : c' = c := Party.client.inj hrecv
            exact ⟨i, hi, rfl⟩
      · exact h.own c' j hq }

theorem FinsOk.step (h : FinsOk n s) (hprocs : ProcsOk n s) (hs : SysStep n s choice es s') :
    FinsOk n s' := by
  cases hs with
  | start p ctx hp _ =>
      refine h.setProc fun i hi => ⟨0, Nat.zero_le _, by rw [hp]; rfl⟩
  | reads r r' c es hp _ _ => exact h.setProc fun i hi => ⟨0, Nat.zero_le _, by rw [hp]; rfl⟩
  | readsFin r r' k packet es _ hp hw _ =>
      exact (h.setProc fun i hi => ⟨0, Nat.zero_le _, by rw [hp]; rfl⟩).count
        (show s.recvd .server k ≠ .none by simp [hw])
  | leaveReads r hp _ => exact h.setProc fun i hi => ⟨0, Nat.zero_le _, by rw [hp]; rfl⟩
  | sendFin p ctx ctx' i wr hp hi _ htype =>
      have hconns := (hprocs p).numConns
      rw [hp] at hconns
      exact h.post hp (hconns ▸ hi) htype
  | finsSent p ctx i hp _ => exact h.setProc_none rfl
  | abort p ctx stop hp s' hs =>
      have h' := h.setProc_none (p := p) (x := .stopped ctx stop) rfl
      rcases hs with rfl | ⟨k, wr, hc, rfl⟩
      · exact h'
      · exact h'.setSent (by show s.sent p k ≠ _; simp [hc]) trivial
  | wait p ctx hp _ => exact h.setProc_none rfl
  | leave p ctx _ hp _ _ => exact h.setProc_none rfl
  | leaveDc p ctx _ hp _ _ =>
      exact (h.setProc_none rfl).tearAll (by rw [setProc_self]; rfl) _
  | pollEmpty p ctx hp => exact h.setProc_none rfl
  | pollFin p ctx k packet _ hp hw =>
      exact (h.setProc_none rfl).count (show s.recvd p k ≠ .none by simp [hw])
  | pollSend p ctx ctx' k wr hp hc _ =>
      exact (h.setProc_none rfl).setSent (show s.sent p k ≠ .unsent by simp [hc]) trivial
  | disconnect p ctx i hp _ => exact (h.setProc_none rfl).tear (by rw [setProc_self]; rfl)
  | disconnected p ctx i hp _ => exact h.setProc_none rfl
  | waitDisc p ctx hp _ => exact h.setProc_none rfl
  | leaveDisc p ctx hp _ => exact h.setProc_none rfl
  | discEvent p ctx k hp =>
      have h' := h.setProc_none (p := p) (x := .discTest { ctx with
        numDisconnect := incr 32 ctx.numDisconnect }) rfl
      exact ⟨h'.unsent, h'.packet, h'.waiting, h'.out, h'.bound, h'.own⟩
  | deliver c i toServer wr hsent hi => exact h.deliver hsent hi
  | complete p k wr _ hsent => exact h.setSent (by simp [hsent]) trivial

end Fins

/-! ## What was counted

The program counts, and the counter forgets whose FINs they were.  `CountsOk` compares it with the
set of those that were counted, so that a full count means that each connection's FIN is among
them. -/

/-- The connections whose FIN a process has counted. -/
def counted (n : Network) (s : Sys) (p : Party) : Finset ℕ :=
  (Finset.range (n.ctx .server).numConns).filter fun k => (s.recvd p k).isCounted

/-- `num_fin_recvd` is the number of FINs counted, each of them once.  The set is that of the
connections, not of the messages: a FIN that were counted twice would make the counter larger than
the set. -/
def CountsOk (n : Network) (s : Sys) : Prop :=
  ∀ p, (s.procs p).ctx.numFinRecvd = (counted n s p).card

section Counts

variable {n : Network} {s s' : Sys} {choice : SysChoice} {es : List ReadEvent} {p : Party}

lemma mem_counted {k : ℕ} :
    k ∈ counted n s p ↔ k < (n.ctx .server).numConns ∧ (s.recvd p k).isCounted := by
  simp [counted]

lemma CountsOk.setProc {proc x : Proc} (h : CountsOk n s) (hp : s.procs p = proc)
    (hfin : x.ctx.numFinRecvd = proc.ctx.numFinRecvd) : CountsOk n (s.setProc p x) := by
  intro q
  by_cases hq : q = p
  · subst hq
    have hold := h q
    rw [hp] at hold
    rw [setProc_self]
    exact hfin.trans hold
  · rw [setProc_of_ne s x hq]
    exact h q

/-- A FIN that was waiting is counted, and was not before. -/
lemma card_counted_count {x : Proc} {k : ℕ} {packet : Packet} (hfins : FinsOk n s)
    (hw : s.recvd p k = .waiting packet) (q : Party) :
    (counted n { s.setProc p x with recvd := put s.recvd p k .counted } q).card =
      (counted n s q).card + if q = p then 1 else 0 := by
  by_cases hq : q = p
  · subst hq
    have hk : k < (n.ctx .server).numConns := hfins.bound q k (by simp [hw])
    have hnew : k ∉ counted n s q := by
      rw [mem_counted, hw]
      simp [RecvStatus.isCounted]
    have hset : counted n { s.setProc q x with recvd := put s.recvd q k .counted } q
        = insert k (counted n s q) := by
      ext j
      rw [Finset.mem_insert, mem_counted, mem_counted]
      by_cases hj : j = k
      · subst hj
        simp [hk, RecvStatus.isCounted]
      · have hne : ¬ (q = q ∧ j = k) := fun hpj => hj hpj.2
        simp [hj, put_of_ne hne]
    rw [hset, Finset.card_insert_of_notMem hnew, if_pos rfl]
  · have hsame : counted n { s.setProc p x with recvd := put s.recvd p k .counted } q
        = counted n s q := by
      ext j
      rw [mem_counted, mem_counted]
      show _ ∧ (put s.recvd p k .counted q j).isCounted = true ↔ _
      rw [put_of_party_ne hq]
    rw [hsame, if_neg hq, Nat.add_zero]

lemma card_counted_le (n : Network) (s : Sys) (p : Party) :
    (counted n s p).card ≤ (n.ctx .server).numConns := by
  refine (Finset.card_filter_le _ _).trans ?_
  rw [Finset.card_range]

/-- The count goes on with it. -/
lemma CountsOk.count {proc x : Proc} {k : ℕ} {packet : Packet} (h : CountsOk n s)
    (hfins : FinsOk n s) (hp : s.procs p = proc) (hw : s.recvd p k = .waiting packet)
    (hfin : x.ctx.numFinRecvd = incr 32 proc.ctx.numFinRecvd) :
    CountsOk n { s.setProc p x with recvd := put s.recvd p k .counted } := by
  intro q
  have hcard := card_counted_count (x := x) hfins hw q
  rw [hcard]
  by_cases hq : q = p
  · subst hq
    have hold := h q
    rw [hp] at hold
    rw [if_pos rfl] at hcard ⊢
    have hle := card_counted_le n { s.setProc q x with recvd := put s.recvd q k .counted } q
    have hlt := n.numConns_lt .server
    rw [show ({ s.setProc q x with recvd := put s.recvd q k .counted } : Sys).procs q = x from
      setProc_self _ _ _, hfin, hold]
    exact incr_of_lt (by omega)
  · rw [if_neg hq, Nat.add_zero, show ({ s.setProc p x with
      recvd := put s.recvd p k .counted } : Sys).procs q = s.procs q from setProc_of_ne s _ hq]
    exact h q

/-- A FIN that arrives is not counted yet, and was not before. -/
lemma counted_deliver {c i : ℕ} {toServer : Bool} {wr : ControlWr} (hfins : FinsOk n s)
    (hsent : s.sent (sender c toServer) (n.conn c i) = .inFlight wr)
    (hi : i < (n.ctx (.client c)).numConns) (sent' : Party → ℕ → SendStatus) (q : Party) :
    counted n { s with
      sent := sent'
      recvd := put s.recvd (receiver c toServer) (n.conn c i) (.waiting wr.packet) } q
      = counted n s q := by
  have hnone : s.recvd (receiver c toServer) (n.conn c i) = .none := by
    by_contra hne
    have hout := hfins.out c i toServer hi hne
    rw [hsent] at hout
    exact hout
  ext j
  rw [mem_counted, mem_counted]
  by_cases hqj : q = receiver c toServer ∧ j = n.conn c i
  · rw [hqj.1, hqj.2, hnone]
    simp [RecvStatus.isCounted]
  · simp only [put_of_ne hqj]

lemma CountsOk.deliver {c i : ℕ} {toServer : Bool} {wr : ControlWr} (h : CountsOk n s)
    (hfins : FinsOk n s)
    (hsent : s.sent (sender c toServer) (n.conn c i) = .inFlight wr)
    (hi : i < (n.ctx (.client c)).numConns) (sent' : Party → ℕ → SendStatus) :
    CountsOk n { s with
      sent := sent'
      recvd := put s.recvd (receiver c toServer) (n.conn c i) (.waiting wr.packet) } := by
  intro q
  rw [counted_deliver hfins hsent hi]
  exact h q

theorem CountsOk.step (h : CountsOk n s) (hfins : FinsOk n s) (hs : SysStep n s choice es s') :
    CountsOk n s' := by
  cases hs with
  | start p ctx hp _ => exact h.setProc hp (by cases p <;> rfl)
  | reads r r' c es hp hplain hread => exact h.setProc hp (nextRead_plain hplain hread)
  | readsFin r r' k packet es _ hp hw hread =>
      exact h.count hfins hp hw (nextRead_fin (hfins.waiting _ _ _ hw) hread)
  | leaveReads r hp _ => exact h.setProc hp rfl
  | sendFin p ctx ctx' i wr hp _ hsame _ =>
      exact h.setProc (x := .sendFin ctx' (i + 1)) hp hsame.numFinRecvd
  | finsSent p ctx i hp _ => exact h.setProc hp rfl
  | abort p ctx stop hp s' hs =>
      have h' : CountsOk n (s.setProc p (.stopped ctx stop)) := by
        rcases hp with ⟨i, hp⟩ | hp
        · exact h.setProc hp rfl
        · exact h.setProc hp rfl
      rcases hs with rfl | ⟨k, wr, -, rfl⟩
      · exact h'
      · exact h'
  | wait p ctx hp _ => exact h.setProc hp rfl
  | leave p ctx _ hp _ _ => exact h.setProc hp rfl
  | leaveDc p ctx _ hp _ _ =>
      have h' := h.setProc (x := .cleanup ctx) hp rfl
      intro q
      rw [counted, tearAll_procs, tearAll_recvd]
      exact h' q
  | pollEmpty p ctx hp => exact h.setProc hp rfl
  | pollFin p ctx k packet _ hp hw =>
      exact h.count hfins hp hw (if_pos (hfins.waiting _ _ _ hw))
  | pollSend p ctx ctx' k wr hp _ hsame =>
      exact h.setProc (x := .finTest ctx') hp hsame.numFinRecvd
  | disconnect p ctx i hp _ => exact h.setProc (x := .disconnecting ctx (i + 1)) hp rfl
  | disconnected p ctx i hp _ => exact h.setProc hp rfl
  | waitDisc p ctx hp _ => exact h.setProc hp rfl
  | leaveDisc p ctx hp _ => exact h.setProc hp rfl
  | discEvent p ctx k hp =>
      exact h.setProc (x := .discTest { ctx with
        numDisconnect := incr 32 ctx.numDisconnect }) hp rfl
  | deliver c i toServer wr hsent hi => exact h.deliver hfins hsent hi _
  | complete p k wr _ hsent => exact h

end Counts

/-! ## Every run -/

section Runs

variable {n : Network} {s s' : Sys} {choice : SysChoice} {tr es : List ReadEvent} {p : Party}

/-- The invariants together. -/
structure SysOk (n : Network) (s : Sys) : Prop where
  procs : ProcsOk n s
  fins : FinsOk n s
  counts : CountsOk n s
  torn : TornOk n s

theorem sysOk_start (n : Network) : SysOk n (Sys.start n) where
  procs p := {
    numConns := rfl
    setup := by
      rintro _ ⟨rfl⟩
      rfl
    reads := by simp [Sys.start]
    idle := fun _ hbefore => absurd trivial hbefore
    past := fun hpast => hpast.elim }
  fins := {
    unsent := fun _ _ _ _ _ _ => rfl
    packet := by simp [Sys.start]
    waiting := by simp [Sys.start]
    out := fun _ _ _ _ hr => absurd rfl hr
    bound := fun _ _ hr => absurd rfl hr
    own := fun _ _ hr => absurd rfl hr }
  counts p := by
    rw [show counted n (Sys.start n) p = ∅ by simp [counted, Sys.start, RecvStatus.isCounted]]
    exact n.numFinRecvd_eq p
  torn := tornOk_start n

theorem SysOk.step (h : SysOk n s) (hs : SysStep n s choice es s') : SysOk n s' where
  procs := h.procs.step hs
  fins := h.fins.step h.procs hs
  counts := h.counts.step h.fins hs
  torn := h.torn.step hs

lemma SysOk.run (h : SysOk n s) (hrun : Runs.Run (nextSys n) Runs.always s tr s') : SysOk n s' :=
  hrun.invariant (I := fun _ s => SysOk n s) h
    fun _ _ _ _ _ hok _ hs => hok.step (nextSys_step hs)

lemma sysOk_run (hrun : SysRun n tr s) : SysOk n s := (sysOk_start n).run hrun

end Runs

/-! ## The server after its reads

Once the server is past `do_rdma_reads` it stays there, so that what is known at that moment holds
from then on. -/

section After

variable {n : Network} {s s' : Sys} {choice : SysChoice} {tr es : List ReadEvent} {p : Party}

/-- The server is past `do_rdma_reads`. -/
def ReadsOver (s : Sys) : Prop := ¬ (s.procs .server).BeforeFins

/-- A process goes on to a place that is past `do_rdma_reads`. -/
lemma ReadsOver.setProc {x : Proc} (h : ReadsOver s) (hproc : ¬ x.BeforeFins) :
    ReadsOver (s.setProc p x) := by
  rw [ReadsOver]
  by_cases hp : Party.server = p
  · rwa [← hp, setProc_self]
  · rwa [setProc_of_ne s x hp]

/-- Whoever is at this place is not the server. -/
lemma ReadsOver.not_at {proc : Proc} (h : ReadsOver s) (hp : s.procs .server = proc)
    (hproc : proc.BeforeFins) : False := h (hp ▸ hproc)

/-- Past `do_rdma_reads` no read is posted or completed, in one step. -/
lemma ReadsOver.step (h : ReadsOver s) (hs : SysStep n s choice es s') :
    ReadsOver s' ∧ es = [] := by
  cases hs with
  | start p ctx hp _ =>
      cases p with
      | server => exact (h.not_at hp trivial).elim
      | client c => exact ⟨h.setProc id, rfl⟩
  | reads r r' c es hp _ _ => exact (h.not_at hp trivial).elim
  | readsFin r r' k packet es _ hp _ _ => exact (h.not_at hp trivial).elim
  | leaveReads r hp _ => exact (h.not_at hp trivial).elim
  | sendFin p ctx ctx' i wr _ _ _ _ =>
      exact ⟨h.setProc (x := .sendFin ctx' (i + 1)) id, rfl⟩
  | finsSent p ctx i _ _ => exact ⟨h.setProc id, rfl⟩
  | abort p ctx stop _ s' hs =>
      have h' := h.setProc (p := p) (x := .stopped ctx stop) id
      rcases hs with rfl | ⟨k, wr, -, rfl⟩
      · exact ⟨h', rfl⟩
      · exact ⟨h', rfl⟩
  | wait p ctx _ _ => exact ⟨h.setProc id, rfl⟩
  | leave p ctx _ _ _ _ => exact ⟨h.setProc id, rfl⟩
  | leaveDc p ctx _ _ _ _ =>
      refine ⟨?_, rfl⟩
      rw [ReadsOver, tearAll_procs]
      exact h.setProc id
  | pollEmpty p ctx _ => exact ⟨h.setProc id, rfl⟩
  | pollFin p ctx k packet _ _ _ =>
      exact ⟨h.setProc (x := .finTest { ctx with
        numFinRecvd := if packet.type = packetFin then incr 32 ctx.numFinRecvd
          else ctx.numFinRecvd }) id, rfl⟩
  | pollSend p ctx ctx' k wr _ _ _ => exact ⟨h.setProc (x := .finTest ctx') id, rfl⟩
  | disconnect p ctx i _ _ => exact ⟨h.setProc (x := .disconnecting ctx (i + 1)) id, rfl⟩
  | disconnected p ctx i _ _ => exact ⟨h.setProc id, rfl⟩
  | waitDisc p ctx _ _ => exact ⟨h.setProc id, rfl⟩
  | leaveDisc p ctx _ _ => exact ⟨h.setProc id, rfl⟩
  | discEvent p ctx k _ =>
      exact ⟨h.setProc (x := .discTest { ctx with
        numDisconnect := incr 32 ctx.numDisconnect }) id, rfl⟩
  | deliver c i toServer wr _ _ => exact ⟨h, rfl⟩
  | complete p k wr _ _ => exact ⟨h, rfl⟩

/-- Past `do_rdma_reads` no read is posted or completed any more. -/
lemma ReadsOver.run (h : ReadsOver s) (hrun : Runs.Run (nextSys n) Runs.always s tr s') :
    ReadsOver s' ∧ tr = [] := by
  refine hrun.invariant (I := fun tr s' => ReadsOver s' ∧ tr = []) ⟨h, rfl⟩ ?_
  rintro tr s c s' es ⟨hover, rfl⟩ - hs
  obtain ⟨hover', rfl⟩ := hover.step (nextSys_step hs)
  exact ⟨hover', rfl⟩

end After

/-! ## A client that leaves

Here the three parts come together.  The first connection of a client that leaves has had its FIN
counted, and that FIN was the server's. -/

section Leaving

variable {n : Network} {s s' : Sys} {choice : SysChoice} {tr es : List ReadEvent} {p : Party}

/-- A client has called `rdma_disconnect` on a connection, or entered `cleanup_test`. -/
def Leaving (s : Sys) (c : ℕ) : Prop :=
  (∃ k, s.torn (.client c) k = true) ∨ ∃ ctx, s.procs (.client c) = .cleanup ctx

lemma SysOk.past_of_leaving {c : ℕ} (h : SysOk n s) (hleaving : Leaving s c) :
    (s.procs (.client c)).Past := by
  rcases hleaving with ⟨k, hk⟩ | ⟨ctx, hctx⟩
  · exact (h.torn _ k hk).1
  · rw [hctx]
    trivial

/-- Past the wait loop a process has counted a FIN for each of its connections. -/
lemma SysOk.numConns_le_counted (h : SysOk n s) (hpast : (s.procs p).Past) :
    (n.ctx p).numConns ≤ (counted n s p).card := by
  rw [← h.counts p, ← (h.procs p).numConns]
  exact (h.procs p).past hpast

/-- A client past the wait loop has counted the FIN of each of its connections. -/
lemma SysOk.client_counted {c i : ℕ} (h : SysOk n s) (hpast : (s.procs (.client c)).Past)
    (hi : i < (n.ctx (.client c)).numConns) : n.conn c i ∈ counted n s (.client c) := by
  have hsub : counted n s (.client c)
      ⊆ (Finset.range (n.ctx (.client c)).numConns).image (n.conn c) := by
    intro k hk
    obtain ⟨-, hcounted⟩ := mem_counted.mp hk
    obtain ⟨j, hj, rfl⟩ := h.fins.own c k fun hnone => by
      rw [hnone] at hcounted
      exact Bool.noConfusion hcounted
    exact Finset.mem_image_of_mem _ (Finset.mem_range.mpr hj)
  have hcard : ((Finset.range (n.ctx (.client c)).numConns).image (n.conn c)).card
      ≤ (counted n s (.client c)).card := by
    refine Finset.card_image_le.trans ?_
    rw [Finset.card_range]
    exact h.numConns_le_counted hpast
  rw [Finset.eq_of_subset_of_card_le hsub hcard]
  exact Finset.mem_image_of_mem _ (Finset.mem_range.mpr hi)

/-- The server past the wait loop has counted the FIN of every connection. -/
lemma SysOk.server_counted {k : ℕ} (h : SysOk n s) (hpast : (s.procs .server).Past)
    (hk : k < (n.ctx .server).numConns) : k ∈ counted n s .server := by
  have hcard : (Finset.range (n.ctx .server).numConns).card ≤ (counted n s .server).card := by
    rw [Finset.card_range]
    exact h.numConns_le_counted hpast
  have hall : counted n s .server = Finset.range (n.ctx .server).numConns :=
    Finset.eq_of_subset_of_card_le (Finset.filter_subset _ _) hcard
  rw [hall]
  exact Finset.mem_range.mpr hk

/-- A client with a connection leaves after the server's reads. -/
lemma SysOk.readsOver_of_leaving {c : ℕ} (h : SysOk n s) (hleaving : Leaving s c)
    (hconns : 0 < (n.ctx (.client c)).numConns) : ReadsOver s := by
  intro hbefore
  obtain ⟨hk, hcounted⟩ := mem_counted.mp (h.client_counted (h.past_of_leaving hleaving) hconns)
  -- the client has the server's FIN, so the server had sent it
  have hout := h.fins.out c 0 false hconns fun hnone => by
    rw [show s.recvd (.client c) (n.conn c 0) = .none from hnone] at hcounted
    exact Bool.noConfusion hcounted
  have hnext : (s.procs .server).nextFin = some 0 := by
    cases hp : s.procs .server <;> rw [hp] at hbefore <;> first | rfl | exact hbefore.elim
  rw [show s.sent (sender c false) (n.conn c 0) = .unsent from
    h.fins.unsent .server 0 hnext (n.conn c 0) (Nat.zero_le _) hk] at hout
  exact hout

end Leaving

/-! ## What becomes of a FIN

The FINs only go forward as well: what has arrived stays arrived, and what was counted stays
counted. -/

section Arrived

variable {n : Network} {s s' : Sys} {choice : SysChoice} {tr es : List ReadEvent} {p q : Party}
  {k j : ℕ}

/-- A FIN that was counted stays counted, one that arrived stays so. -/
structure RecvGrows (s s' : Sys) : Prop where
  arrived : ∀ p k, s.recvd p k ≠ .none → s'.recvd p k ≠ .none
  counted : ∀ p k, (s.recvd p k).isCounted = true → (s'.recvd p k).isCounted = true

lemma RecvGrows.of_eq (h : s'.recvd = s.recvd) : RecvGrows s s' :=
  ⟨fun _ _ hr => by rwa [h], fun _ _ hr => by rwa [h]⟩

lemma RecvGrows.trans {s'' : Sys} (h : RecvGrows s s') (h' : RecvGrows s' s'') :
    RecvGrows s s'' :=
  ⟨fun p k hr => h'.arrived p k (h.arrived p k hr),
    fun p k hr => h'.counted p k (h.counted p k hr)⟩

lemma RecvGrows.of_put {v : RecvStatus} (hnone : v ≠ .none)
    (hcounted : (s.recvd p k).isCounted = true → v.isCounted = true)
    (hs : s'.recvd = put s.recvd p k v) : RecvGrows s s' where
  arrived q j hr := by
    rw [hs]
    exact put_property (P := fun st : RecvStatus => st ≠ .none) (fun _ => hnone) hr
  counted q j hr := by
    rw [hs]
    exact put_property (P := fun st : RecvStatus => st.isCounted = true) hcounted hr

lemma recvGrows_step (h : SysOk n s) (hs : SysStep n s choice es s') : RecvGrows s s' := by
  cases hs with
  | readsFin r r' k packet es _ hp hw _ => exact RecvGrows.of_put (by simp) (fun _ => rfl) rfl
  | pollFin p ctx k packet _ hp hw => exact RecvGrows.of_put (by simp) (fun _ => rfl) rfl
  | deliver c i toServer wr hsent hi =>
      refine RecvGrows.of_put (by simp) (fun hcounted => ?_) rfl
      -- what is still on its way has not arrived before
      have hout := h.fins.out c i toServer hi fun hnone => by
        rw [hnone] at hcounted
        exact Bool.noConfusion hcounted
      rw [hsent] at hout
      exact hout.elim
  | abort p ctx stop hp s' hs =>
      rcases hs with rfl | ⟨k, wr, -, rfl⟩
      · exact RecvGrows.of_eq rfl
      · exact RecvGrows.of_eq rfl
  | leaveDc p ctx _ hp _ _ => exact RecvGrows.of_eq (tearAll_recvd _)
  | start | reads | leaveReads | sendFin | finsSent | wait | leave | pollEmpty | pollSend
  | disconnect | disconnected | waitDisc | leaveDisc | discEvent | complete =>
      exact RecvGrows.of_eq rfl

lemma SysOk.recvGrows (h : SysOk n s) (hrun : Runs.Run (nextSys n) Runs.always s tr s') :
    RecvGrows s s' := by
  refine (hrun.invariant (I := fun _ s' => SysOk n s' ∧ RecvGrows s s') ⟨h, RecvGrows.of_eq rfl⟩
    ?_).2
  rintro tr s₁ c s₂ es ⟨hok, hgrows⟩ - hs
  exact ⟨hok.step (nextSys_step hs), hgrows.trans (recvGrows_step hok (nextSys_step hs))⟩

end Arrived

/-! ## The result -/

/-- The server has no read outstanding, and posts none however the run goes on. -/
def NoMoreReads (n : Network) (s : Sys) : Prop :=
  (s.procs .server).ctx.numOutstandingReads = 0 ∧
    ∀ tr s', Runs.Run (nextSys n) Runs.always s tr s' →
      tr = [] ∧ (s'.procs .server).ctx.numOutstandingReads = 0

/-- The FINs that have arrived at the server are counted once each: `num_fin_recvd` is the number
of the connections whose FIN is counted, now and however the run goes on, a FIN once counted stays
so, and where the server is past its wait loop every FIN that had arrived is counted. -/
def CountedOnce (n : Network) (s : Sys) : Prop :=
  ∀ tr s', Runs.Run (nextSys n) Runs.always s tr s' →
    (s'.procs .server).ctx.numFinRecvd = (counted n s' .server).card ∧
    counted n s .server ⊆ counted n s' .server ∧
    ((s'.procs .server).Past → ∀ k, s.recvd .server k ≠ .none → k ∈ counted n s' .server)

/-- **The reads come first.**  In every reachable state in which a client that has a connection has
called `rdma_disconnect` or entered `cleanup_test`, the server has no read outstanding and posts
none any more.  And in every reachable state each FIN that has arrived at the server is counted
once.

A client that is leaving has counted a FIN for each of its connections (`CountsOk`).  A FIN that is
counted was sent (`FinsOk`), and the server sends its FINs only behind `do_rdma_reads` (`ProcOk`),
which returns `0` only with nothing outstanding.  That the reads are over is then kept by every
step, since no process goes back to them. -/
theorem clientMemory_outlives_reads (n : Network) (tr : List ReadEvent) (s : Sys)
    (hrun : SysRun n tr s) :
    (∀ c, 0 < (n.ctx (.client c)).numConns → Leaving s c → NoMoreReads n s) ∧
      CountedOnce n s := by
  have h := sysOk_run hrun
  constructor
  · intro c hconns hleaving
    have hover := h.readsOver_of_leaving hleaving hconns
    refine ⟨(h.procs .server).idle rfl hover, fun tr' s' hrun' => ?_⟩
    obtain ⟨hover', htr⟩ := hover.run hrun'
    exact ⟨htr, ((h.run hrun').procs .server).idle rfl hover'⟩
  · intro tr' s' hrun'
    have h' := h.run hrun'
    have hgrows := h.recvGrows hrun'
    refine ⟨h'.counts .server, fun k hk => ?_, fun hpast k hk => ?_⟩
    · obtain ⟨hlt, hcounted⟩ := mem_counted.mp hk
      exact mem_counted.mpr ⟨hlt, hgrows.counted _ _ hcounted⟩
    · exact h'.server_counted hpast (h.fins.bound _ _ hk)

/-- The client has counted the server's FIN and disconnects, after the server's only read. -/
theorem clientMemory_outlives_reads_oneClient : ∃ tr s, SysRun oneClient tr s ∧
    s.torn (.client 0) 0 = true ∧ NoMoreReads oneClient s ∧ CountedOnce oneClient s := by
  obtain ⟨tr, s, hrun, htorn⟩ := Runs.Run.exists_of_play (nextSys oneClient)
    (Sys.start oneClient)
    (upToServerFin ++ [.deliver 0 0 false, .finTest (.client 0), .pollFin (.client 0) 0,
      .finTest (.client 0), .rdmaDisconnect (.client 0)])
    (fun r => r.1.torn (.client 0) 0) (by decide +kernel)
  obtain ⟨hreads, hfins⟩ := clientMemory_outlives_reads oneClient tr s hrun
  exact ⟨tr, s, hrun, htorn, hreads 0 (by decide) (Or.inl ⟨0, htorn⟩), hfins⟩

/-- A second client, which has no connection. -/
def withIdleClient : Network := { oneClient with numClients := 2 }

/-- The process is in `cleanup_test`. -/
def Proc.isCleanup : Proc → Bool
  | .cleanup _ => true
  | _ => false

/-- A client without connections waits for nothing: it is in `cleanup_test` while the server has a
read outstanding. -/
theorem idleClient_leaves : ∃ tr s, SysRun withIdleClient tr s ∧ Leaving s 1 ∧
    (s.procs .server).ctx.numOutstandingReads = 1 ∧
    (s.procs .server).ctx.numConns = 1 ∧ ¬ NoMoreReads withIdleClient s := by
  obtain ⟨tr, s, hrun, htest⟩ := Runs.Run.exists_of_play (nextSys withIdleClient)
    (Sys.start withIdleClient)
    [.start .server, .reads .tick, .reads .tick, .reads (.post 0), .start (.client 1),
      .sendFin (.client 1) 0, .finTest (.client 1), .rdmaDisconnect (.client 1),
      .discTest (.client 1)]
    (fun r => (r.1.procs .server).ctx.numOutstandingReads == 1 &&
      (r.1.procs .server).ctx.numConns == 1 &&
      (r.1.procs (.client 1)).isCleanup) (by decide +kernel)
  simp only [Bool.and_eq_true, beq_iff_eq] at htest
  obtain ⟨⟨hreads, hconns⟩, hcleanup⟩ := htest
  have hleaving : Leaving s 1 := by
    cases hp : s.procs (.client 1) <;> simp [Proc.isCleanup, hp] at hcleanup
    exact Or.inr ⟨_, hp⟩
  exact ⟨tr, s, hrun, hleaving, hreads, hconns, fun h => by simp [h.1] at hreads⟩

end RdmaFc
