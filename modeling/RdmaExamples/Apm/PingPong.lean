import RdmaExamples.Apm.Program
import RdmaExamples.Library.Systems

/-!
# The messages of apm

Client and server send each other one message after the other, over queues of depth one.  Each posts
its first receive before the connection, and every further one when a message has come in, before it
sends again.  So there is at most one message under way, and it finds a receive
(`pingPong_safe`): what each side has done so far is read off its program (`LoopTally`), what lies
between them from the wire (`WireOk`), and the rest is counting.

* `sideProgram` — what a side does from its first receive on: connect or accept, and the loop.
* `LoopTally`, `SideTally` — how the counts of its calls are related, wherever it stands.
* `WireOk` — what the wire holds, in terms of these counts; every call and every move of a device
  keeps it.
* `PingPongOk` — at most one receive is posted on a side and one message under way, which finds a
  receive; where both sides wait for a message, one is on its way; and at the end the counters are
  what was asked for.

What a side does is not written a second time: `sideProgram` is made of the functions of the
program.
-/

namespace Apm

open Programs Systems

/-! ## What a side has done

The calls of a side are counted by their kind.  Nothing else about them matters for what is on the
wire. -/

/-- The calls that concern the messages and the connection. -/
inductive Kind
  | postSend
  | sendComp
  | postRecv
  | recvComp
  | accept
  | connect
  deriving DecidableEq

/-- The kind of a call. -/
def kindOf : Call → Option Kind
  | .postSend _ => some .postSend
  | .getSendComp => some .sendComp
  | .postRecv _ => some .postRecv
  | .getRecvComp => some .recvComp
  | .accept _ => some .accept
  | .connect _ => some .connect
  | _ => none

/-- How often a run has made calls of a kind. -/
def tally (kind : Kind) (t : Trace) : ℕ := t.countP fun e => decide (kindOf e.1 = some kind)

section Tallies

variable {kind : Kind} {t t' : Trace} {ctx ctx' : Context} {counts counts' : Counts} {ret : Int}
  {flow : Flow} {turn : Bool} {i : Int} {n : ℕ} {m : ApmM (Flow × Counts)}
  {f : Counts → ApmM (Flow × Counts)}

@[simp] lemma tally_nil : tally kind [] = 0 := rfl

@[simp] lemma tally_cons {e : Event Call Reply} :
    tally kind (e :: t) = tally kind t + if kindOf e.1 = some kind then 1 else 0 := by
  simp [tally, List.countP_cons]

@[simp] lemma tally_append : tally kind (t ++ t') = tally kind t + tally kind t' :=
  List.countP_append

/-- A part of the program without such calls. -/
lemma tally_of_keeps {α : Type} {m : ApmM α} (hm : Keeps (fun _ => ()) (fun c => kindOf c = none) m)
    (h : CanDo (m.run ctx) t) : tally kind t = 0 := by
  refine List.countP_eq_zero.mpr fun e he => ?_
  rw [hm.calls _ _ h e he]
  simp

lemma loadAltPath_quiet : Keeps (fun _ => ()) (fun c => kindOf c = none) loadAltPath := by
  refine Keeps.bind (Keeps.perform rfl) fun reply => ?_
  cases reply with
  | error e => exact Keeps.pure _
  | ok qpAttr => exact Keeps.bind Keeps.get fun ctx => Keeps.perform rfl

/-! ### The parts of a round -/

/-- The beginnings of one part after the other. -/
lemma canDo_andThen (h : CanDo ((andThen m f).run ctx) t) :
    CanDo (m.run ctx) t ∨ ∃ t₁ t₂ counts ctx', t = t₁ ++ t₂ ∧
      Returns (m.run ctx) t₁ ((.next, counts), ctx') ∧ CanDo ((f counts).run ctx') t₂ := by
  rw [andThen] at h
  rcases canDo_run_bind.mp h with h | ⟨t₁, t₂, ⟨flow, counts⟩, ctx', rfl, h₁, h₂⟩
  · exact Or.inl h
  · dsimp only at h₂
    split at h₂
    · rename_i hflow
      rw [hflow] at h₁
      exact Or.inr ⟨t₁, t₂, counts, ctx', rfl, h₁, h₂⟩
    · rw [canDo_run_pure.mp h₂, List.append_nil]
      exact Or.inl h₁.canDo

/-- The complete runs of one part after the other. -/
lemma returns_andThen (h : Returns ((andThen m f).run ctx) t ((flow, counts'), ctx')) :
    (flow ≠ .next ∧ Returns (m.run ctx) t ((flow, counts'), ctx')) ∨
    ∃ t₁ t₂ counts ctx₁, t = t₁ ++ t₂ ∧ Returns (m.run ctx) t₁ ((.next, counts), ctx₁) ∧
      Returns ((f counts).run ctx₁) t₂ ((flow, counts'), ctx') := by
  rw [andThen] at h
  obtain ⟨t₁, t₂, ⟨flow₁, counts₁⟩, ctx₁, rfl, h₁, h₂⟩ := returns_run_bind.mp h
  dsimp only at h₂
  split at h₂
  · rename_i hflow
    rw [hflow] at h₁
    exact Or.inr ⟨t₁, t₂, counts₁, ctx₁, rfl, h₁, h₂⟩
  · rename_i hflow
    obtain ⟨rfl, heq, rfl⟩ := returns_run_pure.mp h₂
    obtain ⟨rfl, rfl⟩ := Prod.mk.inj heq
    rw [List.append_nil]
    exact Or.inl ⟨hflow, h₁⟩

/-- The beginnings of `recv_msg`. -/
lemma recvMsg_canDo (h : CanDo (recvMsg.run ctx) t) :
    t = [] ∨ (∃ r, t = [⟨.getRecvComp, r⟩]) ∨
      ∃ r length r', t = [⟨.getRecvComp, r⟩, ⟨.postRecv length, r'⟩] := by
  rw [recvMsg, run_get_bind] at h
  rcases canDo_run_perform_bind.mp h with rfl | ⟨r, t₁, rfl, h₁⟩
  · exact Or.inl rfl
  · right
    split at h₁
    · rw [canDo_run_pure.mp h₁]
      exact Or.inl ⟨r, rfl⟩
    · rcases canDo_run_perform_bind.mp h₁ with rfl | ⟨r', t₂, rfl, h₂⟩
      · exact Or.inl ⟨r, rfl⟩
      · right
        have hnone : t₂ = [] := by
          split at h₂
          · exact canDo_run_pure.mp h₂
          · exact canDo_run_pure.mp h₂
        exact ⟨r, _, r', by rw [hnone]⟩

/-- A message that is received. -/
lemma recvMsg_returns (h : Returns (recvMsg.run ctx) t (ret, ctx')) (hret : ret = 0) :
    ∃ r length r', t = [⟨.getRecvComp, r⟩, ⟨.postRecv length, r'⟩] := by
  rw [recvMsg, run_get_bind] at h
  obtain ⟨r, t₁, rfl, h₁⟩ := returns_run_perform_bind.mp h
  split at h₁
  · rename_i hneg
    obtain ⟨-, rfl, -⟩ := returns_run_pure.mp h₁
    rw [hret] at hneg
    exact absurd hneg (by decide)
  · obtain ⟨r', t₂, rfl, h₂⟩ := returns_run_perform_bind.mp h₁
    split at h₂
    · rename_i hne
      obtain ⟨-, rfl, -⟩ := returns_run_pure.mp h₂
      exact absurd hret hne
    · obtain ⟨rfl, -, -⟩ := returns_run_pure.mp h₂
      exact ⟨r, _, r', rfl⟩

/-- The beginnings of `send_msg`. -/
lemma sendMsg_canDo (h : CanDo (sendMsg.run ctx) t) :
    t = [] ∨ (∃ length r, t = [⟨.postSend length, r⟩]) ∨
      ∃ length r r', t = [⟨.postSend length, r⟩, ⟨.getSendComp, r'⟩] := by
  rw [sendMsg, run_get_bind] at h
  rcases canDo_run_perform_bind.mp h with rfl | ⟨r, t₁, rfl, h₁⟩
  · exact Or.inl rfl
  · right
    split at h₁
    · rw [canDo_run_pure.mp h₁]
      exact Or.inl ⟨_, r, rfl⟩
    · rcases canDo_run_perform_bind.mp h₁ with rfl | ⟨r', t₂, rfl, h₂⟩
      · exact Or.inl ⟨_, r, rfl⟩
      · right
        have hnone : t₂ = [] := by
          split at h₂
          · exact canDo_run_pure.mp h₂
          · exact canDo_run_pure.mp h₂
        exact ⟨_, r, r', by rw [hnone]⟩

/-- A message that is sent. -/
lemma sendMsg_returns (h : Returns (sendMsg.run ctx) t (ret, ctx')) (hret : ret = 0) :
    ∃ length r r', t = [⟨.postSend length, r⟩, ⟨.getSendComp, r'⟩] := by
  rw [sendMsg, run_get_bind] at h
  obtain ⟨r, t₁, rfl, h₁⟩ := returns_run_perform_bind.mp h
  split at h₁
  · rename_i hne
    obtain ⟨-, rfl, -⟩ := returns_run_pure.mp h₁
    exact absurd hret hne
  · obtain ⟨r', t₂, rfl, h₂⟩ := returns_run_perform_bind.mp h₁
    split at h₂
    · rename_i hneg
      obtain ⟨-, rfl, -⟩ := returns_run_pure.mp h₂
      rw [hret] at hneg
      exact absurd hneg (by decide)
    · obtain ⟨rfl, -, -⟩ := returns_run_pure.mp h₂
      exact ⟨_, r, r', rfl⟩

/-! ### Whole rounds -/

/-- The tallies of a run without calls that connect. -/
structure Tallies (t : Trace) (ps sc pr rc : ℕ) : Prop where
  postSend : tally .postSend t = ps
  sendComp : tally .sendComp t = sc
  postRecv : tally .postRecv t = pr
  recvComp : tally .recvComp t = rc
  accept : tally .accept t = 0
  connect : tally .connect t = 0

lemma Tallies.append {ps sc pr rc ps' sc' pr' rc' : ℕ} (h : Tallies t ps sc pr rc)
    (h' : Tallies t' ps' sc' pr' rc') :
    Tallies (t ++ t') (ps + ps') (sc + sc') (pr + pr') (rc + rc') where
  postSend := by rw [tally_append, h.postSend, h'.postSend]
  sendComp := by rw [tally_append, h.sendComp, h'.sendComp]
  postRecv := by rw [tally_append, h.postRecv, h'.postRecv]
  recvComp := by rw [tally_append, h.recvComp, h'.recvComp]
  accept := by rw [tally_append, h.accept, h'.accept]
  connect := by rw [tally_append, h.connect, h'.connect]

lemma tallies_of_quiet (h : ∀ kind, tally kind t = 0) : Tallies t 0 0 0 0 :=
  ⟨h _, h _, h _, h _, h _, h _⟩

lemma recvPart_canDo (h : CanDo ((recvPart turn counts).run ctx) t) :
    ∃ pr rc, Tallies t 0 0 pr rc ∧ pr ≤ rc ∧ rc ≤ turn.toNat := by
  rw [recvPart] at h
  split at h
  · rw [canDo_run_pure.mp h]
    exact ⟨0, 0, tallies_of_quiet fun _ => rfl, le_rfl, Nat.zero_le _⟩
  · rename_i hturn
    rw [Bool.not_eq_false] at hturn
    subst hturn
    have hrecv : CanDo (recvMsg.run ctx) t := by
      rcases canDo_run_bind.mp h with h | ⟨t₁, t₂, ret, ctx', rfl, h₁, h₂⟩
      · exact h
      · have hnone : t₂ = [] := by
          split at h₂
          · exact canDo_run_pure.mp h₂
          · exact canDo_run_pure.mp h₂
        rw [hnone, List.append_nil]
        exact h₁.canDo
    rcases recvMsg_canDo hrecv with rfl | ⟨r, rfl⟩ | ⟨r, length, r', rfl⟩
    · exact ⟨0, 0, tallies_of_quiet fun _ => rfl, le_rfl, Nat.zero_le _⟩
    · exact ⟨0, 1, ⟨rfl, rfl, rfl, rfl, rfl, rfl⟩, Nat.zero_le _, le_rfl⟩
    · exact ⟨1, 1, ⟨rfl, rfl, rfl, rfl, rfl, rfl⟩, le_rfl, le_rfl⟩

lemma recvPart_returns
    (h : Returns ((recvPart turn counts).run ctx) t ((flow, counts'), ctx'))
    (hflow : flow = .next) :
    Tallies t 0 0 turn.toNat turn.toNat ∧
      counts' = { counts with recvCnt := counts.recvCnt + turn.toNat } := by
  rw [recvPart] at h
  split at h
  · rename_i hturn
    obtain ⟨rfl, heq, -⟩ := returns_run_pure.mp h
    obtain ⟨-, rfl⟩ := Prod.mk.inj heq
    subst hturn
    exact ⟨tallies_of_quiet fun _ => rfl, rfl⟩
  · rename_i hturn
    rw [Bool.not_eq_false] at hturn
    subst hturn
    obtain ⟨t₁, t₂, ret, ctx₁, rfl, h₁, h₂⟩ := returns_run_bind.mp h
    split at h₂
    · obtain ⟨-, heq, -⟩ := returns_run_pure.mp h₂
      rw [hflow] at heq
      exact absurd heq (by simp)
    · rename_i hret
      obtain ⟨rfl, heq, -⟩ := returns_run_pure.mp h₂
      obtain ⟨-, rfl⟩ := Prod.mk.inj heq
      obtain ⟨r, length, r', rfl⟩ := recvMsg_returns h₁ (not_not.mp hret)
      exact ⟨⟨rfl, rfl, rfl, rfl, rfl, rfl⟩, rfl⟩

lemma sendPart_canDo (h : CanDo ((sendPart counts).run ctx) t) :
    ∃ ps sc, Tallies t ps sc 0 0 ∧ sc ≤ ps ∧ ps ≤ 1 := by
  rw [sendPart] at h
  rcases canDo_run_perform_bind.mp h with rfl | ⟨u, t', rfl, h'⟩
  · exact ⟨0, 0, tallies_of_quiet fun _ => rfl, le_rfl, Nat.zero_le _⟩
  · have hsend : CanDo (sendMsg.run ctx) t' := by
      rcases canDo_run_bind.mp h' with h' | ⟨t₁, t₂, ret, ctx', rfl, h₁, h₂⟩
      · exact h'
      · have hnone : t₂ = [] := by
          split at h₂
          · exact canDo_run_pure.mp h₂
          · exact canDo_run_pure.mp h₂
        rw [hnone, List.append_nil]
        exact h₁.canDo
    rcases sendMsg_canDo hsend with rfl | ⟨length, r, rfl⟩ | ⟨length, r, r', rfl⟩
    · exact ⟨0, 0, tallies_of_quiet fun kind => by simp [kindOf], le_rfl, Nat.zero_le _⟩
    · exact ⟨1, 0, ⟨rfl, rfl, rfl, rfl, rfl, rfl⟩, Nat.zero_le _, le_rfl⟩
    · exact ⟨1, 1, ⟨rfl, rfl, rfl, rfl, rfl, rfl⟩, le_rfl, le_rfl⟩

lemma sendPart_returns
    (h : Returns ((sendPart counts).run ctx) t ((flow, counts'), ctx')) (hflow : flow = .next) :
    Tallies t 1 1 0 0 ∧ counts' = { counts with sendCnt := counts.sendCnt + 1 } := by
  obtain ⟨u, t', rfl, h'⟩ := returns_run_perform_bind.mp h
  obtain ⟨t₁, t₂, ret, ctx₁, rfl, h₁, h₂⟩ := returns_run_bind.mp h'
  split at h₂
  · obtain ⟨-, heq, -⟩ := returns_run_pure.mp h₂
    rw [hflow] at heq
    exact absurd heq (by simp)
  · rename_i hret
    obtain ⟨rfl, heq, -⟩ := returns_run_pure.mp h₂
    obtain ⟨-, rfl⟩ := Prod.mk.inj heq
    obtain ⟨length, r, r', rfl⟩ := sendMsg_returns h₁ (not_not.mp hret)
    exact ⟨⟨rfl, rfl, rfl, rfl, rfl, rfl⟩, rfl⟩

lemma migratePart_quiet (ctx : Context) :
    Keeps (fun _ => ()) (fun c => kindOf c = none) (migratePart ctx i counts) := by
  refine Keeps.ite (Keeps.pure _) (Keeps.bind (Keeps.perform rfl) fun ret => ?_)
  exact Keeps.ite (Keeps.pure _) (Keeps.pure _)

lemma migratePart_returns {c : Context}
    (h : Returns ((migratePart c i counts).run ctx) t ((flow, counts'), ctx')) :
    counts' = counts := by
  rw [migratePart] at h
  split at h
  · obtain ⟨-, heq, -⟩ := returns_run_pure.mp h
    exact (Prod.mk.inj heq).2.symm
  · obtain ⟨r, t', rfl, h'⟩ := returns_run_perform_bind.mp h
    split at h'
    · obtain ⟨-, heq, -⟩ := returns_run_pure.mp h'
      exact (Prod.mk.inj heq).2.symm
    · obtain ⟨-, heq, -⟩ := returns_run_pure.mp h'
      exact (Prod.mk.inj heq).2.symm

/-- How far a side is in the message loop.  The server receives first, so its sends follow its
receives; the client sends first, and it receives only behind a send that has completed.  In both
cases the four numbers are within one of each other, so that one posted receive at a time is
enough. -/
def LoopTally (server : Bool) (ps sc pr rc : ℕ) : Prop :=
  if server = true then pr ≤ rc ∧ ps ≤ pr ∧ sc ≤ ps ∧ rc ≤ sc + 1
  else sc ≤ ps ∧ rc ≤ sc ∧ pr ≤ rc ∧ ps ≤ pr + 1

/-- **One round**, as far as it goes. -/
theorem messageRound_canDo {c : Context} (h : CanDo ((messageRound c i counts).run ctx) t) :
    ∃ ps sc pr rc, Tallies t ps sc pr rc ∧ LoopTally c.server ps sc pr rc := by
  rcases canDo_andThen h with h | ⟨t₁, t₂, counts₁, ctx₁, rfl, h₁, h₂⟩
  · obtain ⟨pr, rc, htallies, hpr, hrc⟩ := recvPart_canDo h
    refine ⟨0, 0, pr, rc, htallies, ?_⟩
    cases hserver : c.server <;> simp [LoopTally, hserver] at hrc ⊢ <;> omega
  obtain ⟨ht₁, -⟩ := recvPart_returns h₁ rfl
  rcases canDo_andThen h₂ with h₂ | ⟨t₂, t₃, counts₂, ctx₂, rfl, h₂, h₃⟩
  · obtain ⟨ps, sc, htallies, hsc, hps⟩ := sendPart_canDo h₂
    refine ⟨_, _, _, _, ht₁.append htallies, ?_⟩
    cases hserver : c.server <;> simp [LoopTally] <;> omega
  obtain ⟨ht₂, -⟩ := sendPart_returns h₂ rfl
  rcases canDo_andThen h₃ with h₃ | ⟨t₃, t₄, counts₃, ctx₃, rfl, h₃, h₄⟩
  · obtain ⟨pr, rc, htallies, hpr, hrc⟩ := recvPart_canDo h₃
    refine ⟨_, _, _, _, ht₁.append (ht₂.append htallies), ?_⟩
    cases hserver : c.server <;> simp [LoopTally, hserver] at hrc ⊢ <;> omega
  obtain ⟨ht₃, -⟩ := recvPart_returns h₃ rfl
  have ht₄ := tallies_of_quiet fun _ => tally_of_keeps (migratePart_quiet c) h₄
  refine ⟨_, _, _, _, ht₁.append (ht₂.append (ht₃.append ht₄)), ?_⟩
  cases hserver : c.server <;> simp [LoopTally]

/-- **One round**, when it is over. -/
theorem messageRound_returns {c : Context}
    (h : Returns ((messageRound c i counts).run ctx) t ((flow, counts'), ctx'))
    (hflow : flow = .next) :
    Tallies t 1 1 1 1 ∧ counts' = ⟨counts.sendCnt + 1, counts.recvCnt + 1⟩ := by
  rcases returns_andThen h with ⟨hne, -⟩ | ⟨t₁, t, counts₁, ctx₁, rfl, h₁, h⟩
  · exact absurd hflow hne
  rcases returns_andThen h with ⟨hne, -⟩ | ⟨t₂, t, counts₂, ctx₂, rfl, h₂, h⟩
  · exact absurd hflow hne
  rcases returns_andThen h with ⟨hne, -⟩ | ⟨t₃, t₄, counts₃, ctx₃, rfl, h₃, h₄⟩
  · exact absurd hflow hne
  obtain ⟨ht₁, rfl⟩ := recvPart_returns h₁ rfl
  obtain ⟨ht₂, rfl⟩ := sendPart_returns h₂ rfl
  obtain ⟨ht₃, rfl⟩ := recvPart_returns h₃ rfl
  obtain rfl := migratePart_returns h₄
  have ht₄ :=
    tallies_of_quiet fun _ => tally_of_keeps (migratePart_quiet c) h₄.canDo
  have htallies := ht₁.append (ht₂.append (ht₃.append ht₄))
  cases hserver : c.server <;> simp [hserver] at htallies ⊢ <;> exact htallies

lemma LoopTally.succ {server : Bool} {ps sc pr rc : ℕ} (h : LoopTally server ps sc pr rc) :
    LoopTally server (1 + ps) (1 + sc) (1 + pr) (1 + rc) := by
  cases server <;> simp [LoopTally] at h ⊢ <;> omega

/-- **The message loop**, as far as it goes.  All rounds before the one that is under way are
complete, and add one to each of the four counts, which keeps `LoopTally` (`LoopTally.succ`). -/
theorem messageLoop_canDo {c : Context} : ∀ {n : ℕ} {i : Int} {counts : Counts} {ctx : Context}
    {t : Trace}, CanDo ((messageLoop c n i counts).run ctx) t →
    ∃ ps sc pr rc, Tallies t ps sc pr rc ∧ LoopTally c.server ps sc pr rc
  | 0, i, counts, ctx, t, h => by
      rw [canDo_run_pure.mp h]
      refine ⟨0, 0, 0, 0, tallies_of_quiet fun _ => rfl, ?_⟩
      cases c.server <;> simp [LoopTally]
  | n + 1, i, counts, ctx, t, h => by
      rcases canDo_andThen h with h | ⟨t₁, t₂, counts₁, ctx₁, rfl, h₁, h₂⟩
      · exact messageRound_canDo h
      · obtain ⟨ht₁, -⟩ := messageRound_returns h₁ rfl
        obtain ⟨ps, sc, pr, rc, ht₂, hloop⟩ := messageLoop_canDo h₂
        exact ⟨_, _, _, _, ht₁.append ht₂, hloop.succ⟩

/-- **The counters** of a message loop that has gone through. -/
theorem messageLoop_returns {c : Context} : ∀ {n : ℕ} {i : Int} {counts : Counts} {ctx : Context}
    {t : Trace}, Returns ((messageLoop c n i counts).run ctx) t ((flow, counts'), ctx') →
    flow = .next → counts' = ⟨counts.sendCnt + n, counts.recvCnt + n⟩
  | 0, i, counts, ctx, t, h, _ => by
      obtain ⟨-, heq, -⟩ := returns_run_pure.mp h
      exact (Prod.mk.inj heq).2.symm
  | n + 1, i, counts, ctx, t, h, hflow => by
      rcases returns_andThen h with ⟨hne, -⟩ | ⟨t₁, t₂, counts₁, ctx₁, rfl, h₁, h₂⟩
      · exact absurd hflow hne
      · obtain ⟨-, rfl⟩ := messageRound_returns h₁ rfl
        rw [messageLoop_returns h₂ hflow, Counts.mk.injEq]
        exact ⟨by dsimp only; omega, by dsimp only; omega⟩

end Tallies

/-! ## A side, where no verb fails -/

/-- No verb fails. -/
def succeeds : Event Call Reply → Bool
  | ⟨.queryQp, reply⟩ => reply.isOk
  | ⟨.postRecv _, ret⟩ => decide (ret = 0)
  | ⟨.accept _, ret⟩ => decide (ret = 0)
  | ⟨.connect _, .ok event⟩ =>
      decide (event.event = .established ∧ 4 ≤ event.privateData.length)
  | ⟨.connect _, .error _⟩ => false
  | ⟨.loadPath _, ret⟩ => decide (ret = 0)
  | ⟨.migrate, ret⟩ => decide (ret = 0)
  | ⟨.postSend _, ret⟩ => decide (ret = 0)
  | ⟨.getSendComp, comp⟩ => decide (comp = ⟨1, true⟩)
  | ⟨.getRecvComp, comp⟩ => decide (comp = ⟨1, true⟩)
  | _ => true

/-- The program of a side, from `establish_connection` to the end of the message loop. -/
def sideProgram : ApmM (Flow × Counts) := do
  let _ ← establishConnection
  transfer

/-- How far a side is. -/
def SideTally (server : Bool) (t : Trace) : Prop :=
  if server = true then
    tally .sendComp t ≤ tally .postSend t ∧ tally .recvComp t ≤ tally .sendComp t + 1 ∧
    tally .postRecv t ≤ tally .recvComp t + 1 ∧
    (tally .postSend t = 0 ∨ tally .postSend t + 1 ≤ tally .postRecv t) ∧
    (0 < tally .accept t → 0 < tally .postRecv t)
  else
    tally .sendComp t ≤ tally .postSend t ∧ tally .recvComp t ≤ tally .sendComp t ∧
    tally .postRecv t ≤ tally .recvComp t + 1 ∧ tally .postSend t ≤ tally .postRecv t ∧
    (0 < tally .postSend t → 0 < tally .connect t)

section Sides

variable {t : Trace} {ctx ctx' : Context} {counts counts' : Counts} {ret : Int} {flow : Flow}
  {turn : Bool} {i : Int} {n : ℕ} {m : ApmM (Flow × Counts)} {f : Counts → ApmM (Flow × Counts)}

/-! ### The loop goes on -/

lemma recvMsg_succeeds (hok : ∀ e ∈ t, succeeds e = true)
    (h : Returns (recvMsg.run ctx) t (ret, ctx')) : ret = 0 := by
  rw [recvMsg, run_get_bind] at h
  obtain ⟨r, t₁, rfl, h₁⟩ := returns_run_perform_bind.mp h
  have hr := of_decide_eq_true (hok _ (List.mem_cons_self ..))
  rw [hr, if_neg (by decide)] at h₁
  obtain ⟨r', t₂, rfl, h₂⟩ := returns_run_perform_bind.mp h₁
  have hhead := hok ⟨.postRecv ctx.msgLength, r'⟩ (by simp)
  rw [if_neg (not_not.mpr (of_decide_eq_true hhead))] at h₂
  exact (returns_run_pure.mp h₂).2.1.symm

lemma sendMsg_succeeds (hok : ∀ e ∈ t, succeeds e = true)
    (h : Returns (sendMsg.run ctx) t (ret, ctx')) : ret = 0 := by
  rw [sendMsg, run_get_bind] at h
  obtain ⟨r, t₁, rfl, h₁⟩ := returns_run_perform_bind.mp h
  have hr := of_decide_eq_true (hok _ (List.mem_cons_self ..))
  rw [if_neg (not_not.mpr hr)] at h₁
  obtain ⟨r', t₂, rfl, h₂⟩ := returns_run_perform_bind.mp h₁
  have hhead := hok ⟨.getSendComp, r'⟩ (by simp)
  have hr' := of_decide_eq_true hhead
  rw [hr', if_neg (by decide)] at h₂
  exact (returns_run_pure.mp h₂).2.1.symm

lemma recvPart_succeeds (hok : ∀ e ∈ t, succeeds e = true)
    (h : Returns ((recvPart turn counts).run ctx) t ((flow, counts'), ctx')) : flow = .next := by
  rw [recvPart] at h
  split at h
  · exact (Prod.mk.inj (returns_run_pure.mp h).2.1).1.symm
  · obtain ⟨t₁, t₂, ret, ctx₁, rfl, h₁, h₂⟩ := returns_run_bind.mp h
    have hret := recvMsg_succeeds (fun e he => hok e (by simp [he])) h₁
    rw [if_neg (not_not.mpr hret)] at h₂
    exact (Prod.mk.inj (returns_run_pure.mp h₂).2.1).1.symm

lemma sendPart_succeeds (hok : ∀ e ∈ t, succeeds e = true)
    (h : Returns ((sendPart counts).run ctx) t ((flow, counts'), ctx')) : flow = .next := by
  obtain ⟨u, t', rfl, h'⟩ := returns_run_perform_bind.mp h
  obtain ⟨t₁, t₂, ret, ctx₁, rfl, h₁, h₂⟩ := returns_run_bind.mp h'
  have hret := sendMsg_succeeds (fun e he => hok e (by simp [he])) h₁
  rw [if_neg (not_not.mpr hret)] at h₂
  exact (Prod.mk.inj (returns_run_pure.mp h₂).2.1).1.symm

lemma migratePart_succeeds {c : Context} (hok : ∀ e ∈ t, succeeds e = true)
    (h : Returns ((migratePart c i counts).run ctx) t ((flow, counts'), ctx')) :
    flow = .next := by
  rw [migratePart] at h
  split at h
  · exact (Prod.mk.inj (returns_run_pure.mp h).2.1).1.symm
  · obtain ⟨r, t', rfl, h'⟩ := returns_run_perform_bind.mp h
    have hr := of_decide_eq_true (hok _ (List.mem_cons_self ..))
    rw [if_neg (not_not.mpr hr)] at h'
    exact (Prod.mk.inj (returns_run_pure.mp h').2.1).1.symm

lemma andThen_succeeds (hok : ∀ e ∈ t, succeeds e = true)
    (hm : ∀ {t flow counts' ctx'}, (∀ e ∈ t, succeeds e = true) →
      Returns (m.run ctx) t ((flow, counts'), ctx') → flow = .next)
    (hf : ∀ {counts ctx t flow counts' ctx'}, (∀ e ∈ t, succeeds e = true) →
      Returns ((f counts).run ctx) t ((flow, counts'), ctx') → flow = .next)
    (h : Returns ((andThen m f).run ctx) t ((flow, counts'), ctx')) : flow = .next := by
  rcases returns_andThen h with ⟨hne, h⟩ | ⟨t₁, t₂, counts₁, ctx₁, rfl, -, h₂⟩
  · exact absurd (hm hok h) hne
  · exact hf (fun e he => hok e (by simp [he])) h₂

lemma messageRound_succeeds {c : Context} (hok : ∀ e ∈ t, succeeds e = true)
    (h : Returns ((messageRound c i counts).run ctx) t ((flow, counts'), ctx')) : flow = .next :=
  andThen_succeeds hok recvPart_succeeds (fun hok h =>
    andThen_succeeds hok sendPart_succeeds (fun hok h =>
      andThen_succeeds hok recvPart_succeeds migratePart_succeeds h) h) h

lemma messageLoop_succeeds {c : Context} : ∀ {n : ℕ} {i : Int} {counts : Counts} {ctx : Context}
    {t : Trace} {flow : Flow} {counts' : Counts} {ctx' : Context}, (∀ e ∈ t, succeeds e = true) →
    Returns ((messageLoop c n i counts).run ctx) t ((flow, counts'), ctx') → flow = .next
  | 0, _, _, _, _, _, _, _, _, h => (Prod.mk.inj (returns_run_pure.mp h).2.1).1.symm
  | _ + 1, _, _, _, _, _, _, _, hok, h =>
      andThen_succeeds hok messageRound_succeeds messageLoop_succeeds h

/-! ### From the connection on -/

/-- What `load_alt_path` and `establish_connection` leave alone. -/
def Context.loopData (ctx : Context) : Bool × Int := (ctx.server, ctx.msgCount)

lemma loadAltPath_keeps : Keeps Context.loopData (fun _ => True) loadAltPath := by
  refine Keeps.bind (Keeps.perform trivial) fun reply => ?_
  cases reply with
  | error e => exact Keeps.pure _
  | ok qpAttr => exact Keeps.bind Keeps.get fun ctx => Keeps.perform trivial

lemma loadAltPath_succeeds (hok : ∀ e ∈ t, succeeds e = true)
    (h : Returns (loadAltPath.run ctx) t (ret, ctx')) : ret = 0 := by
  obtain ⟨reply, t', rfl, h'⟩ := returns_run_perform_bind.mp h
  cases reply with
  | error e =>
      have hhead := hok ⟨.queryQp, .error e⟩ (by simp)
      exact absurd hhead (by simp [succeeds, Except.isOk, Except.toBool])
  | ok qpAttr =>
      dsimp only at h'
      rw [run_get_bind] at h'
      obtain ⟨rfl, -⟩ := returns_run_perform.mp h'
      have hhead := hok ⟨.loadPath (altPath ctx qpAttr), ret⟩ (by simp)
      exact of_decide_eq_true hhead

lemma connectClient_keeps {privateData : List UInt8} (Q : Call → Prop)
    (hQ : Q (.connect privateData)) : Keeps Context.loopData Q (connectClient privateData) := by
  refine Keeps.bind (Keeps.perform hQ) fun reply => ?_
  cases reply with
  | error e => exact Keeps.pure _
  | ok event =>
      refine Keeps.ite (Keeps.pure _) (Keeps.bind Keeps.get fun ctx => Keeps.ite ?_ (Keeps.pure _))
      cases getAltDlidFromPrivateData event with
      | none => exact Keeps.pure _
      | some dlid => exact Keeps.bind (Keeps.modify fun _ => rfl) fun _ => Keeps.pure _

/-- `establish_connection` posts a receive, before it connects. -/
lemma establishConnection_keeps (Q : Call → Prop) (hrecv : ∀ length, Q (.postRecv length))
    (hrest : Q .uninitialised) (haccept : ∀ data, Q (.accept data))
    (hconnect : ∀ data, Q (.connect data)) : Keeps Context.loopData Q establishConnection := by
  refine Keeps.bind Keeps.get fun ctx => Keeps.bind (Keeps.perform (hrecv _)) fun ret => ?_
  refine Keeps.ite (Keeps.pure _) (Keeps.bind (Keeps.perform hrest) fun rest => ?_)
  exact Keeps.ite (Keeps.perform (haccept _)) (connectClient_keeps Q (hconnect _))

/-- The beginnings of `establish_connection`. -/
lemma establishConnection_canDo (h : CanDo (establishConnection.run ctx) t) :
    tally .postSend t = 0 ∧ tally .sendComp t = 0 ∧ tally .recvComp t = 0 ∧
      tally .postRecv t ≤ 1 ∧ (0 < tally .accept t → 0 < tally .postRecv t) := by
  have hnone : ∀ kind, kind = .postSend ∨ kind = .sendComp ∨ kind = .recvComp →
      tally kind t = 0 := by
    rintro kind hkind
    refine List.countP_eq_zero.mpr fun e he => ?_
    have hcall := (establishConnection_keeps (fun c => kindOf c ≠ some kind) (fun _ => ?_) ?_
      (fun _ => ?_) fun _ => ?_).calls _ _ h e he
    · simpa using hcall
    all_goals rcases hkind with rfl | rfl | rfl <;> simp [kindOf]
  refine ⟨hnone _ (by simp), hnone _ (by simp), hnone _ (by simp), ?_⟩
  rw [establishConnection, run_get_bind] at h
  rcases canDo_run_perform_bind.mp h with rfl | ⟨r, t₁, rfl, h₁⟩
  · exact ⟨Nat.zero_le _, id⟩
  · have hrest : tally .postRecv t₁ = 0 := by
      refine List.countP_eq_zero.mpr fun e he => ?_
      have hkeeps : Keeps Context.loopData (fun c => kindOf c ≠ some .postRecv) (do
          if r ≠ 0 then return r
          let rest ← call .uninitialised
          let privateData := htons ctx.myAltDlid ++ [rest.1, rest.2]
          if ctx.server = true then call (.accept privateData)
          else connectClient privateData) := by
        refine Keeps.ite (Keeps.pure _)
          (Keeps.bind (Keeps.perform (by simp [kindOf])) fun rest => ?_)
        exact Keeps.ite (Keeps.perform (by simp [kindOf]))
          (connectClient_keeps _ (by simp [kindOf]))
      simpa using hkeeps.calls _ _ h₁ e he
    rw [tally_cons, hrest]
    exact ⟨le_rfl, fun _ => Nat.zero_lt_one⟩

/-- A client that is past `establish_connection` is connected. -/
lemma establishConnection_connects (hserver : ctx.server = false)
    (hok : ∀ e ∈ t, succeeds e = true)
    (h : Returns (establishConnection.run ctx) t (ret, ctx')) : 0 < tally .connect t := by
  rw [establishConnection, run_get_bind] at h
  obtain ⟨r, t₁, rfl, h₁⟩ := returns_run_perform_bind.mp h
  have hr := of_decide_eq_true (hok _ (List.mem_cons_self ..))
  rw [if_neg (not_not.mpr hr)] at h₁
  obtain ⟨rest, t₂, rfl, h₂⟩ := returns_run_perform_bind.mp h₁
  dsimp only at h₂
  rw [if_neg (by rw [hserver]; decide)] at h₂
  obtain ⟨reply, t₃, rfl, -⟩ := returns_run_perform_bind.mp h₂
  simp [kindOf]

/-- Everything has a receive posted once it is past `establish_connection`. -/
lemma establishConnection_posts
    (h : Returns (establishConnection.run ctx) t (ret, ctx')) : 0 < tally .postRecv t := by
  rw [establishConnection, run_get_bind] at h
  obtain ⟨r, t₁, rfl, -⟩ := returns_run_perform_bind.mp h
  simp [kindOf]

/-- The message loop of a side, behind `load_alt_path`. -/
lemma transfer_canDo (h : CanDo (transfer.run ctx) t) :
    ∃ ps sc pr rc, Tallies t ps sc pr rc ∧ LoopTally ctx.server ps sc pr rc := by
  have hzero : LoopTally ctx.server 0 0 0 0 := by cases ctx.server <;> simp [LoopTally]
  rw [transfer] at h
  rcases canDo_run_bind.mp h with h | ⟨t₁, t₂, ret, ctx₁, rfl, h₁, h₂⟩
  · exact ⟨0, 0, 0, 0, tallies_of_quiet fun kind => tally_of_keeps loadAltPath_quiet h, hzero⟩
  · have ht₁ := tallies_of_quiet fun _ =>
      tally_of_keeps loadAltPath_quiet h₁.canDo
    have hdata := loadAltPath_keeps.state _ _ _ _ h₁
    split at h₂
    · rw [canDo_run_pure.mp h₂, List.append_nil]
      exact ⟨0, 0, 0, 0, ht₁, hzero⟩
    · rw [messages, run_get_bind] at h₂
      obtain ⟨ps, sc, pr, rc, ht₂, hloop⟩ := messageLoop_canDo h₂
      have hserver : ctx₁.server = ctx.server := (Prod.mk.inj hdata).1
      rw [hserver] at hloop
      refine ⟨_, _, _, _, ht₁.append ht₂, ?_⟩
      simpa only [Nat.zero_add] using hloop

/-- **A side**, as far as it goes. -/
theorem sideProgram_canDo (h : CanDo (sideProgram.run ctx) t) (hok : ∀ e ∈ t, succeeds e = true) :
    SideTally ctx.server t := by
  rw [sideProgram] at h
  rcases canDo_run_bind.mp h with h | ⟨t₁, t₂, ret, ctx₁, rfl, h₁, h₂⟩
  · obtain ⟨hps, hsc, hrc, hpr, haccept⟩ := establishConnection_canDo h
    cases ctx.server <;> simp [SideTally] <;> omega
  · obtain ⟨hps, hsc, hrc, hpr, haccept⟩ := establishConnection_canDo h₁.canDo
    have hposts := establishConnection_posts h₁
    have hdata := (establishConnection_keeps (fun _ => True) (fun _ => trivial) trivial
      (fun _ => trivial) fun _ => trivial).state _ _ _ _ h₁
    have hserver : ctx₁.server = ctx.server := (Prod.mk.inj hdata).1
    obtain ⟨ps, sc, pr, rc, htallies, hloop⟩ := transfer_canDo h₂
    rw [hserver] at hloop
    have hconnect : ctx.server = false → 0 < tally .connect t₁ := fun hclient =>
      establishConnection_connects hclient (fun e he => hok e (by simp [he])) h₁
    have h₃ := htallies.postSend
    have h₄ := htallies.sendComp
    have h₅ := htallies.postRecv
    have h₆ := htallies.recvComp
    have h₇ := htallies.accept
    cases hrole : ctx.server <;> simp [SideTally, LoopTally, hrole] at hloop hconnect ⊢ <;> omega

/-- **The counters of a side** that has come to the end of its loop. -/
theorem sideProgram_returns (hok : ∀ e ∈ t, succeeds e = true)
    (h : Returns (sideProgram.run ctx) t ((flow, counts), ctx')) :
    flow = .next ∧ counts = ⟨ctx.msgCount.toNat, ctx.msgCount.toNat⟩ := by
  obtain ⟨t₁, t₂, ret, ctx₁, rfl, h₁, h₂⟩ := returns_run_bind.mp h
  have hdata₁ := (establishConnection_keeps (fun _ => True) (fun _ => trivial) trivial
    (fun _ => trivial) fun _ => trivial).state _ _ _ _ h₁
  obtain ⟨t₃, t₄, ret₂, ctx₂, rfl, h₃, h₄⟩ := returns_run_bind.mp h₂
  have hdata₂ := loadAltPath_keeps.state _ _ _ _ h₃
  have hret := loadAltPath_succeeds (fun e he => hok e (by simp [he])) h₃
  rw [if_neg (not_not.mpr hret), messages, run_get_bind] at h₄
  have hflow := messageLoop_succeeds (fun e he => hok e (by simp [he])) h₄
  have hcounts := messageLoop_returns h₄ hflow
  have hcount : ctx₂.msgCount = ctx.msgCount := (Prod.mk.inj (hdata₂.trans hdata₁)).2
  rw [hcount] at hcounts
  refine ⟨hflow, ?_⟩
  rw [hcounts]
  simp only [Nat.zero_add]

end Sides

/-! ## Between the two

The wire has a place for each thing that is under way: receives that are posted, messages in
flight, and completions that nobody has taken yet. -/

/-- The two sides. -/
inductive Role
  | client
  | server
  deriving DecidableEq

/-- The other one. -/
def Role.other : Role → Role
  | .client => .server
  | .server => .client

/-- What the devices do by themselves: they bring a message to a side, and report to a side that the
message it sent has arrived. -/
inductive Move
  | deliver (role : Role)
  | complete (role : Role)
  deriving DecidableEq

/-- What lies between the two sides: the receives that are posted, the messages under way to a side,
the receive completions, the messages of a side that have arrived unreported, the send completions,
and whether the server has accepted. -/
structure Wire where
  posted : Role → ℕ
  inFlight : Role → ℕ
  recvCq : Role → ℕ
  unacked : Role → ℕ
  sendCq : Role → ℕ
  accepted : Bool

/-- One more. -/
def incrAt (f : Role → ℕ) (role : Role) : Role → ℕ := Function.update f role (f role + 1)

/-- One less. -/
def decrAt (f : Role → ℕ) (role : Role) : Role → ℕ := Function.update f role (f role - 1)

/-- When a call gets a reply.  `rdma_get_send_comp` and `rdma_get_recv_comp` wait for a completion,
and `rdma_connect` for the server. -/
def Wire.answer (w : Wire) (role : Role) (e : Event Call Reply) : Option Wire :=
  if succeeds e = true then
    match e.1 with
    | .postRecv _ => some { w with posted := incrAt w.posted role }
    | .postSend _ => some { w with inFlight := incrAt w.inFlight role.other }
    | .getSendComp =>
        if 0 < w.sendCq role then some { w with sendCq := decrAt w.sendCq role } else none
    | .getRecvComp =>
        if 0 < w.recvCq role then some { w with recvCq := decrAt w.recvCq role } else none
    | .accept _ => if role = .server then some { w with accepted := true } else none
    | .connect _ => if role = .client ∧ w.accepted = true then some w else none
    | _ => some w
  else none

/-- What the devices do.  A message waits until there is a receive for it. -/
def Wire.device (w : Wire) : Move → Option Wire
  | .deliver role =>
      if 0 < w.inFlight role ∧ 0 < w.posted role then
        some { w with
          inFlight := decrAt w.inFlight role
          posted := decrAt w.posted role
          recvCq := incrAt w.recvCq role
          unacked := incrAt w.unacked role.other }
      else none
  | .complete role =>
      if 0 < w.unacked role then
        some { w with
          unacked := decrAt w.unacked role
          sendCq := incrAt w.sendCq role }
      else none

/-- The wire between the two sides. -/
def wire : Medium Role Call Reply Move Wire := ⟨Wire.answer, Wire.device⟩

/-- The start: nothing is posted, nothing is under way. -/
def Wire.start : Wire := ⟨fun _ => 0, fun _ => 0, fun _ => 0, fun _ => 0, fun _ => 0, false⟩

/-- The programs of the two sides. -/
def sides (ctx : Role → Context) (role : Role) : Prog Call Reply ((Flow × Counts) × Context) :=
  sideProgram.run (ctx role)

/-- What the two sides show. -/
abbrev WireTrace := List (Label Role Call Reply Move)

/-- The wire holds what has been put on it and not taken off.  Each clause balances one place of
the wire: what has been put there by a call or a move is what is there still together with what was
taken away.  Nothing is lost, and nothing arrives twice. -/
structure WireOk (tr : WireTrace) (w : Wire) : Prop where
  succeeds : ∀ role, ∀ e ∈ traceOf role tr, succeeds e = true
  posted : ∀ role, w.posted role + moves (.deliver role) tr = tally .postRecv (traceOf role tr)
  inFlight : ∀ role,
    w.inFlight role + moves (.deliver role) tr = tally .postSend (traceOf role.other tr)
  recvCq : ∀ role, w.recvCq role + tally .recvComp (traceOf role tr) = moves (.deliver role) tr
  unacked : ∀ role, w.unacked role + moves (.complete role) tr = moves (.deliver role.other) tr
  sendCq : ∀ role, w.sendCq role + tally .sendComp (traceOf role tr) = moves (.complete role) tr
  accepted : w.accepted = true → 0 < tally .accept (traceOf .server tr)
  connected : 0 < tally .connect (traceOf .client tr) → w.accepted = true

section Wire

variable {tr : WireTrace} {w w' : Wire} {role : Role} {e : Event Call Reply} {move : Move}

lemma wireOk_start : WireOk [] Wire.start where
  succeeds := by simp
  posted _ := rfl
  inFlight _ := rfl
  recvCq _ := rfl
  unacked _ := rfl
  sendCq _ := rfl
  accepted h := absurd h (by decide)
  connected h := absurd h (by decide)

@[simp] lemma other_other : role.other.other = role := by cases role <;> rfl

lemma incrAt_apply (f : Role → ℕ) (p q : Role) :
    incrAt f p q = f q + if p = q then 1 else 0 := by
  by_cases h : p = q
  · subst h
    simp [incrAt]
  · simp [incrAt, Function.update_of_ne (Ne.symm h), h]

lemma decrAt_apply {f : Role → ℕ} {p : Role} (hpos : 0 < f p) (q : Role) :
    decrAt f p q + (if p = q then 1 else 0) = f q := by
  by_cases h : p = q
  · subst h
    simp only [decrAt, Function.update_self, if_true]
    omega
  · simp [decrAt, Function.update_of_ne (Ne.symm h), h]

lemma tally_call (kind : Kind) (q : Role) :
    tally kind (traceOf q (tr ++ [.call role e])) =
      tally kind (traceOf q tr) + if role = q ∧ kindOf e.1 = some kind then 1 else 0 := by
  by_cases h : role = q
  · subst h
    simp
  · simp [traceOf_ne h, h]

/-- What a call has to do on the wire. -/
lemma WireOk.of_call (h : WireOk tr w) (hok : Apm.succeeds e = true)
    (hposted : ∀ q, w'.posted q =
      w.posted q + if role = q ∧ kindOf e.1 = some .postRecv then 1 else 0)
    (hinFlight : ∀ q, w'.inFlight q =
      w.inFlight q + if role = q.other ∧ kindOf e.1 = some .postSend then 1 else 0)
    (hrecvCq : ∀ q,
      w'.recvCq q + (if role = q ∧ kindOf e.1 = some .recvComp then 1 else 0) = w.recvCq q)
    (hunacked : w'.unacked = w.unacked)
    (hsendCq : ∀ q,
      w'.sendCq q + (if role = q ∧ kindOf e.1 = some .sendComp then 1 else 0) = w.sendCq q)
    (hkept : w.accepted = true → w'.accepted = true)
    (haccept : w'.accepted = true →
      w.accepted = true ∨ role = .server ∧ kindOf e.1 = some .accept)
    (hconnect : role = .client ∧ kindOf e.1 = some .connect → w'.accepted = true) :
    WireOk (tr ++ [.call role e]) w' where
  succeeds q e' he' := by
    rw [traceOf_append, List.mem_append] at he'
    rcases he' with he' | he'
    · exact h.succeeds q e' he'
    · by_cases hq : role = q
      · subst hq
        rw [traceOf_self, List.mem_singleton] at he'
        rwa [he']
      · simp [traceOf_ne hq] at he'
  posted q := by
    have := h.posted q
    have := hposted q
    rw [tally_call, moves_append, moves_call]
    omega
  inFlight q := by
    have := h.inFlight q
    have := hinFlight q
    rw [tally_call, moves_append, moves_call]
    omega
  recvCq q := by
    have := h.recvCq q
    have := hrecvCq q
    rw [tally_call, moves_append, moves_call]
    omega
  unacked q := by
    have := h.unacked q
    rw [hunacked, moves_append, moves_call, moves_append, moves_call]
    omega
  sendCq q := by
    have := h.sendCq q
    have := hsendCq q
    rw [tally_call, moves_append, moves_call]
    omega
  accepted hacc := by
    rw [tally_call]
    rcases haccept hacc with hacc | hnew
    · exact Nat.add_pos_left (h.accepted hacc) _
    · rw [if_pos ⟨hnew.1, hnew.2⟩]
      exact Nat.succ_pos _
  connected hpos := by
    rw [tally_call] at hpos
    by_cases hnew : role = .client ∧ kindOf e.1 = some .connect
    · exact hconnect hnew
    · rw [if_neg hnew, Nat.add_zero] at hpos
      exact hkept (h.connected hpos)

/-- A call that has nothing to do with the wire. -/
lemma WireOk.of_other (h : WireOk tr w) (hok : Apm.succeeds e = true)
    (hkind : kindOf e.1 = none) : WireOk (tr ++ [.call role e]) w :=
  h.of_call hok (by simp [hkind]) (by simp [hkind]) (by simp [hkind]) rfl (by simp [hkind]) id
    (fun hacc => Or.inl hacc) (by simp [hkind])

/-- **A call** keeps the wire in order.  A call of one side changes one of its own counts, and the
place on the wire that belongs to it. -/
theorem WireOk.call (h : WireOk tr w) (hs : w.answer role e = some w') :
    WireOk (tr ++ [.call role e]) w' := by
  obtain ⟨c, r⟩ := e
  rw [Wire.answer] at hs
  split at hs
  · rename_i hok
    cases c with
    | postRecv length =>
        obtain rfl := Option.some.inj hs
        refine h.of_call hok ?_ ?_ ?_ rfl ?_ id (fun hacc => Or.inl hacc) ?_ <;>
          simp [kindOf, incrAt_apply]
    | postSend length =>
        obtain rfl := Option.some.inj hs
        refine h.of_call hok ?_ ?_ ?_ rfl ?_ id (fun hacc => Or.inl hacc) ?_
        · simp [kindOf]
        · intro q
          cases role <;> cases q <;> simp [kindOf, incrAt_apply, Role.other]
        all_goals simp [kindOf]
    | getSendComp =>
        dsimp only at hs
        split at hs
        · rename_i hpos
          obtain rfl := Option.some.inj hs
          refine h.of_call hok ?_ ?_ ?_ rfl ?_ id (fun hacc => Or.inl hacc) ?_ <;>
            simp [kindOf, decrAt_apply hpos]
        · exact absurd hs (by simp)
    | getRecvComp =>
        dsimp only at hs
        split at hs
        · rename_i hpos
          obtain rfl := Option.some.inj hs
          refine h.of_call hok ?_ ?_ ?_ rfl ?_ id (fun hacc => Or.inl hacc) ?_ <;>
            simp [kindOf, decrAt_apply hpos]
        · exact absurd hs (by simp)
    | accept data =>
        dsimp only at hs
        split at hs
        · rename_i hrole
          obtain rfl := Option.some.inj hs
          refine h.of_call hok ?_ ?_ ?_ rfl ?_ (fun _ => rfl) (fun _ => Or.inr ⟨hrole, rfl⟩) ?_ <;>
            simp [kindOf]
        · exact absurd hs (by simp)
    | connect data =>
        dsimp only at hs
        split at hs
        · rename_i hacc
          obtain rfl := Option.some.inj hs
          refine h.of_call hok ?_ ?_ ?_ rfl ?_ id (fun hacc => Or.inl hacc) (fun _ => hacc.2) <;>
            simp [kindOf]
        · exact absurd hs (by simp)
    | _ =>
        obtain rfl := Option.some.inj hs
        exact h.of_other hok rfl
  · exact absurd hs (by simp)

/-- **A move of the devices** keeps the wire in order.  A delivery takes a message and a receive,
and their completions are due from then on; all of it is counted by the moves. -/
theorem WireOk.device (h : WireOk tr w) (hs : w.device move = some w') :
    WireOk (tr ++ [.device move]) w' := by
  have htrace : ∀ q, traceOf q (tr ++ [.device move]) = traceOf q tr := by simp
  cases move with
  | deliver role =>
      simp only [Wire.device] at hs
      split at hs
      · rename_i hpos
        obtain rfl := Option.some.inj hs
        exact {
          succeeds := by simpa only [htrace] using h.succeeds
          posted := fun q => by
            have := h.posted q
            have := decrAt_apply hpos.2 q
            simp only [htrace, moves_append, moves_device, Move.deliver.injEq]
            omega
          inFlight := fun q => by
            have := h.inFlight q
            have := decrAt_apply hpos.1 q
            simp only [htrace, moves_append, moves_device, Move.deliver.injEq]
            omega
          recvCq := fun q => by
            have := h.recvCq q
            simp only [htrace, moves_append, moves_device, Move.deliver.injEq, incrAt_apply]
            omega
          unacked := fun q => by
            have := h.unacked q
            simp only [moves_append, moves_device, Move.deliver.injEq, incrAt_apply, reduceCtorEq,
              if_false]
            cases role <;> cases q <;> simp [Role.other] at this ⊢ <;> omega
          sendCq := fun q => by
            have := h.sendCq q
            simpa [htrace] using this
          accepted := by simpa only [htrace] using h.accepted
          connected := by simpa only [htrace] using h.connected }
      · exact absurd hs (by simp)
  | complete role =>
      simp only [Wire.device] at hs
      split at hs
      · rename_i hpos
        obtain rfl := Option.some.inj hs
        exact {
          succeeds := by simpa only [htrace] using h.succeeds
          posted := by simpa using h.posted
          inFlight := by simpa using h.inFlight
          recvCq := by simpa using h.recvCq
          unacked := fun q => by
            have := h.unacked q
            have := decrAt_apply hpos q
            simp only [moves_append, moves_device, Move.complete.injEq, reduceCtorEq, if_false]
            omega
          sendCq := fun q => by
            have := h.sendCq q
            simp only [htrace, moves_append, moves_device, Move.complete.injEq, incrAt_apply]
            omega
          accepted := by simpa only [htrace] using h.accepted
          connected := by simpa only [htrace] using h.connected }
      · exact absurd hs (by simp)

/-- **In every run** the wire is in order. -/
theorem wireOk_run {ctx : Role → Context}
    {s : State Role Call Reply ((Flow × Counts) × Context) Wire}
    (h : Runs.Run (next wire) Runs.always ⟨sides ctx, Wire.start⟩ tr s) : WireOk tr s.shared :=
  Run.shared wireOk_start (fun _ _ _ _ _ hinv _ hs => hinv.call hs)
    (fun _ _ _ _ hinv _ hs => hinv.device hs) h

end Wire

/-! ## The two together

What is claimed are inequalities between the places of the wire.  Each place is a difference of two
counts (`WireOk`), and the counts of each side are ordered (`SideTally`), so that `omega` has the
last word. -/

/-- The two programs and the wire. -/
abbrev PingPong := State Role Call Reply ((Flow × Counts) × Context) Wire

/-- The start of the two, with their contexts. -/
def PingPong.start (ctx : Role → Context) : PingPong := ⟨sides ctx, Wire.start⟩

/-- A side waits for a message. -/
def Waits (s : PingPong) (role : Role) : Prop :=
  s.shared.recvCq role = 0 ∧ ∃ k, s.procs role = .call .getRecvComp k

/-- What is expected of the two, with the number of messages that each sends.  At most one message
is in flight, a receive is posted wherever one arrives, and the two never wait for each other with
nothing on its way.  When both have returned they have counted what was expected. -/
structure PingPongOk (expected : Int) (s : PingPong) : Prop where
  oneReceive : ∀ role, s.shared.posted role ≤ 1
  finds : ∀ role, 0 < s.shared.inFlight role → 0 < s.shared.posted role
  oneMessage : s.shared.inFlight .client + s.shared.inFlight .server ≤ 1
  goesOn : (∀ role, Waits s role) → ∃ role, 0 < s.shared.inFlight role
  counted : ∀ (flow : Role → Flow) (counts : Role → Counts) (ctx : Role → Context),
    (∀ role, s.procs role = .ret ((flow role, counts role), ctx role)) →
      ∀ role, (counts role).sendCnt = expected ∧ (counts role).recvCnt = expected

section PingPong

variable {ctx : Role → Context} {tr : WireTrace} {s : PingPong} {role : Role}

/-- How far a side is, in a run of the two. -/
lemma sides_canDo (h : Runs.Run (next wire) Runs.always (PingPong.start ctx) tr s) (role : Role) :
    SideTally (ctx role).server (traceOf role tr) :=
  sideProgram_canDo (Run.canDo h role) ((wireOk_run h).succeeds role)

/-- A side that waits could take one message more. -/
lemma waits_canDo (h : Runs.Run (next wire) Runs.always (PingPong.start ctx) tr s)
    (hwaits : Waits s role) :
    SideTally (ctx role).server
      (traceOf role tr ++ [⟨.getRecvComp, (⟨1, true⟩ : Completion)⟩]) := by
  obtain ⟨-, k, hk⟩ := hwaits
  refine sideProgram_canDo (Run.canDo_next h hk ⟨1, true⟩) ?_
  intro e he
  rw [List.mem_append, List.mem_singleton] at he
  rcases he with he | rfl
  · exact (wireOk_run h).succeeds role e he
  · rfl

/-- **One message after the other.**  For every number of messages the two sides never have more
than one message under way, which finds the one receive that is posted for it, and they never wait
for each other; a negative number counts as none.

Each side is a fixed order of calls, so that how often it has made one bounds how often it has made
the others (`LoopTally`, for each side from `messageLoop_canDo`).  The wire is the difference of
such counts (`WireOk`): what is in flight has been sent by one side and not come in at the other,
what is posted has been posted and not been used.  All that is claimed is linear in these numbers,
and follows from the two orders. -/
theorem pingPong_safe (hclient : (ctx .client).server = false)
    (hserver : (ctx .server).server = true)
    (hcount : (ctx .client).msgCount = (ctx .server).msgCount)
    (h : Runs.Run (next wire) Runs.always (PingPong.start ctx) tr s) :
    PingPongOk (max (ctx .server).msgCount 0) s := by
  have hwire := wireOk_run h
  have hc := sides_canDo h .client
  have hs := sides_canDo h .server
  simp only [SideTally, hclient, hserver, if_true, Bool.false_eq_true, if_false] at hc hs
  -- what the wire holds, as the difference of what the sides have done
  have hpostedC := hwire.posted .client
  have hpostedS := hwire.posted .server
  have hinFlightC := hwire.inFlight .client
  have hinFlightS := hwire.inFlight .server
  have hrecvC := hwire.recvCq .client
  have hrecvS := hwire.recvCq .server
  have haccepted : 0 < tally .connect (traceOf .client tr) →
      0 < tally .accept (traceOf .server tr) := fun hpos =>
    hwire.accepted (hwire.connected hpos)
  simp only [Role.other] at hinFlightC hinFlightS
  constructor
  · intro role
    cases role <;> omega
  · intro role
    cases role <;> omega
  · omega
  · intro hwaits
    have hnextC := waits_canDo h (hwaits .client)
    have hnextS := waits_canDo h (hwaits .server)
    have hemptyC := (hwaits .client).1
    have hemptyS := (hwaits .server).1
    simp [SideTally, hclient, hserver, kindOf] at hnextC hnextS
    by_contra hnone
    have hnoneC : ¬ 0 < s.shared.inFlight .client := fun hpos => hnone ⟨_, hpos⟩
    have hnoneS : ¬ 0 < s.shared.inFlight .server := fun hpos => hnone ⟨_, hpos⟩
    omega
  · intro flow counts ctx' hends role
    have hreturns := Run.returns h (hends role)
    obtain ⟨-, heq⟩ := sideProgram_returns (hwire.succeeds role) hreturns
    have hsame : (ctx role).msgCount = (ctx .server).msgCount := by
      cases role
      · exact hcount
      · rfl
    rw [hsame] at heq
    rw [heq]
    exact ⟨Int.toNat_eq_max _, Int.toNat_eq_max _⟩

/-! ### Two hosts -/

/-- A client and a server that are started with the same number of messages. -/
def pair (msgCount : Int) : Role → Context
  | .client => { msgCount := msgCount }
  | .server => { server := true, msgCount := msgCount }

/-- The replies of verbs that do not fail. -/
def goodReply : (c : Call) → Reply c
  | .createEp => .ok 0
  | .getRequest => .ok ⟨1, ⟨.connectRequest, [0, 0, 0, 0]⟩⟩
  | .connect _ => .ok ⟨.established, [0, 0, 0, 0]⟩
  | .queryDevice => .ok ⟨autoPathMig, 1⟩
  | .queryQp => .ok ⟨1, 7, 0, 14⟩
  | .queryPort _ => .ok ⟨.active, 7⟩
  | .regMsgs _ => some 0
  | .uninitialised => (0, 0)
  | .freeaddrinfo => ()
  | .pthreadCreate => ()
  | .nanosleep => ()
  | .disconnect => ()
  | .deregMr _ => ()
  | .destroyEp _ => ()
  | .getSendComp => (⟨1, true⟩ : Completion)
  | .getRecvComp => (⟨1, true⟩ : Completion)
  | .getaddrinfo _ _ _ => (0 : Int)
  | .listen => (0 : Int)
  | .postRecv _ => (0 : Int)
  | .accept _ => (0 : Int)
  | .loadPath _ => (0 : Int)
  | .migrate => (0 : Int)
  | .postSend _ => (0 : Int)

/-- The next call of a side. -/
def turn (role : Role) : Choice Role Call Reply Move := .call role goodReply

/-- The two sides, from the start to their message loops. -/
def connecting : List (Choice Role Call Reply Move) :=
  List.replicate 3 (turn .server) ++ List.replicate 3 (turn .client) ++
    List.replicate 2 (turn .server) ++ List.replicate 2 (turn .client)

/-- One message to the server, and one back. -/
def oneRound : List (Choice Role Call Reply Move) :=
  [turn .client, turn .client, .device (.deliver .server), .device (.complete .client)] ++
    List.replicate 4 (turn .server) ++
    [.device (.deliver .client), .device (.complete .server)] ++
    List.replicate 3 (turn .client) ++ [turn .server]

/-- Both sides are at the end of their loops. -/
def bothEnded (s : PingPong) : Bool := (s.result .client).isSome && (s.result .server).isSome

lemma ret_of_bothEnded (h : bothEnded s = true) :
    ∃ (flow : Role → Flow) (counts : Role → Counts) (ctx : Role → Context),
      ∀ role, s.procs role = .ret ((flow role, counts role), ctx role) := by
  rw [bothEnded, Bool.and_eq_true, Option.isSome_iff_exists, Option.isSome_iff_exists] at h
  have hall : ∀ role, ∃ a, s.procs role = .ret a := by
    intro role
    cases role with
    | client => exact h.1.imp fun _ ha => State.procs_of_result ha
    | server => exact h.2.imp fun _ ha => State.procs_of_result ha
  choose a ha using hall
  exact ⟨fun role => (a role).1.1, fun role => (a role).1.2, fun role => (a role).2, ha⟩

/-- One message each way. -/
theorem pingPong_safe_oneMessage : ∃ tr s,
    Runs.Run (next wire) Runs.always (PingPong.start (pair 1)) tr s ∧
      bothEnded s = true ∧ PingPongOk 1 s := by
  obtain ⟨tr, s, hrun, hends⟩ := Runs.Run.exists_of_play (next wire) (PingPong.start (pair 1))
    (connecting ++ oneRound) (fun r => bothEnded r.1) (by decide +kernel)
  exact ⟨tr, s, hrun, hends, pingPong_safe rfl rfl rfl hrun⟩

/-- With a negative number of messages the loops are over at once, and their counters stay `0`. -/
theorem negativeCount_notCounted : ∃ tr s,
    Runs.Run (next wire) Runs.always (PingPong.start (pair (-1))) tr s ∧ ¬ PingPongOk (-1) s := by
  obtain ⟨tr, s, hrun, hends⟩ := Runs.Run.exists_of_play (next wire) (PingPong.start (pair (-1)))
    connecting (fun r => bothEnded r.1) (by decide +kernel)
  refine ⟨tr, s, hrun, fun hok => ?_⟩
  obtain ⟨flow, counts, ctx', hret⟩ := ret_of_bothEnded hends
  have hsent := (hok.counted flow counts ctx' hret .client).1
  omega

end PingPong

end Apm
