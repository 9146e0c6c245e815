import RdmaExamples.Apm.PingPong
import RdmaExamples.Library.Progress

/-!
# The message loops of apm come to their end

In whichever order the two sides and the devices move, no run gets stuck and none goes on for ever:
both sides come to the end of their loops, with every message sent and received
(`pingPong_inevitable`).  A call that blocks is the next one of its side, and so counts towards what
the side can do; what it waits for would have to be missing on the wire, and the other side would
have to wait as well or be at its end.

* `sideProgram_bound` — a side makes at most so many calls of each kind, whatever the other one
  does.
* `Whole` — a program that never halts on the way, so that a side that has stopped has returned.
* `todo` — what the devices have left to do, as a number that each of their moves lowers.
* `Stuck` — no choice can be made.  A call that blocks says what is missing where it blocks, and
  the counts of `WireOk` contradict that.
-/

namespace Apm

open Programs Systems Progress

/-! ## The calls of a side

How many calls of each kind a side can make at most, by the same walk over its program as for
`LoopTally`. -/

section Sides

variable {t : Trace} {ctx ctx' : Context} {counts counts' : Counts} {ret : Int} {flow : Flow}
  {i : Int} {n : ℕ}

/-- A round has no more than one message each way. -/
lemma messageRound_bound {c : Context} (h : CanDo ((messageRound c i counts).run ctx) t) :
    tally .postSend t ≤ 1 ∧ tally .recvComp t ≤ 1 := by
  have hturns : c.server.toNat + (!c.server).toNat = 1 := by cases c.server <;> rfl
  rcases canDo_andThen h with h | ⟨t₁, t₂, counts₁, ctx₁, rfl, h₁, h₂⟩
  · obtain ⟨pr, rc, ht, -, hrc⟩ := recvPart_canDo h
    rw [ht.postSend, ht.recvComp]
    omega
  obtain ⟨ht₁, -⟩ := recvPart_returns h₁ rfl
  rcases canDo_andThen h₂ with h₂ | ⟨t₂, t₃, counts₂, ctx₂, rfl, h₂, h₃⟩
  · obtain ⟨ps, sc, ht, -, hps⟩ := sendPart_canDo h₂
    rw [(ht₁.append ht).postSend, (ht₁.append ht).recvComp]
    omega
  obtain ⟨ht₂, -⟩ := sendPart_returns h₂ rfl
  rcases canDo_andThen h₃ with h₃ | ⟨t₃, t₄, counts₃, ctx₃, rfl, h₃, h₄⟩
  · obtain ⟨pr, rc, ht, -, hrc⟩ := recvPart_canDo h₃
    rw [(ht₁.append (ht₂.append ht)).postSend, (ht₁.append (ht₂.append ht)).recvComp]
    omega
  obtain ⟨ht₃, -⟩ := recvPart_returns h₃ rfl
  have ht₄ := tallies_of_quiet fun _ => tally_of_keeps (migratePart_quiet c) h₄
  have ht := ht₁.append (ht₂.append (ht₃.append ht₄))
  rw [ht.postSend, ht.recvComp]
  omega

/-- Nor has the loop more of them than rounds. -/
lemma messageLoop_bound {c : Context} : ∀ {n : ℕ} {i : Int} {counts : Counts} {ctx : Context}
    {t : Trace}, CanDo ((messageLoop c n i counts).run ctx) t →
    tally .postSend t ≤ n ∧ tally .recvComp t ≤ n
  | 0, i, counts, ctx, t, h => by
      rw [canDo_run_pure.mp h]
      exact ⟨le_rfl, le_rfl⟩
  | n + 1, i, counts, ctx, t, h => by
      rcases canDo_andThen h with h | ⟨t₁, t₂, counts₁, ctx₁, rfl, h₁, h₂⟩
      · have hround := messageRound_bound h
        omega
      · obtain ⟨ht₁, -⟩ := messageRound_returns h₁ rfl
        have hrest := messageLoop_bound h₂
        rw [tally_append, tally_append, ht₁.postSend, ht₁.recvComp]
        omega

/-- The whole loop has as many as it has rounds. -/
lemma messageLoop_tallies {c : Context} : ∀ {n : ℕ} {i : Int} {counts : Counts} {ctx : Context}
    {t : Trace}, Returns ((messageLoop c n i counts).run ctx) t ((flow, counts'), ctx') →
    flow = .next → Tallies t n n n n
  | 0, i, counts, ctx, t, h, _ => by
      obtain ⟨rfl, -, -⟩ := returns_run_pure.mp h
      exact tallies_of_quiet fun _ => rfl
  | n + 1, i, counts, ctx, t, h, hflow => by
      rcases returns_andThen h with ⟨hne, -⟩ | ⟨t₁, t₂, counts₁, ctx₁, rfl, h₁, h₂⟩
      · exact absurd hflow hne
      · obtain ⟨ht₁, -⟩ := messageRound_returns h₁ rfl
        rw [Nat.add_comm n 1]
        exact ht₁.append (messageLoop_tallies h₂ hflow)

/-- The server does not connect, the client does not accept. -/
def foreignKind (server : Bool) : Kind := if server = true then .connect else .accept

lemma establishConnection_foreign (h : CanDo (establishConnection.run ctx) t) :
    tally (foreignKind ctx.server) t = 0 := by
  rw [establishConnection, run_get_bind] at h
  rcases canDo_run_perform_bind.mp h with rfl | ⟨r, t₁, rfl, h₁⟩
  · rfl
  have hpost : kindOf (.postRecv ctx.msgLength) ≠ some (foreignKind ctx.server) := by
    cases ctx.server <;> simp [kindOf, foreignKind]
  rw [tally_cons, if_neg hpost, Nat.add_zero]
  split at h₁
  · rw [canDo_run_pure.mp h₁]
    rfl
  rcases canDo_run_perform_bind.mp h₁ with rfl | ⟨rest, t₂, rfl, h₂⟩
  · rfl
  rw [tally_cons, if_neg (by simp [kindOf]), Nat.add_zero]
  refine List.countP_eq_zero.mpr fun e he => ?_
  dsimp only at h₂
  cases hserver : ctx.server with
  | true =>
      rw [if_pos hserver] at h₂
      have haccept : Keeps Context.loopData (fun c => kindOf c = some .accept)
          (call (.accept (htons ctx.myAltDlid ++ [rest.1, rest.2]))) := Keeps.perform rfl
      have hcalls := haccept.calls _ _ h₂ e he
      simp [hcalls, foreignKind]
  | false =>
      rw [if_neg (by rw [hserver]; decide)] at h₂
      have hcalls := (connectClient_keeps (fun c => kindOf c = some .connect) rfl).calls _ _ h₂ e he
      simp [hcalls, foreignKind]

/-- A server that is past `establish_connection` has accepted. -/
lemma establishConnection_accepts (hserver : ctx.server = true)
    (hok : ∀ e ∈ t, succeeds e = true)
    (h : Returns (establishConnection.run ctx) t (ret, ctx')) : 0 < tally .accept t := by
  rw [establishConnection, run_get_bind] at h
  obtain ⟨r, t₁, rfl, h₁⟩ := returns_run_perform_bind.mp h
  have hr := of_decide_eq_true (hok _ (List.mem_cons_self ..))
  rw [if_neg (not_not.mpr hr)] at h₁
  obtain ⟨rest, t₂, rfl, h₂⟩ := returns_run_perform_bind.mp h₁
  dsimp only at h₂
  rw [if_pos hserver] at h₂
  obtain ⟨rfl, -⟩ := returns_run_perform.mp h₂
  simp [kindOf]

/-- The rest of a side, from `load_alt_path` on. -/
lemma transfer_bound (h : CanDo (transfer.run ctx) t) :
    tally .postSend t ≤ ctx.msgCount.toNat ∧ tally .recvComp t ≤ ctx.msgCount.toNat := by
  rw [transfer] at h
  rcases canDo_run_bind.mp h with h | ⟨t₁, t₂, ret, ctx₁, rfl, h₁, h₂⟩
  · rw [tally_of_keeps loadAltPath_quiet h, tally_of_keeps loadAltPath_quiet h]
    exact ⟨Nat.zero_le _, Nat.zero_le _⟩
  · rw [tally_append, tally_append, tally_of_keeps loadAltPath_quiet h₁.canDo,
      tally_of_keeps loadAltPath_quiet h₁.canDo, Nat.zero_add, Nat.zero_add]
    split at h₂
    · rw [canDo_run_pure.mp h₂]
      exact ⟨Nat.zero_le _, Nat.zero_le _⟩
    · rw [messages, run_get_bind] at h₂
      have hcount : ctx₁.msgCount = ctx.msgCount :=
        (Prod.mk.inj (loadAltPath_keeps.state _ _ _ _ h₁)).2
      rw [← hcount]
      exact messageLoop_bound h₂

/-- What a side has done at most, with no verb failing. -/
structure SideBound (server : Bool) (n : ℕ) (t : Trace) : Prop where
  postSend : tally .postSend t ≤ n
  recvComp : tally .recvComp t ≤ n
  foreign : tally (foreignKind server) t = 0
  accepted : server = true → 0 < tally .recvComp t → 0 < tally .accept t

/-- **A side does not do more** than its loop has rounds. -/
theorem sideProgram_bound (h : CanDo (sideProgram.run ctx) t) (hok : ∀ e ∈ t, succeeds e = true) :
    SideBound ctx.server ctx.msgCount.toNat t := by
  rw [sideProgram] at h
  rcases canDo_run_bind.mp h with h | ⟨t₁, t₂, ret, ctx₁, rfl, h₁, h₂⟩
  · obtain ⟨hps, -, hrc, -, -⟩ := establishConnection_canDo h
    refine ⟨by omega, by omega, establishConnection_foreign h, fun _ hpos => ?_⟩
    omega
  · obtain ⟨hps, -, hrc, -, -⟩ := establishConnection_canDo h₁.canDo
    have hdata := (establishConnection_keeps (fun _ => True) (fun _ => trivial) trivial
      (fun _ => trivial) fun _ => trivial).state _ _ _ _ h₁
    have hbound := transfer_bound h₂
    rw [(Prod.mk.inj hdata).2] at hbound
    obtain ⟨ps, sc, pr, rc, ht₂, -⟩ := transfer_canDo h₂
    refine ⟨?_, ?_, ?_, fun hserver _ => ?_⟩
    · rw [tally_append]
      omega
    · rw [tally_append]
      omega
    · rw [tally_append, establishConnection_foreign h₁.canDo, Nat.zero_add]
      cases ctx.server
      · exact ht₂.accept
      · exact ht₂.connect
    · rw [tally_append]
      have haccepts := establishConnection_accepts hserver (fun e he => hok e (by simp [he])) h₁
      omega

/-- What a side has done at its end. -/
structure SideDone (server : Bool) (n : ℕ) (t : Trace) : Prop where
  postSend : tally .postSend t = n
  sendComp : tally .sendComp t = n
  postRecv : tally .postRecv t = n + 1
  recvComp : tally .recvComp t = n
  accepted : server = true → 0 < tally .accept t

/-- **A side that is at its end** has gone through its loop. -/
theorem sideProgram_done (hok : ∀ e ∈ t, succeeds e = true)
    (h : Returns (sideProgram.run ctx) t ((flow, counts), ctx')) :
    SideDone ctx.server ctx.msgCount.toNat t := by
  obtain ⟨t₁, t₂, ret, ctx₁, rfl, h₁, h₂⟩ := returns_run_bind.mp h
  obtain ⟨hps, hsc, hrc, hpr, -⟩ := establishConnection_canDo h₁.canDo
  have hposts := establishConnection_posts h₁
  have hdata₁ := (establishConnection_keeps (fun _ => True) (fun _ => trivial) trivial
    (fun _ => trivial) fun _ => trivial).state _ _ _ _ h₁
  obtain ⟨t₃, t₄, ret₂, ctx₂, rfl, h₃, h₄⟩ := returns_run_bind.mp h₂
  have hdata₂ := loadAltPath_keeps.state _ _ _ _ h₃
  have hret := loadAltPath_succeeds (fun e he => hok e (by simp [he])) h₃
  rw [if_neg (not_not.mpr hret), messages, run_get_bind] at h₄
  have hflow := messageLoop_succeeds (fun e he => hok e (by simp [he])) h₄
  have hquiet := tallies_of_quiet fun _ => tally_of_keeps loadAltPath_quiet h₃.canDo
  have ht := hquiet.append (messageLoop_tallies h₄ hflow)
  rw [(Prod.mk.inj (hdata₂.trans hdata₁)).2] at ht
  refine ⟨?_, ?_, ?_, ?_, fun hserver => ?_⟩
  · rw [tally_append, ht.postSend]
    omega
  · rw [tally_append, ht.sendComp]
    omega
  · rw [tally_append, ht.postRecv]
    omega
  · rw [tally_append, ht.recvComp]
    omega
  · rw [tally_append]
    have haccepts := establishConnection_accepts hserver (fun e he => hok e (by simp [he])) h₁
    omega

/-! ### No side is cut off -/

/-- There is no condition on the replies. -/
abbrev Whole {α : Type} (m : ApmM α) : Prop := NeverHalts (fun _ => True) m

lemma loadAltPath_whole : Whole loadAltPath := by
  refine NeverHalts.bind NeverHalts.perform fun reply => ?_
  cases reply with
  | error e => exact NeverHalts.pure
  | ok qpAttr => exact NeverHalts.get_bind fun ctx => NeverHalts.perform

lemma connectClient_whole (privateData : List UInt8) : Whole (connectClient privateData) := by
  refine NeverHalts.bind NeverHalts.perform fun reply => ?_
  cases reply with
  | error e => exact NeverHalts.pure
  | ok event =>
      refine NeverHalts.ite NeverHalts.pure (NeverHalts.get_bind fun ctx => ?_)
      refine NeverHalts.ite ?_ NeverHalts.pure
      cases getAltDlidFromPrivateData event with
      | none => exact NeverHalts.pure
      | some dlid => exact NeverHalts.modify_bind fun _ => NeverHalts.pure

lemma establishConnection_whole : Whole establishConnection := by
  refine NeverHalts.get_bind fun ctx => NeverHalts.bind NeverHalts.perform fun ret => ?_
  refine NeverHalts.ite NeverHalts.pure (NeverHalts.bind NeverHalts.perform fun rest => ?_)
  exact NeverHalts.ite NeverHalts.perform (connectClient_whole _)

lemma andThen_whole {m : ApmM (Flow × Counts)} {f : Counts → ApmM (Flow × Counts)}
    (hm : Whole m) (hf : ∀ counts, Whole (f counts)) : Whole (andThen m f) :=
  NeverHalts.bind hm fun r => NeverHalts.ite (hf r.2) NeverHalts.pure

lemma recvMsg_whole : Whole recvMsg := by
  refine NeverHalts.get_bind fun ctx => NeverHalts.bind NeverHalts.perform fun ret => ?_
  refine NeverHalts.ite NeverHalts.pure (NeverHalts.bind NeverHalts.perform fun ret => ?_)
  exact NeverHalts.ite NeverHalts.pure NeverHalts.pure

lemma sendMsg_whole : Whole sendMsg := by
  refine NeverHalts.get_bind fun ctx => NeverHalts.bind NeverHalts.perform fun ret => ?_
  refine NeverHalts.ite NeverHalts.pure (NeverHalts.bind NeverHalts.perform fun ret => ?_)
  exact NeverHalts.ite NeverHalts.pure NeverHalts.pure

lemma recvPart_whole (turn : Bool) (counts : Counts) : Whole (recvPart turn counts) := by
  refine NeverHalts.ite NeverHalts.pure (NeverHalts.bind recvMsg_whole fun ret => ?_)
  exact NeverHalts.ite NeverHalts.pure NeverHalts.pure

lemma sendPart_whole (counts : Counts) : Whole (sendPart counts) := by
  refine NeverHalts.bind NeverHalts.perform fun _ => NeverHalts.bind sendMsg_whole fun ret => ?_
  exact NeverHalts.ite NeverHalts.pure NeverHalts.pure

lemma migratePart_whole (c : Context) (i : Int) (counts : Counts) :
    Whole (migratePart c i counts) := by
  refine NeverHalts.ite NeverHalts.pure (NeverHalts.bind NeverHalts.perform fun ret => ?_)
  exact NeverHalts.ite NeverHalts.pure NeverHalts.pure

lemma messageRound_whole (c : Context) (i : Int) (counts : Counts) :
    Whole (messageRound c i counts) :=
  andThen_whole (recvPart_whole _ _) fun _ => andThen_whole (sendPart_whole _) fun _ =>
    andThen_whole (recvPart_whole _ _) fun _ => migratePart_whole _ _ _

lemma messageLoop_whole (c : Context) : ∀ (n : ℕ) (i : Int) (counts : Counts),
    Whole (messageLoop c n i counts)
  | 0, _, _ => NeverHalts.pure
  | n + 1, i, counts =>
      andThen_whole (messageRound_whole c i counts) (messageLoop_whole c n (i + 1))

/-- The programs are followed to their ends. -/
theorem sideProgram_whole : Whole sideProgram := by
  refine NeverHalts.bind establishConnection_whole fun _ => ?_
  refine NeverHalts.bind loadAltPath_whole fun ret => NeverHalts.ite NeverHalts.pure ?_
  exact NeverHalts.get_bind fun ctx => messageLoop_whole _ _ _ _

end Sides

/-! ## Nobody gets stuck

The argument is by contradiction with the counts.  A call that does not block can be made; so where
nobody can move, both sides stand at a call that blocks, and the counts of the two do not fit each
other. -/

instance : Fintype Role := ⟨{.client, .server}, fun role => by cases role <;> simp⟩

/-- What the devices still have to do. -/
def Wire.todo (w : Wire) : ℕ :=
  2 * (w.inFlight .client + w.inFlight .server) + (w.unacked .client + w.unacked .server)

/-- Both sides have sent and received all messages, and nothing is left between them but the receive
that each has posted last. -/
structure Delivered (n : ℕ) (s : PingPong) : Prop where
  counted : ∀ role, ∃ ctx', s.procs role = .ret ((.next, ⟨n, n⟩), ctx')
  posted : ∀ role, s.shared.posted role = 1
  inFlight : ∀ role, s.shared.inFlight role = 0
  recvCq : ∀ role, s.shared.recvCq role = 0
  unacked : ∀ role, s.shared.unacked role = 0
  sendCq : ∀ role, s.shared.sendCq role = 0

section Completes

variable {ctx : Role → Context} {tr : WireTrace} {s : PingPong} {role : Role} {w w' : Wire}
  {move : Move} {c : Call} {k : Reply c → Prog Call Reply ((Flow × Counts) × Context)}

/-- The devices do not go on for ever. -/
lemma todo_lt (h : w.device move = some w') : w'.todo < w.todo := by
  cases move with
  | deliver role =>
      rw [Wire.device] at h
      split at h
      · rename_i hpos
        obtain rfl := Option.some.inj h
        have hinFlight := fun q => decrAt_apply hpos.1 q
        have hc := hinFlight .client
        have hs := hinFlight .server
        simp only [Wire.todo, incrAt_apply]
        cases role <;> simp [Role.other] at hc hs ⊢ <;> omega
      · exact absurd h (by simp)
  | complete role =>
      rw [Wire.device] at h
      split at h
      · rename_i hpos
        obtain rfl := Option.some.inj h
        have hunacked := fun q => decrAt_apply hpos q
        have hc := hunacked .client
        have hs := hunacked .server
        simp only [Wire.todo]
        cases role <;> simp at hc hs ⊢ <;> omega
      · exact absurd h (by simp)

/-- A call that cannot get a reply waits for something. -/
lemma waits_of_none (h : w.answer role ⟨c, goodReply c⟩ = none) :
    c = .getSendComp ∧ w.sendCq role = 0 ∨ c = .getRecvComp ∧ w.recvCq role = 0 ∨
      (∃ data, c = .accept data) ∧ role ≠ .server ∨
      (∃ data, c = .connect data) ∧ ¬ (role = .client ∧ w.accepted = true) := by
  have hok : succeeds ⟨c, goodReply c⟩ = true := by cases c <;> rfl
  rw [Wire.answer, if_pos hok] at h
  cases c with
  | getSendComp =>
      refine Or.inl ⟨rfl, ?_⟩
      by_contra hne
      simp [Nat.pos_of_ne_zero hne] at h
  | getRecvComp =>
      refine Or.inr (Or.inl ⟨rfl, ?_⟩)
      by_contra hne
      simp [Nat.pos_of_ne_zero hne] at h
  | accept data =>
      refine Or.inr (Or.inr (Or.inl ⟨⟨data, rfl⟩, fun hrole => ?_⟩))
      simp [hrole] at h
  | connect data =>
      refine Or.inr (Or.inr (Or.inr ⟨⟨data, rfl⟩, fun hboth => ?_⟩))
      simp [hboth] at h
  | _ => exact absurd h (by simp)

/-- `rdma_accept` stands. -/
lemma answer_accepted {e : Event Call Reply} (h : w.answer role e = some w')
    (hacc : w.accepted = true ∨ kindOf e.1 = some .accept) : w'.accepted = true := by
  obtain ⟨c, r⟩ := e
  rw [Wire.answer] at h
  split at h
  swap
  · exact absurd h (by simp)
  have hkept : kindOf c ≠ some .accept → w.accepted = true := fun hne =>
    hacc.resolve_right hne
  cases c with
  | accept data =>
      dsimp only at h
      split at h
      · rw [← Option.some.inj h]
      · exact absurd h (by simp)
  | getSendComp =>
      dsimp only at h
      split at h
      · rw [← Option.some.inj h]
        exact hkept (by simp [kindOf])
      · exact absurd h (by simp)
  | getRecvComp =>
      dsimp only at h
      split at h
      · rw [← Option.some.inj h]
        exact hkept (by simp [kindOf])
      · exact absurd h (by simp)
  | connect data =>
      dsimp only at h
      split at h
      · rw [← Option.some.inj h]
        exact hkept (by simp [kindOf])
      · exact absurd h (by simp)
  | _ =>
      rw [← Option.some.inj h]
      exact hkept (by simp [kindOf])

lemma device_accepted (h : w.device move = some w') : w'.accepted = w.accepted := by
  cases move with
  | deliver role =>
      rw [Wire.device] at h
      split at h
      · rw [← Option.some.inj h]
      · exact absurd h (by simp)
  | complete role =>
      rw [Wire.device] at h
      split at h
      · rw [← Option.some.inj h]
      · exact absurd h (by simp)

/-- Once the server has called `rdma_accept`, the wire is accepted. -/
lemma accepted_run (h : Runs.Run (next wire) Runs.always (PingPong.start ctx) tr s) :
    0 < tally .accept (traceOf .server tr) → s.shared.accepted = true := by
  refine Run.shared (I := fun tr w => 0 < tally .accept (traceOf .server tr) → w.accepted = true)
    (fun hpos => absurd hpos (by decide)) ?_ ?_ h
  · intro tr w role e w' ih _ hs hpos
    rw [tally_call] at hpos
    refine answer_accepted hs ?_
    by_cases hcall : role = .server ∧ kindOf e.1 = some .accept
    · exact Or.inr hcall.2
    · rw [if_neg hcall, Nat.add_zero] at hpos
      exact Or.inl (ih hpos)
  · intro tr w move w' ih _ hs hpos
    rw [traceOf_append, traceOf_device, List.append_nil] at hpos
    rw [device_accepted hs]
    exact ih hpos

/-- The call that a side is at counts towards what the side can do. -/
lemma call_canDo (h : Runs.Run (next wire) Runs.always (PingPong.start ctx) tr s)
    (hp : s.procs role = .call c k) :
    SideTally (ctx role).server (traceOf role tr ++ [⟨c, goodReply c⟩]) ∧
      SideBound (ctx role).server (ctx role).msgCount.toNat
        (traceOf role tr ++ [⟨c, goodReply c⟩]) := by
  have hcan := Run.canDo_next h hp (goodReply c)
  have hok : ∀ e ∈ traceOf role tr ++ [⟨c, goodReply c⟩], succeeds e = true := by
    intro e he
    rw [List.mem_append, List.mem_singleton] at he
    rcases he with he | rfl
    · exact (wireOk_run h).succeeds role e he
    · cases c <;> rfl
  exact ⟨sideProgram_canDo hcan hok, sideProgram_bound hcan hok⟩

/-- Nobody can move. -/
def Stuck (s : PingPong) : Prop := ∀ choice s' es, next wire s choice ≠ some (s', es)

/-- Then the devices have nothing to do. -/
lemma Stuck.idle (hstuck : Stuck s) (hclient : (ctx .client).server = false)
    (hserver : (ctx .server).server = true)
    (h : Runs.Run (next wire) Runs.always (PingPong.start ctx) tr s) (role : Role) :
    s.shared.inFlight role = 0 ∧ s.shared.unacked role = 0 := by
  have hwire := wireOk_run h
  have hc := sides_canDo h .client
  have hs := sides_canDo h .server
  simp only [SideTally, hclient, hserver, if_true, Bool.false_eq_true, if_false] at hc hs
  have hfinds : 0 < s.shared.inFlight role → 0 < s.shared.posted role := by
    have hpostedC := hwire.posted .client
    have hpostedS := hwire.posted .server
    have hinFlightC := hwire.inFlight .client
    have hinFlightS := hwire.inFlight .server
    have hrecvC := hwire.recvCq .client
    have hrecvS := hwire.recvCq .server
    have haccepted : 0 < tally .connect (traceOf .client tr) →
        0 < tally .accept (traceOf .server tr) := fun hpos =>
      hwire.accepted (hwire.connected hpos)
    simp only [Role.other] at hinFlightC hinFlightS
    cases role <;> omega
  constructor
  · by_contra hne
    have hpos := Nat.pos_of_ne_zero hne
    exact hstuck (.device (.deliver role)) _ _
      (next_of_device (if_pos ⟨hpos, hfinds hpos⟩))
  · by_contra hne
    have hpos := Nat.pos_of_ne_zero hne
    exact hstuck (.device (.complete role)) _ _ (next_of_device (if_pos hpos))

/-- A side that is not at its end waits for a message, or the client for the server. -/
lemma Stuck.waits (hstuck : Stuck s) (hclient : (ctx .client).server = false)
    (hserver : (ctx .server).server = true)
    (h : Runs.Run (next wire) Runs.always (PingPong.start ctx) tr s)
    (hp : s.procs role = .call c k) :
    c = .getRecvComp ∧ s.shared.recvCq role = 0 ∨
      role = .client ∧ s.shared.accepted = false := by
  have hwire := wireOk_run h
  obtain ⟨hnext, hbound⟩ := call_canDo h hp
  have hidle := hstuck.idle hclient hserver h
  have hnone : s.shared.answer role ⟨c, goodReply c⟩ = none := by
    rw [Option.eq_none_iff_forall_ne_some]
    exact fun w hw => hstuck (.call role goodReply) _ _ (next_of_call hp hw)
  rcases waits_of_none hnone with
    ⟨rfl, hempty⟩ | hrecv | ⟨⟨data, rfl⟩, hrole⟩ | ⟨⟨data, rfl⟩, hblocked⟩
  · -- all messages of the side have arrived and are reported
    exfalso
    have hinFlight := hwire.inFlight role.other
    have hunacked := hwire.unacked role
    have hsendCq := hwire.sendCq role
    rw [other_other, (hidle role.other).1] at hinFlight
    rw [(hidle role).2] at hunacked
    rw [hempty] at hsendCq
    have hmore : tally .sendComp (traceOf role tr) + 1 ≤ tally .postSend (traceOf role tr) := by
      cases hrole : (ctx role).server <;> simp [SideTally, hrole, kindOf] at hnext <;> omega
    omega
  · exact Or.inl hrecv
  · have hforeign := hbound.foreign
    cases role with
    | client => simp [hclient, foreignKind, kindOf] at hforeign
    | server => exact absurd rfl hrole
  · have hforeign := hbound.foreign
    cases role with
    | client => exact Or.inr ⟨rfl, by simpa using hblocked⟩
    | server => simp [hserver, foreignKind, kindOf] at hforeign

/-- A side is at its end, or at a call. -/
lemma ret_or_call (h : Runs.Run (next wire) Runs.always (PingPong.start ctx) tr s) (role : Role) :
    (∃ a, s.procs role = .ret a) ∨ ∃ c k, s.procs role = .call c k := by
  cases hp : s.procs role with
  | ret a => exact Or.inl ⟨a, rfl⟩
  | call c k => exact Or.inr ⟨c, k, rfl⟩
  | halt => exact absurd hp (sideProgram_whole _ _ _ (Run.steps h role) fun _ _ => trivial)

/-- A side that is at its end has done its part. -/
lemma done_of_ret (h : Runs.Run (next wire) Runs.always (PingPong.start ctx) tr s)
    {a : (Flow × Counts) × Context} (hp : s.procs role = .ret a) :
    SideDone (ctx role).server (ctx role).msgCount.toNat (traceOf role tr) :=
  sideProgram_done ((wireOk_run h).succeeds role) (Run.returns h hp)

/-- **Nobody gets stuck** but at the end.  Where the server waits for a message, all that the
client has sent has come in; so a client at its end would have sent all of them.  And where both
wait, the client has sent more than it has received, and the server no less, which cannot be. -/
theorem Stuck.ended (hstuck : Stuck s) (hclient : (ctx .client).server = false)
    (hserver : (ctx .server).server = true)
    (hcount : (ctx .client).msgCount = (ctx .server).msgCount)
    (h : Runs.Run (next wire) Runs.always (PingPong.start ctx) tr s) (role : Role) :
    ∃ a, s.procs role = .ret a := by
  have hwire := wireOk_run h
  have hidle := hstuck.idle hclient hserver h
  have hinFlightC := hwire.inFlight .client
  have hinFlightS := hwire.inFlight .server
  have hrecvC := hwire.recvCq .client
  have hrecvS := hwire.recvCq .server
  rw [(hidle .client).1] at hinFlightC
  rw [(hidle .server).1] at hinFlightS
  simp only [Role.other] at hinFlightC hinFlightS
  have hended : ∃ a, s.procs .server = .ret a := by
    rcases ret_or_call h .server with hret | ⟨c, k, hp⟩
    · exact hret
    exfalso
    obtain ⟨hnext, hbound⟩ := call_canDo h hp
    rcases hstuck.waits hclient hserver h hp with ⟨rfl, hempty⟩ | ⟨hrole, -⟩
    swap
    · exact absurd hrole (by decide)
    have hpast := hbound.accepted hserver
    have hmore := hbound.recvComp
    simp [SideTally, hserver, kindOf] at hnext hpast hmore
    rcases ret_or_call h .client with ⟨a, hret⟩ | ⟨c', k', hp'⟩
    · -- the client has sent all its messages, and the server waits for one more
      have hdone := (done_of_ret h hret).postSend
      rw [hcount] at hdone
      omega
    · obtain ⟨hnext', -⟩ := call_canDo h hp'
      rcases hstuck.waits hclient hserver h hp' with ⟨rfl, hempty'⟩ | ⟨-, hnot⟩
      · simp [SideTally, hclient, kindOf] at hnext'
        omega
      · rw [accepted_run h hpast] at hnot
        exact absurd hnot (by decide)
  cases role with
  | server => exact hended
  | client =>
      obtain ⟨a, hret⟩ := hended
      have hdone := done_of_ret h hret
      rcases ret_or_call h .client with hret' | ⟨c, k, hp⟩
      · exact hret'
      exfalso
      obtain ⟨-, hbound⟩ := call_canDo h hp
      rcases hstuck.waits hclient hserver h hp with ⟨rfl, hempty⟩ | ⟨-, hnot⟩
      · have hsent := hdone.postSend
        have hmore := hbound.recvComp
        rw [hcount] at hmore
        simp [kindOf] at hmore
        omega
      · rw [accepted_run h (hdone.accepted hserver)] at hnot
        exact absurd hnot (by decide)

/-- At the end everything is delivered. -/
lemma delivered_of_ended (hcount : (ctx .client).msgCount = (ctx .server).msgCount)
    (h : Runs.Run (next wire) Runs.always (PingPong.start ctx) tr s)
    (hended : ∀ role, ∃ a, s.procs role = .ret a) :
    Delivered (ctx .server).msgCount.toNat s := by
  have hwire := wireOk_run h
  have hsame : ∀ role, (ctx role).msgCount = (ctx .server).msgCount := by
    intro role
    cases role
    · exact hcount
    · rfl
  have hdone : ∀ role, SideDone (ctx role).server (ctx .server).msgCount.toNat
      (traceOf role tr) := by
    intro role
    obtain ⟨a, hp⟩ := hended role
    rw [← hsame role]
    exact done_of_ret h hp
  have harrived : ∀ role, s.shared.inFlight role = 0 ∧ s.shared.recvCq role = 0 ∧
      moves (.deliver role) tr = (ctx .server).msgCount.toNat := by
    intro role
    have hinFlight := hwire.inFlight role
    have hrecvCq := hwire.recvCq role
    rw [(hdone role.other).postSend] at hinFlight
    rw [(hdone role).recvComp] at hrecvCq
    omega
  have hreported : ∀ role, s.shared.unacked role = 0 ∧ s.shared.sendCq role = 0 := by
    intro role
    have hunacked := hwire.unacked role
    have hsendCq := hwire.sendCq role
    rw [(harrived role.other).2.2] at hunacked
    rw [(hdone role).sendComp] at hsendCq
    omega
  refine ⟨fun role => ?_, fun role => ?_, fun role => (harrived role).1,
    fun role => (harrived role).2.1, fun role => (hreported role).1,
    fun role => (hreported role).2⟩
  · obtain ⟨⟨⟨flow, counts⟩, ctx'⟩, hp⟩ := hended role
    obtain ⟨rfl, rfl⟩ := sideProgram_returns (hwire.succeeds role) (Run.returns h hp)
    rw [hsame role] at hp
    exact ⟨ctx', hp⟩
  · have hposted := hwire.posted role
    rw [(hdone role).postRecv, (harrived role).2.2] at hposted
    omega

/-- **The message loops come to their end.**  From every state of a client and a server that are
started with the same number of messages, whoever moves next, both sides come to the end of their
loops after finitely many steps: each has sent and received that many messages, and nothing is left
between them.

A call takes the program of its side on, which has no path without an end, and a move of a device
lowers what is on the wire (`todo_lt`).  So every run comes to a state in which nothing can move
(`inevitable_end`).  There both sides are at their ends (`Stuck.ended`), and by the count of
`WireOk` nothing is left between them. -/
theorem pingPong_inevitable (hclient : (ctx .client).server = false)
    (hserver : (ctx .server).server = true)
    (hcount : (ctx .client).msgCount = (ctx .server).msgCount)
    (h : Runs.Run (next wire) Runs.always (PingPong.start ctx) tr s) :
    Runs.Inevitable (next wire) Runs.always (Delivered (ctx .server).msgCount.toNat) s := by
  have hless : ∀ w move w', wire.device w move = some w' → w'.todo < w.todo :=
    fun _ _ _ hm => todo_lt hm
  refine (inevitable_end (I := fun s => ∃ tr, Runs.Run (next wire) Runs.always
    (PingPong.start ctx) tr s) hless ?_ ?_ s ⟨tr, h⟩).weaken ?_
  · rintro s choice s' es ⟨tr, hrun⟩ hok hs
    exact ⟨tr ++ es, hrun.step hok hs⟩
  · rintro s ⟨tr, hrun⟩ hnone role c k hp
    have hstuck : Stuck s := fun choice s' es => hnone choice s' es trivial
    obtain ⟨a, hret⟩ := hstuck.ended hclient hserver hcount hrun role
    rw [hp] at hret
    exact absurd hret (by simp)
  · rintro s ⟨⟨tr, hrun⟩, hend⟩
    refine delivered_of_ended hcount hrun fun role => ?_
    rcases ret_or_call hrun role with hret | ⟨c, k, hp⟩
    · exact hret
    · exact absurd hp (hend role c k)

/-- Three messages each way, from the start. -/
theorem pingPong_inevitable_three :
    Runs.Inevitable (next wire) Runs.always (Delivered 3) (PingPong.start (pair 3)) := by
  have hstart : Runs.Run (next wire) Runs.always (PingPong.start (pair 3)) []
      (PingPong.start (pair 3)) := Runs.Run.start
  exact pingPong_inevitable rfl rfl rfl hstart

end Completes

end Apm
