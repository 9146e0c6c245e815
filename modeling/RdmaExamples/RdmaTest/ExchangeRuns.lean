import RdmaExamples.Messages.ExchangeRuns
import RdmaExamples.RdmaTest.Program

/-!
# The exchange of the program of the shared region

As long as no verb fails, `server_run` and `client_run` of `rdma_test.c` keep to an exchange of two
messages (`nodeRun_exchange`): the second message of the client is the one with its key and its
address, and before the second one of the server there is one write, of `"Dat"`, and one read.
-/

namespace RdmaTest

open Programs Monitors Messages ByteStrings

/-- The exchange of a side, as long as no verb fails. -/
abbrev sharing (side : Side) : Monitor Call Reply Record :=
  exchange clientMessage 2 side fun _ => Good

/-- Where a function may leave it. -/
abbrev Ends (r : Record) (ret : Int) : Prop := LeavesIn 2 (fun _ => True) r ret

section

variable {side : Side} {sendInline : Bool} {label : Label} {fuel : ℕ} {r : Record}
  {rest : MsgM Exit} {localMr : Option Mr} {addr : UInt64} {rkey : UInt32}

/-! ## Steps -/

/-- A wait that has not failed: the next completion has come. -/
def Came (sendInline : Bool) (next r : Record) (x : Int × Bool) : Prop :=
  x.2 = sendInline ∧ r = next

lemma sendComp_good (hallowed : r.allowed clientMessage 2 side .getSendComp) :
    Obeys (sharing side) (Came sendInline { r with sendComps := r.sendComps + 1 })
      ((waitSendComp fuel).run sendInline) r := by
  apply waitSendComp_obeys
  · exact hallowed
  · show { r with sendComps := r.sendComps + 0, failed := r.failed || false } = r
    rw [Bool.or_false]
    rfl
  · intro ret hret hgood
    have hnonneg : ¬ ret < 0 := of_decide_eq_false hgood
    refine ⟨rfl, ?_⟩
    show { r with
      sendComps := r.sendComps + if 0 < ret then 1 else 0
      failed := r.failed || decide (ret < 0) } = _
    rw [if_pos (by omega), decide_eq_false hnonneg, Bool.or_false]

lemma recvComp_good (hallowed : r.allowed clientMessage 2 side .getRecvComp) :
    Obeys (sharing side) (Came sendInline { r with recvComps := r.recvComps + 1 })
      ((waitRecvComp fuel).run sendInline) r := by
  apply waitRecvComp_obeys
  · exact hallowed
  · show { r with recvComps := r.recvComps + 0, failed := r.failed || false } = r
    rw [Bool.or_false]
    rfl
  · intro ret hret hgood
    have hnonneg : ¬ ret < 0 := of_decide_eq_false hgood
    refine ⟨rfl, ?_⟩
    show { r with
      recvComps := r.recvComps + if 0 < ret then 1 else 0
      failed := r.failed || decide (ret < 0) } = _
    rw [if_pos (by omega), decide_eq_false hnonneg, Bool.or_false]

lemma pollCq_good (hallowed : r.allowed clientMessage 2 side .pollCq) :
    Obeys (sharing side) (Came sendInline { r with sendComps := r.sendComps + 1 })
      ((pollCq fuel).run sendInline) r := by
  induction fuel with
  | zero => exact Obeys.halt
  | succ fuel ih =>
      refine Obeys.perform_bind hallowed fun ret hgood => ?_
      have hnonneg : ¬ ret < 0 := of_decide_eq_false hgood
      have hafter : r.after ⟨.pollCq, ret⟩ =
          { r with sendComps := r.sendComps + if 0 < ret then 1 else 0 } := by
        show { r with
          sendComps := r.sendComps + if 0 < ret then 1 else 0
          failed := r.failed || decide (ret < 0) } = _
        rw [decide_eq_false hnonneg, Bool.or_false]
      show Obeys _ _ _ (r.after ⟨.pollCq, ret⟩)
      rw [hafter]
      refine Obeys.ite (fun hret => ?_) fun hret => Obeys.pure ⟨rfl, ?_⟩
      · subst hret
        exact ih
      · have hpos : (0 : Int) < ret := lt_of_le_of_ne (not_lt.mp hnonneg) (Ne.symm hret)
        rw [if_pos hpos]

end

/-! ## The server -/

section

variable {side : Side} {sendInline : Bool} {fuel : ℕ} {message : List UInt8} {k a : List UInt8}

lemma zeros_fits : 0 + (List.replicate bufferSize (0 : UInt8)).length ≤ bufferSize := by simp

/-- What the server has done when it has its region. -/
def told (k a : List UInt8) (mr : Mr) : Record :=
  { connected (List.replicate bufferSize 0) with
    recvPosts := 2, recvComps := 2, sends := 1, posts := 1, sendComps := 1
    sent := [List.replicate bufferSize 0]
    stored := datBuffer
    localMr := some mr
    loads := [(0, 4, k), (4, 8, a)] }

lemma serverAccess_exchange {mr : Mr} : Obeys (sharing .server) (fun r x => Ends r x.1.ret)
    ((serverAccess fuel (some mr) (UInt64.ofNat (ofBytes a)) (UInt32.ofNat (ofBytes k))).run
      sendInline) (told k a mr) := by
  have htold : Record.Told (told k a mr) (UInt64.ofNat (ofBytes a)) (UInt32.ofNat (ofBytes k)) :=
    ⟨k, a, rfl, rfl, rfl⟩
  refine Obeys.perform_bind ⟨⟨rfl, rfl, rfl, Nat.one_lt_two, Nat.one_lt_two, rfl, rfl, rfl, htold⟩,
    rfl⟩ fun ret _ => next_exchange (fun h => decide_eq_true h) ?_
  rintro rfl
  refine Obeys.bind (pollCq_good Nat.one_lt_two) ?_
  rintro _ _ _ ⟨rfl, rfl⟩
  refine Obeys.perform_bind ⟨Or.inr ⟨rfl, le_rfl⟩, zeros_fits, rfl⟩ fun _ _ => ?_
  refine Obeys.perform_bind ⟨rfl, rfl, rfl, Nat.one_lt_two, Nat.one_lt_two, rfl, rfl, rfl, htold⟩
    fun ret _ => next_exchange (fun h => decide_eq_true h) ?_
  rintro rfl
  refine Obeys.bind (pollCq_good (Nat.lt_succ_self 2)) ?_
  rintro _ _ _ ⟨rfl, rfl⟩
  refine postSend_exchange ⟨⟨rfl, Nat.one_lt_two, rfl, Nat.one_lt_two⟩, fun _ => rfl⟩ ?_
  exact lastWait_exchange (sendComp_exchange (Nat.lt_succ_self 3)) rfl ⟨rfl, rfl, rfl, rfl, rfl⟩
    trivial

lemma not_good_none {buf : Buffer} : ¬ Good ⟨.regMr buf, (none : Option Mr)⟩ := by
  simp [Good, failed]

lemma allowed_regMr (side : Side) {r : Record} {buf : Buffer} (hbuf : buf ≠ .rdmaBuff) :
    r.allowed clientMessage 2 side (.regMr buf) := fun h => absurd h hbuf

/-- The server, from the connection on. -/
lemma serverExchange_exchange : Obeys (sharing .server) (fun r x => Ends r x.1.ret)
    ((serverExchange fuel).run sendInline) (connected (List.replicate bufferSize 0)) := by
  refine attemptWait_exchange (recvComp_exchange ⟨rfl, one_pos, rfl⟩) ?_
  refine postSend_exchange
    ⟨⟨rfl, two_pos, rfl, one_pos⟩, fun h => absurd h (by simp [connected])⟩ ?_
  refine Obeys.bind (sendComp_good one_pos) ?_
  rintro _ _ sendInline ⟨rfl, rfl⟩
  refine Obeys.perform_bind ⟨Nat.one_lt_two, rfl⟩ fun ret _ =>
    next_exchange (fun h => decide_eq_true h) ?_
  rintro rfl
  refine attemptWait_exchange (recvComp_exchange ⟨rfl, Nat.one_lt_two, rfl⟩) ?_
  refine Obeys.perform_bind ⟨rfl, Nat.one_lt_two, rfl⟩ fun k _ => ?_
  refine Obeys.perform_bind ⟨rfl, Nat.one_lt_two, rfl⟩ fun a _ => ?_
  refine Obeys.perform_bind ⟨Or.inr ⟨rfl, Nat.le_succ _⟩, dat_fits, rfl⟩ fun _ _ => ?_
  refine Obeys.perform_bind (allowed_regMr .server (by simp)) fun mr hgood => ?_
  cases mr with
  | none => exact absurd hgood not_good_none
  | some mr => exact serverAccess_exchange

/-! ## The client -/

/-- What the client has done when it has its region, with this in its buffer. -/
def prepared (message : List UInt8) (mr : Mr) : Record :=
  { connected message with
    recvComps := 1, sends := 1, posts := 1, sendComps := 1
    sent := [List.replicate bufferSize 0]
    region := some mr }

lemma clientTell_exchange {mr : Mr} (hmessage : clientMessage mr.rkey mr.addr = some message) :
    Obeys (sharing .client) (fun r x => Ends r x.1.ret) ((clientTell fuel).run sendInline)
      (prepared message mr) := by
  refine postSend_exchange ⟨⟨rfl, Nat.one_lt_two, rfl, Nat.one_lt_two⟩,
    fun _ => ⟨mr, rfl, hmessage⟩⟩ ?_
  refine attemptWait_exchange (sendComp_exchange Nat.one_lt_two) ?_
  refine Obeys.perform_bind ⟨Nat.one_lt_two, rfl⟩ fun ret _ =>
    next_exchange (fun h => decide_eq_true h) ?_
  rintro rfl
  exact lastWait_exchange (recvComp_exchange ⟨rfl, Nat.one_lt_two, rfl⟩) rfl
    ⟨rfl, rfl, rfl, rfl, rfl⟩ trivial

lemma clientShare_exchange {mr : Mr} : Obeys (sharing .client) (fun r x => Ends r x.1.ret)
    ((clientShare fuel mr).run sendInline) (prepared (List.replicate bufferSize 0) mr) := by
  have hcopied := memccpy_length 0 (toBytes 4 mr.rkey.toNat)
  rw [length_toBytes] at hcopied
  refine Obeys.perform_bind ⟨Or.inl rfl, ?_, rfl⟩ fun _ _ => ?_
  · exact (Nat.zero_add _).trans_le (hcopied.1.trans (by simp [bufferSize]))
  split
  · exact Obeys.perform_bind trivial fun _ _ => Obeys.halt
  · rename_i temp htemp
    refine Obeys.perform_bind ⟨Or.inl rfl, ?_, rfl⟩ fun _ _ => clientTell_exchange ?_
    · have htemp' := hcopied.2 temp htemp
      rw [length_toBytes, bufferSize]
      omega
    rw [clientMessage_stores, htemp]
    rfl

/-- The client, from the connection on. -/
lemma clientExchange_exchange : Obeys (sharing .client) (fun r x => Ends r x.1.ret)
    ((clientExchange fuel).run sendInline) (connected (List.replicate bufferSize 0)) := by
  refine postSend_exchange
    ⟨⟨rfl, two_pos, rfl, one_pos⟩, fun h => absurd h (by simp [connected])⟩ ?_
  refine attemptWait_exchange (sendComp_exchange one_pos) ?_
  refine Obeys.bind (recvComp_good ⟨rfl, one_pos, rfl⟩) ?_
  rintro _ _ sendInline ⟨rfl, rfl⟩
  refine Obeys.perform_bind (fun _ => ⟨rfl, rfl⟩) fun mr hgood => ?_
  cases mr with
  | none => exact absurd hgood not_good_none
  | some mr => exact clientShare_exchange

/-- **Both sides keep to the exchange** of two messages, as long as no verb fails. -/
theorem nodeRun_exchange (side : Side) : Obeys (sharing side) (fun r x => Ends r x.1)
    ((nodeRun fuel side).run sendInline) {} := by
  cases side with
  | server => exact leave_exchange (serverStart_exchange two_pos fun _ => serverExchange_exchange)
  | client => exact leave_exchange (clientStart_exchange two_pos fun _ => clientExchange_exchange)

end

end RdmaTest
