import RdmaExamples.Messages.Exchange

/-!
# Programs that keep to the exchange

The parts of `server_run` and `client_run` that both programs have, next to the monitor `exchange`:
the connection (`serverStart_exchange`, `clientStart_exchange`), a message sent
(`postSend_exchange`), a wait for a completion (`sendComp_exchange`, `recvComp_exchange`) and what
is behind the labels (`goto_exchange`).  Each lemma says what the record is before and after, so
that what a whole program does is put together of them.

A function leaves the exchange as `LeavesIn` says: with `0` just if its record has no failure, and
then with the exchange done.  Every test leaves with the result of a verb that failed, which is not
`0`, and what comes behind the labels does not change the record's failure.
-/

namespace Messages

open Programs Systems Monitors

/-- Where a function may leave the exchange, with messages of this kind.  It returns `0` where no
verb failed, and only there; then all its messages are sent, and they are of that kind. -/
structure LeavesIn (n : ℕ) (kind : List (List UInt8) → Prop) (r : Record) (ret : Int) : Prop where
  zero : ret = 0 ↔ r.failed = false
  done : r.failed = false → r.Done n
  sent : r.failed = false → kind r.sent

lemma dat_fits : 0 + dat.length ≤ bufferSize := by simp [dat, bufferSize]

section

variable {tell : Tell} {n : ℕ} {kind : List (List UInt8) → Prop} {side : Side} {sendInline : Bool}
  {label : Label} {r : Record} {ret : Int} {message : List UInt8} {fuel : ℕ}
  {expected : Record → Event Call Reply → Prop} {body rest : MsgM Exit}

/-- A verb has failed. -/
lemma LeavesIn.of_failed (hret : ret ≠ 0) (hfailed : r.failed = true) : LeavesIn n kind r ret where
  zero := by simp [hret, hfailed]
  done h := absurd (hfailed.symm.trans h) (by simp)
  sent h := absurd (hfailed.symm.trans h) (by simp)

/-- A label keeps what the exchange has come to. -/
theorem goto_exchange (hdone : r.failed = false → r.Done n) :
    Obeys (exchange tell n side expected) (fun r' _ => r'.failed = r.failed ∧ r'.sent = r.sent ∧
      (r'.failed = false → r'.Done n)) ((goto side label).run sendInline) r := by
  refine (Obeys.of_watch (J := fun r' => r'.failed = r.failed ∧ r'.sent = r.sent ∧
    (r'.failed = false → r'.Done n)) ?_ (goto_calls label) ⟨rfl, rfl, hdone⟩).weaken
      fun _ _ h => h.1
  rintro r' c ⟨hfailed, hsent, hdone'⟩ hc
  cases c with
  | disconnect | destroyEp | deregMr _ | destroyListenEp | freeaddrinfo =>
      refine ⟨?_, fun _ => ⟨(Bool.or_false _).trans hfailed, hsent, fun hf => ?_⟩⟩
      · first | exact hdone' | exact fun _ => hdone' | exact trivial
      · have h := hdone' ((Bool.or_false _).symm.trans hf)
        exact ⟨h.up, h.sends, h.recvPosts, h.recvComps, h.sendComps⟩
  | _ => exact hc.elim

/-- A function that leaves the exchange. -/
theorem leave_exchange
    (hbody : Obeys (exchange tell n side expected) (fun r' x => LeavesIn n kind r' x.1.ret)
      (body.run sendInline) r) :
    Obeys (exchange tell n side expected) (fun r' x => LeavesIn n kind r' x.1)
      ((leave side body).run sendInline) r := by
  refine Obeys.bind hbody ?_
  intro r' exit sendInline hleaves
  refine Obeys.bind (goto_exchange hleaves.done) ?_
  rintro r'' _ _ ⟨hfailed, hsent, hdone⟩
  refine Obeys.pure ⟨hleaves.zero.trans (by rw [hfailed]), hdone, fun hf => ?_⟩
  rw [hsent]
  exact hleaves.sent (hfailed.symm.trans hf)

/-! ## The connection -/

/-- What a side has done when it has its connection, with this to send. -/
def connected (message : List UInt8) : Record :=
  { requested := true, up := true, recvPosts := 1, message := message }

/-- Past a verb, whether it has failed or not. -/
lemma next_exchange (hfailed : ret ≠ 0 → r.failed = true)
    (hnext : ret = 0 →
      Obeys (exchange tell n side expected) (fun r' x => LeavesIn n kind r' x.1.ret)
      (rest.run sendInline) r) :
    Obeys (exchange tell n side expected) (fun r' x => LeavesIn n kind r' x.1.ret)
      ((if ret ≠ 0 then pure ⟨label, ret⟩ else rest : MsgM Exit).run sendInline) r := by
  by_cases hret : ret = 0
  · exact goesOn hret (hnext hret)
  · exact leaves hret (LeavesIn.of_failed hret (hfailed hret))

lemma queryCaps_exchange
    (hrest : ∀ sendInline,
      Obeys (exchange tell n side expected) (fun r' x => LeavesIn n kind r' x.1.ret)
      (rest.run sendInline) { message := message }) :
    Obeys (exchange tell n side expected) (fun r' x => LeavesIn n kind r' x.1.ret)
      ((queryCaps rest).run sendInline) { message := message } := by
  refine Obeys.perform_bind trivial fun caps _ => ?_
  obtain ⟨ret, maxInlineData⟩ := caps
  by_cases hret : ret = 0
  · subst hret
    exact Obeys.ite (fun hne => absurd rfl hne) fun _ => Obeys.modify_bind (hrest _)
  · refine Obeys.ite (fun _ => ?_) fun heq => absurd hret heq
    exact LeavesIn.of_failed hret (decide_eq_true hret)

lemma createEp_exchange
    (hrest : ∀ sendInline,
      Obeys (exchange tell n side expected) (fun r' x => LeavesIn n kind r' x.1.ret)
      (rest.run sendInline) { message := message }) :
    Obeys (exchange tell n side expected) (fun r' x => LeavesIn n kind r' x.1.ret)
      ((createEp rest).run sendInline) { message := message } := by
  refine Obeys.perform_bind trivial fun caps _ => Obeys.modify_bind ?_
  obtain ⟨ret, maxInlineData⟩ := caps
  by_cases hret : ret = 0
  · subst hret
    exact Obeys.ite (fun hne => absurd rfl hne) fun _ => hrest _
  · refine Obeys.ite (fun _ => ?_) fun heq => absurd hret heq
    exact LeavesIn.of_failed hret (decide_eq_true hret)

lemma regBuffers_exchange
    (hrest : Obeys (exchange tell n side expected) (fun r' x => LeavesIn n kind r' x.1.ret)
      (rest.run sendInline) { message := message }) :
    Obeys (exchange tell n side expected) (fun r' x => LeavesIn n kind r' x.1.ret)
      ((regBuffers rest).run sendInline) { message := message } := by
  refine Obeys.perform_bind trivial fun mr _ => ?_
  cases mr with
  | false => exact LeavesIn.of_failed (by simp) rfl
  | true =>
      refine Obeys.get_bind (Obeys.ite (fun _ => ?_) fun _ => hrest)
      refine Obeys.perform_bind trivial fun sendMr _ => ?_
      cases sendMr with
      | false => exact LeavesIn.of_failed (by simp) rfl
      | true => exact hrest

/-- The server up to the connection. -/
theorem serverStart_exchange (hn : 0 < n)
    (hrest : ∀ sendInline, Obeys (exchange tell n .server expected)
      (fun r' x => LeavesIn n kind r' x.1.ret) (rest.run sendInline) (connected message)) :
    Obeys (exchange tell n .server expected) (fun r' x => LeavesIn n kind r' x.1.ret)
      ((serverStart rest).run sendInline) { message := message } := by
  refine Obeys.perform_bind trivial fun ret _ => next_exchange (fun h => decide_eq_true h) ?_
  rintro rfl
  refine Obeys.perform_bind trivial fun ret _ => next_exchange (fun h => decide_eq_true h) ?_
  rintro rfl
  refine Obeys.perform_bind trivial fun ret _ => next_exchange (fun h => decide_eq_true h) ?_
  rintro rfl
  refine Obeys.perform_bind rfl fun ret _ => next_exchange (fun h => decide_eq_true h) ?_
  rintro rfl
  refine queryCaps_exchange fun sendInline => regBuffers_exchange ?_
  refine Obeys.perform_bind ⟨hn, rfl⟩ fun ret _ => next_exchange (fun h => decide_eq_true h) ?_
  rintro rfl
  rw [attempt_rdmaAccept]
  refine Obeys.perform_bind ⟨rfl, one_pos⟩ fun ret _ => next_exchange (fun h => decide_eq_true h) ?_
  rintro rfl
  refine Obeys.perform_bind rfl fun ret _ => next_exchange (fun h => decide_eq_true h) ?_
  rintro rfl
  exact hrest sendInline

/-- The client up to the connection. -/
theorem clientStart_exchange (hn : 0 < n)
    (hrest : ∀ sendInline, Obeys (exchange tell n .client expected)
      (fun r' x => LeavesIn n kind r' x.1.ret) (rest.run sendInline) (connected message)) :
    Obeys (exchange tell n .client expected) (fun r' x => LeavesIn n kind r' x.1.ret)
      ((clientStart rest).run sendInline) { message := message } := by
  refine Obeys.perform_bind trivial fun ret _ => next_exchange (fun h => decide_eq_true h) ?_
  rintro rfl
  refine createEp_exchange fun sendInline => regBuffers_exchange ?_
  refine Obeys.perform_bind ⟨hn, rfl⟩ fun ret _ => next_exchange (fun h => decide_eq_true h) ?_
  rintro rfl
  rw [attempt_rdmaConnect]
  refine Obeys.perform_bind ⟨rfl, one_pos⟩ fun ret _ => next_exchange (fun h => decide_eq_true h) ?_
  rintro rfl
  refine Obeys.perform_bind rfl fun ret _ => next_exchange (fun h => decide_eq_true h) ?_
  rintro rfl
  exact hrest sendInline

/-! ## The messages -/

/-- After a wait: it has failed, or the next completion has come. -/
def Waited (sendInline : Bool) (next r : Record) (x : Int × Bool) : Prop :=
  x.2 = sendInline ∧ (x.1 < 0 ∧ r.failed = true ∨ 0 < x.1 ∧ r = next)

lemma sendComp_exchange (hallowed : r.allowed tell n side .getSendComp) :
    Obeys (exchange tell n side expected)
      (Waited sendInline { r with sendComps := r.sendComps + 1 })
      ((waitSendComp fuel).run sendInline) r := by
  apply waitSendComp_obeys
  · exact hallowed
  · show { r with sendComps := r.sendComps + 0, failed := r.failed || false } = r
    rw [Bool.or_false]
    rfl
  · intro ret hret _
    refine ⟨rfl, ?_⟩
    rcases lt_or_gt_of_ne hret with hneg | hpos
    · refine Or.inl ⟨hneg, ?_⟩
      show (r.failed || decide (ret < 0)) = true
      rw [decide_eq_true hneg, Bool.or_true]
    · refine Or.inr ⟨hpos, ?_⟩
      show { r with
        sendComps := r.sendComps + if 0 < ret then 1 else 0
        failed := r.failed || decide (ret < 0) } = _
      rw [if_pos hpos, decide_eq_false (by omega), Bool.or_false]

lemma recvComp_exchange (hallowed : r.allowed tell n side .getRecvComp) :
    Obeys (exchange tell n side expected)
      (Waited sendInline { r with recvComps := r.recvComps + 1 })
      ((waitRecvComp fuel).run sendInline) r := by
  apply waitRecvComp_obeys
  · exact hallowed
  · show { r with recvComps := r.recvComps + 0, failed := r.failed || false } = r
    rw [Bool.or_false]
    rfl
  · intro ret hret _
    refine ⟨rfl, ?_⟩
    rcases lt_or_gt_of_ne hret with hneg | hpos
    · refine Or.inl ⟨hneg, ?_⟩
      show (r.failed || decide (ret < 0)) = true
      rw [decide_eq_true hneg, Bool.or_true]
    · refine Or.inr ⟨hpos, ?_⟩
      show { r with
        recvComps := r.recvComps + if 0 < ret then 1 else 0
        failed := r.failed || decide (ret < 0) } = _
      rw [if_pos hpos, decide_eq_false (by omega), Bool.or_false]

/-- A wait that leaves the exchange if it fails. -/
lemma attemptWait_exchange {wait : MsgM Int} {next : Record}
    (hwait : Obeys (exchange tell n side expected) (Waited sendInline next) (wait.run sendInline) r)
    (hrest : Obeys (exchange tell n side expected) (fun r' x => LeavesIn n kind r' x.1.ret)
      (rest.run sendInline) next) :
    Obeys (exchange tell n side expected) (fun r' x => LeavesIn n kind r' x.1.ret)
      ((attemptWait label wait rest).run sendInline) r := by
  refine attemptWait_obeys hwait ?_ ?_
  · rintro r' ret _ hneg ⟨rfl, ⟨-, hfailed⟩ | ⟨hpos, -⟩⟩
    · exact LeavesIn.of_failed hneg.ne hfailed
    · exact absurd hneg (by omega)
  · rintro r' ret _ hnonneg ⟨rfl, ⟨hneg, -⟩ | ⟨-, rfl⟩⟩
    · exact absurd hneg hnonneg
    · exact hrest

/-- The last wait of an exchange. -/
lemma lastWait_exchange {wait : MsgM Int} {next : Record}
    (hwait : Obeys (exchange tell n side expected) (Waited sendInline next) (wait.run sendInline) r)
    (hgood : next.failed = false) (hdone : next.Done n) (hsent : kind next.sent) :
    Obeys (exchange tell n side expected) (fun r' x => LeavesIn n kind r' x.1.ret)
      ((lastWait label wait).run sendInline) r := by
  refine lastWait_obeys hwait ?_
  rintro r' ret _ ⟨rfl, ⟨hneg, hfailed⟩ | ⟨hpos, rfl⟩⟩
  · rw [if_pos hneg]
    exact LeavesIn.of_failed hneg.ne hfailed
  · rw [if_neg (by omega)]
    exact ⟨by simp [hgood], fun _ => hdone, fun _ => hsent⟩

/-- A message is sent. -/
lemma postSend_exchange (hallowed : r.allowed tell n side (.postSend sendInline))
    (hrest : Obeys (exchange tell n side expected) (fun r' x => LeavesIn n kind r' x.1.ret)
      (rest.run sendInline)
      { r with sends := r.sends + 1, posts := r.posts + 1, sent := r.sent ++ [r.message] }) :
    Obeys (exchange tell n side expected) (fun r' x => LeavesIn n kind r' x.1.ret)
      ((attempt label rdmaPostSend rest).run sendInline) r := by
  refine Obeys.perform_bind hallowed fun ret _ => next_exchange (fun h => ?_) ?_
  · show (r.failed || decide (ret ≠ 0)) = true
    rw [decide_eq_true h, Bool.or_true]
  · rintro rfl
    have hnext : r.after ⟨.postSend sendInline, (0 : Int)⟩ =
        { r with sends := r.sends + 1, posts := r.posts + 1, sent := r.sent ++ [r.message] } := by
      show { r with
        sends := r.sends + 1
        posts := r.posts + 1
        sent := r.sent ++ [r.message]
        failed := r.failed || false } = _
      rw [Bool.or_false]
    show Obeys _ _ _ (r.after ⟨.postSend sendInline, (0 : Int)⟩)
    rw [hnext]
    exact hrest

/-- The record has failed if a verb has. -/
lemma failed_foldl (t : Trace) : (t.foldl Record.after r).failed = (r.failed || t.any failed) := by
  induction t generalizing r with
  | nil => simp
  | cons e t ih =>
      rw [List.foldl_cons, ih, List.any_cons, ← Bool.or_assoc]
      rfl

end

end Messages
