import RdmaExamples.Apm.PingPong

/-!
# The runs of main

`main` prepares, connects, loads the alternate path, goes round its message loop and cleans up.
`main_run` takes a run apart into these, and says what each of them may call and which of the
options it leaves as they are.

A part of the message loop ends in one of three ways (`Ended`): it came to its end; a call failed
and the loop was left with `break`, or a call failed whose result `main` returns.  Each part ends
so, and one behind the other does (`EndsAs.andThen`), so that the whole loop does
(`transfer_ended`).

* `sent`, `received` — the messages that went through: their completion tells of success.
* `messageBreaks`, `messageFails` — the failures that the code sees, and those that there are.  A
  completion with an error status is one of the second kind only, since `wc.status` is never looked
  at.
* `Counted` — a part that is to send `s` messages and to receive `r` sends and receives no more, and
  just as many where no message fails.
-/

namespace Apm

open Programs

/-! ## Messages in a run

A message is sent when its completion tells of success, and received when its receive has completed
and is posted anew.  Both are read off the calls. -/

/-- A send that comes back to the code, with whatever status. -/
def completesSend : Event Call Reply → Bool
  | ⟨.getSendComp, comp⟩ => decide (0 ≤ comp.ret)
  | _ => false

/-- How many sends have come back. -/
def completed (t : Trace) : ℕ := t.countP completesSend

/-- A send that is completed with success. -/
def sendsMessage : Event Call Reply → Bool
  | ⟨.getSendComp, comp⟩ => comp.good
  | _ => false

/-- How many messages are sent. -/
def sent (t : Trace) : ℕ := t.countP sendsMessage

/-- How many messages are received: the receive is completed with success, and its buffer posted
anew. -/
def received : Trace → ℕ
  | [] => 0
  | ⟨.getRecvComp, comp⟩ :: ⟨.postRecv _, ret⟩ :: t =>
      (if comp.good = true ∧ ret = 0 then 1 else 0) + received t
  | _ :: t => received t

/-- A call on which the message loop is left with `break`. -/
def messageBreaks : Event Call Reply → Bool
  | ⟨.postSend _, ret⟩ => decide (ret ≠ 0)
  | ⟨.getSendComp, comp⟩ => decide (comp.ret < 0)
  | ⟨.getRecvComp, comp⟩ => decide (comp.ret < 0)
  | ⟨.postRecv _, ret⟩ => decide (ret ≠ 0)
  | _ => false

/-- A message that fails, on its way out or in: it is not posted, or not completed with success. -/
def messageFails : Event Call Reply → Bool
  | ⟨.postSend _, ret⟩ => decide (ret ≠ 0)
  | ⟨.getSendComp, comp⟩ => !comp.good
  | ⟨.getRecvComp, comp⟩ => !comp.good
  | ⟨.postRecv _, ret⟩ => decide (ret ≠ 0)
  | _ => false

/-- A failure that `main` returns, once it is connected. -/
def pathFails : Event Call Reply → Bool
  | ⟨.queryQp, .error _⟩ => true
  | ⟨.loadPath _, ret⟩ => decide (ret ≠ 0)
  | ⟨.migrate, ret⟩ => decide (ret ≠ 0)
  | _ => false

/-- A call that neither sends nor receives, nor loads a path. -/
def aside : Call → Bool
  | .postRecv _ => false
  | .loadPath _ => false
  | .migrate => false
  | .postSend _ => false
  | .getSendComp => false
  | .getRecvComp => false
  | _ => true

/-- What is called at the end. -/
def closing : Call → Bool
  | .disconnect => true
  | .deregMr _ => true
  | .destroyEp _ => true
  | _ => false

section Messages

variable {t t' : Trace} {e : Event Call Reply}

lemma sent_append : sent (t ++ t') = sent t + sent t' := List.countP_append

lemma sent_postRecv {length : Int} {ret : Reply (.postRecv length)} :
    sent (⟨.postRecv length, ret⟩ :: t) = sent t := by
  rw [sent, List.countP_cons_of_neg (by simp [sendsMessage]), sent]

lemma sent_of_aside (h : ∀ e ∈ t, aside e.1 = true) : sent t = 0 := by
  refine List.countP_eq_zero.mpr fun e he => ?_
  have haside := h e he
  obtain ⟨c, ret⟩ := e
  cases c <;> simp_all [sendsMessage, aside]

lemma completed_append : completed (t ++ t') = completed t + completed t' := List.countP_append

lemma completesSend_aside (h : aside e.1 = true) : completesSend e = false := by
  obtain ⟨c, ret⟩ := e
  cases c <;> first | rfl | simp [aside] at h

lemma completed_of_aside (h : ∀ e ∈ t, aside e.1 = true) : completed t = 0 := by
  refine List.countP_eq_zero.mpr fun e he => ?_
  simp [completesSend_aside (h e he)]

lemma good_of_neg {comp : Completion} (h : comp.ret < 0) : comp.good = false := by
  simp [Completion.good, h.le]

/-- What the code sees is a failure. -/
lemma messageFails_of_breaks (h : messageBreaks e = true) : messageFails e = true := by
  obtain ⟨c, ret⟩ := e
  cases c with
  | postSend length => exact h
  | postRecv length => exact h
  | getSendComp => simp [messageFails, good_of_neg (of_decide_eq_true h)]
  | getRecvComp => simp [messageFails, good_of_neg (of_decide_eq_true h)]
  | _ => exact absurd h (by simp [messageBreaks])

/-- Nothing that follows completes a message of `t`. -/
def Closed (t : Trace) : Prop := ∀ t', received (t ++ t') = received t + received t'

lemma Closed.nil : Closed [] := fun _ => (Nat.zero_add _).symm

lemma Closed.append (h : Closed t) (h' : Closed t') : Closed (t ++ t') := by
  intro t''
  rw [List.append_assoc, h, h', h, Nat.add_assoc]

lemma received_aside (h : aside e.1 = true) : received (e :: t) = received t := by
  obtain ⟨c, ret⟩ := e
  cases c <;> first | rfl | simp [aside] at h

lemma closed_of_aside (h : ∀ e ∈ t, aside e.1 = true) : Closed t ∧ received t = 0 := by
  induction t with
  | nil => exact ⟨Closed.nil, rfl⟩
  | cons e t ih =>
      obtain ⟨he, ht⟩ := List.forall_mem_cons.mp h
      obtain ⟨hclosed, hnone⟩ := ih ht
      refine ⟨fun t' => ?_, (received_aside he).trans hnone⟩
      rw [List.cons_append, received_aside he, received_aside he, hclosed]

lemma messageFails_aside (h : aside e.1 = true) : messageFails e = false := by
  obtain ⟨c, ret⟩ := e
  cases c <;> first | rfl | simp [aside] at h

lemma aside_of_closing {c : Call} (h : closing c = true) : aside c = true := by
  cases c <;> first | rfl | simp [closing] at h

lemma pathFails_closing (h : closing e.1 = true) : pathFails e = false := by
  obtain ⟨c, ret⟩ := e
  cases c <;> first | rfl | simp [closing] at h

end Messages

/-! ## How a part of the message loop ends

Each part is to send and receive so many messages.  `Ended` says how it can end, and what it has
sent and received in each case; it is closed under putting parts one behind the other. -/

/-- A part that is to send `s` messages and to receive `r`: it does no more, and just that where no
message fails. -/
structure Counted (s r : ℕ) (t : Trace) : Prop where
  sent_le : sent t ≤ s
  received_le : received t ≤ r
  closed : Closed t
  fine_iff : (∀ e ∈ t, messageFails e = false) ↔ sent t = s ∧ received t = r

/-- How a part ends that is to send `s` messages and to receive `r`: all its sends came back, or the
code saw a message fail, or a call failed whose result goes to `out`. -/
inductive Ended (s r : ℕ) : Flow → Trace → Prop
  | next {t : Trace} (hcompleted : completed t = s) (hcounted : Counted s r t)
      (hpath : ∀ e ∈ t, pathFails e = false) : Ended s r .next t
  | broke {t : Trace} (hcounted : Counted s r t) (hbreaks : ∃ e ∈ t, messageBreaks e = true)
      (hpath : ∀ e ∈ t, pathFails e = false) : Ended s r .broke t
  | out {t : Trace} {ret : Int} (hret : ret ≠ 0) (hfails : ∃ e ∈ t, pathFails e = true) :
      Ended s r (.out ret) t

/-- All complete runs of a part end so. -/
def EndsAs (m : ApmM (Flow × Counts)) (s r : ℕ) : Prop :=
  ∀ ctx t flow counts ctx', Returns (m.run ctx) t ((flow, counts), ctx') → Ended s r flow t

section Parts

variable {t t' : Trace} {s r s' r' : ℕ} {flow : Flow} {counts : Counts} {ctx ctx' : Context}

/-- Messages that were to come after one that failed. -/
lemma Counted.skip (h : Counted s r t) (hfails : ∃ e ∈ t, messageFails e = true) :
    Counted (s + s') (r + r') t := by
  have hsent := h.sent_le
  have hreceived := h.received_le
  have hbad : ¬ ∀ e ∈ t, messageFails e = false := by
    obtain ⟨e, he, hfails⟩ := hfails
    exact fun hfine => absurd (hfine e he) (by simp [hfails])
  refine ⟨by omega, by omega, h.closed, iff_of_false hbad fun hall => hbad (h.fine_iff.mpr ?_)⟩
  omega

/-- The messages of two parts: what is sent of both is what is sent of each. -/
lemma Counted.append (h : Counted s r t) (h' : Counted s' r' t') :
    Counted (s + s') (r + r') (t ++ t') := by
  have hsent := h.sent_le
  have hreceived := h.received_le
  have hsent' := h'.sent_le
  have hreceived' := h'.received_le
  refine ⟨?_, ?_, h.closed.append h'.closed, ?_⟩
  · rw [sent_append]
    omega
  · rw [h.closed]
    omega
  · rw [List.forall_mem_append, h.fine_iff, h'.fine_iff, sent_append, h.closed]
    omega

/-- What was to come after a part that has not gone through. -/
lemma Ended.skip (h : Ended s r flow t) (hflow : flow ≠ .next) :
    Ended (s + s') (r + r') flow t := by
  cases h with
  | next => exact absurd rfl hflow
  | broke hcounted hbreaks hpath =>
      have hfails : ∃ e ∈ t, messageFails e = true := by
        obtain ⟨e, he, hbreaks⟩ := hbreaks
        exact ⟨e, he, messageFails_of_breaks hbreaks⟩
      exact .broke (hcounted.skip hfails) hbreaks hpath
  | out hret hfails => exact .out hret hfails

lemma Ended.append (h : Ended s r .next t) (h' : Ended s' r' flow t') :
    Ended (s + s') (r + r') flow (t ++ t') := by
  cases h with
  | next hcompleted hcounted hpath =>
      cases h' with
      | next hcompleted' hcounted' hpath' =>
          refine .next ?_ (hcounted.append hcounted') (List.forall_mem_append.mpr ⟨hpath, hpath'⟩)
          rw [completed_append, hcompleted, hcompleted']
      | broke hcounted' hbreaks hpath' =>
          obtain ⟨e, he, hbreaks⟩ := hbreaks
          exact .broke (hcounted.append hcounted') ⟨e, List.mem_append_right _ he, hbreaks⟩
            (List.forall_mem_append.mpr ⟨hpath, hpath'⟩)
      | out hret hfails =>
          obtain ⟨e, he, hfails⟩ := hfails
          exact .out hret ⟨e, List.mem_append_right _ he, hfails⟩

/-- **One part after the other.**  A part that did not come to its end leaves out the one behind
it, and the messages that were to come there count as not sent. -/
theorem EndsAs.andThen {m : ApmM (Flow × Counts)} {f : Counts → ApmM (Flow × Counts)}
    (hm : EndsAs m s r) (hf : ∀ counts, EndsAs (f counts) s' r') :
    EndsAs (andThen m f) (s + s') (r + r') := by
  intro ctx t flow counts ctx' h
  rcases returns_andThen h with ⟨hflow, h⟩ | ⟨t₁, t₂, counts₁, ctx₁, rfl, h₁, h₂⟩
  · exact (hm _ _ _ _ _ h).skip hflow
  · exact (hm _ _ _ _ _ h₁).append (hf _ _ _ _ _ _ h₂)

/-- A message to receive. -/
lemma recvMsg_ended {ret : Int} (h : Returns (recvMsg.run ctx) t (ret, ctx')) :
    Ended 0 1 (if ret ≠ 0 then .broke else .next) t := by
  rw [recvMsg, run_get_bind] at h
  obtain ⟨comp, t₁, rfl, h₁⟩ := returns_run_perform_bind.mp h
  split at h₁
  · rename_i hneg
    obtain ⟨rfl, rfl, -⟩ := returns_run_pure.mp h₁
    have hbad := good_of_neg hneg
    have hclosed : Closed [⟨.getRecvComp, comp⟩] := by
      intro t'
      cases t' with
      | nil => rfl
      | cons e t' =>
          obtain ⟨c, ret⟩ := e
          cases c <;> simp [received, hbad]
    rw [if_pos hneg.ne]
    refine .broke ⟨Nat.le_refl 0, Nat.zero_le _, hclosed, ?_⟩
      ⟨_, List.mem_singleton_self _, by simp [messageBreaks, hneg]⟩ (by simp [pathFails])
    simp [messageFails, received, hbad]
  · rename_i hpos
    obtain ⟨post, t₂, rfl, h₂⟩ := returns_run_perform_bind.mp h₁
    have hrest : t₂ = [] ∧ ret = post := by
      split at h₂
      · obtain ⟨rfl, rfl, -⟩ := returns_run_pure.mp h₂
        exact ⟨rfl, rfl⟩
      · rename_i hzero
        obtain ⟨rfl, rfl, -⟩ := returns_run_pure.mp h₂
        exact ⟨rfl, (not_not.mp hzero).symm⟩
    obtain ⟨rfl, rfl⟩ := hrest
    -- one message, which is received where both calls succeed
    have hcounted : Counted 0 1 [⟨.getRecvComp, comp⟩, ⟨.postRecv ctx.msgLength, ret⟩] := by
      refine ⟨Nat.le_refl 0, ?_, fun t' => ?_, ?_⟩
      · rw [received, received]
        split <;> omega
      · rw [List.cons_append, List.cons_append, List.nil_append, received, received, received,
          Nat.add_zero]
      · by_cases hgood : comp.good = true <;> by_cases hret : ret = 0 <;>
          simp [messageFails, sent, sendsMessage, received, hgood, hret]
    by_cases hret : ret = 0
    · rw [if_neg (not_not.mpr hret)]
      exact .next rfl hcounted (by simp [pathFails])
    · rw [if_pos hret]
      exact .broke hcounted ⟨_, List.mem_cons_of_mem _ (List.mem_singleton_self _), by
        simp [messageBreaks, hret]⟩ (by simp [pathFails])

/-- A message to send. -/
lemma sendMsg_ended {ret : Int} (h : Returns (sendMsg.run ctx) t (ret, ctx')) :
    Ended 1 0 (if ret ≠ 0 then .broke else .next) t := by
  rw [sendMsg, run_get_bind] at h
  obtain ⟨post, t₁, rfl, h₁⟩ := returns_run_perform_bind.mp h
  have hsingle : Closed [⟨.postSend ctx.msgLength, post⟩] := fun t' => by simp [received]
  split at h₁
  · rename_i hne
    obtain ⟨rfl, rfl, -⟩ := returns_run_pure.mp h₁
    rw [if_pos hne]
    refine .broke ⟨Nat.zero_le _, Nat.le_refl 0, hsingle, ?_⟩
      ⟨_, List.mem_singleton_self _, by simp [messageBreaks, hne]⟩ (by simp [pathFails])
    simp [messageFails, sent, sendsMessage, hne]
  · rename_i hzero
    obtain ⟨comp, t₂, rfl, h₂⟩ := returns_run_perform_bind.mp h₁
    -- one message, which is sent where its completion tells of success
    have hcounted : Counted 1 0 [⟨.postSend ctx.msgLength, post⟩, ⟨.getSendComp, comp⟩] := by
      refine ⟨?_, Nat.le_refl 0, fun t' => by simp [received], ?_⟩
      · rw [sent, List.countP_cons_of_neg (by simp [sendsMessage])]
        exact List.countP_le_length
      · by_cases hgood : comp.good = true <;>
          simp [messageFails, sent, sendsMessage, received, hgood, not_not.mp hzero]
    split at h₂
    · rename_i hneg
      obtain ⟨rfl, rfl, -⟩ := returns_run_pure.mp h₂
      rw [if_pos hneg.ne]
      exact .broke hcounted ⟨_, List.mem_cons_of_mem _ (List.mem_singleton_self _), by
        simp [messageBreaks, hneg]⟩ (by simp [pathFails])
    · rename_i hpos
      obtain ⟨rfl, rfl, -⟩ := returns_run_pure.mp h₂
      rw [if_neg (not_not.mpr rfl)]
      refine .next ?_ hcounted (by simp [pathFails])
      simp [completed, completesSend, not_lt.mp hpos]

/-- Calls beside the messages. -/
lemma Counted.aside (haside : ∀ e ∈ t, aside e.1 = true) : Counted 0 0 t := by
  obtain ⟨hclosed, hnone⟩ := closed_of_aside haside
  have hsent := sent_of_aside haside
  refine ⟨hsent.le, hnone.le, hclosed, iff_of_true (fun e he => ?_) ⟨hsent, hnone⟩⟩
  exact messageFails_aside (haside e he)

/-- Calls beside the messages, of which none fails. -/
lemma Ended.aside (haside : ∀ e ∈ t, aside e.1 = true) (hfine : ∀ e ∈ t, pathFails e = false) :
    Ended 0 0 .next t := .next (completed_of_aside haside) (Counted.aside haside) hfine

lemma recvPart_ended (turn : Bool) (counts : Counts) :
    EndsAs (recvPart turn counts) 0 turn.toNat := by
  intro ctx t flow counts' ctx' h
  rw [recvPart] at h
  split at h
  · rename_i hturn
    obtain ⟨rfl, heq, -⟩ := returns_run_pure.mp h
    obtain ⟨rfl, -⟩ := Prod.mk.inj heq
    rw [hturn]
    exact Ended.aside (by simp) (by simp)
  · rename_i hturn
    rw [Bool.not_eq_false] at hturn
    obtain ⟨t₁, t₂, ret, ctx₁, rfl, h₁, h₂⟩ := returns_run_bind.mp h
    have hended := recvMsg_ended h₁
    rw [hturn]
    split at h₂
    · rename_i hret
      obtain ⟨rfl, heq, -⟩ := returns_run_pure.mp h₂
      obtain ⟨rfl, -⟩ := Prod.mk.inj heq
      rw [if_pos hret] at hended
      rw [List.append_nil]
      exact hended
    · rename_i hret
      obtain ⟨rfl, heq, -⟩ := returns_run_pure.mp h₂
      obtain ⟨rfl, -⟩ := Prod.mk.inj heq
      rw [if_neg hret] at hended
      rw [List.append_nil]
      exact hended

lemma sendPart_ended (counts : Counts) : EndsAs (sendPart counts) 1 0 := by
  intro ctx t flow counts' ctx' h
  obtain ⟨u, t', rfl, h'⟩ := returns_run_perform_bind.mp h
  obtain ⟨t₁, t₂, ret, ctx₁, rfl, h₁, h₂⟩ := returns_run_bind.mp h'
  have hsleep : Ended 0 0 .next [(⟨.nanosleep, u⟩ : Event Call Reply)] :=
    Ended.aside (by simp [Apm.aside]) (by simp [pathFails])
  have hended := hsleep.append (sendMsg_ended h₁)
  split at h₂
  · rename_i hret
    obtain ⟨rfl, heq, -⟩ := returns_run_pure.mp h₂
    obtain ⟨rfl, -⟩ := Prod.mk.inj heq
    rw [if_pos hret] at hended
    rw [List.append_nil]
    exact hended
  · rename_i hret
    obtain ⟨rfl, heq, -⟩ := returns_run_pure.mp h₂
    obtain ⟨rfl, -⟩ := Prod.mk.inj heq
    rw [if_neg hret] at hended
    rw [List.append_nil]
    exact hended

lemma migratePart_ended (c : Context) (i : Int) (counts : Counts) :
    EndsAs (migratePart c i counts) 0 0 := by
  intro ctx t flow counts' ctx' h
  rw [migratePart] at h
  split at h
  · obtain ⟨rfl, heq, -⟩ := returns_run_pure.mp h
    obtain ⟨rfl, -⟩ := Prod.mk.inj heq
    exact Ended.aside (by simp) (by simp)
  · obtain ⟨ret, t', rfl, h'⟩ := returns_run_perform_bind.mp h
    split at h'
    · rename_i hret
      obtain ⟨rfl, heq, -⟩ := returns_run_pure.mp h'
      obtain ⟨rfl, -⟩ := Prod.mk.inj heq
      exact .out hret ⟨_, List.mem_singleton_self _, by simp [pathFails, hret]⟩
    · rename_i hret
      obtain ⟨rfl, heq, -⟩ := returns_run_pure.mp h'
      obtain ⟨rfl, -⟩ := Prod.mk.inj heq
      refine .next rfl ⟨Nat.le_refl 0, Nat.le_refl 0, fun t' => by simp [received], ?_⟩ ?_
      · simp [messageFails, sent, sendsMessage, received]
      · simp [pathFails, not_not.mp hret]

/-- **One round** is to send and to receive one message. -/
theorem messageRound_ended (c : Context) (i : Int) (counts : Counts) :
    EndsAs (messageRound c i counts) 1 1 := by
  have h := (recvPart_ended c.server counts).andThen fun counts =>
    (sendPart_ended counts).andThen fun counts =>
      (recvPart_ended (!c.server) counts).andThen fun counts => migratePart_ended c i counts
  cases hserver : c.server with
  | false =>
      rw [hserver] at h
      rw [messageRound, hserver]
      exact h
  | true =>
      rw [hserver] at h
      rw [messageRound, hserver]
      exact h

/-- **The message loop** sends and receives as many messages as it has rounds, where no message
fails.  By induction on the rounds; one round and the rest are put together with `EndsAs.andThen`.
-/
theorem messageLoop_ended (c : Context) (n : ℕ) (i : Int) (counts : Counts) :
    EndsAs (messageLoop c n i counts) n n := by
  induction n generalizing i counts with
  | zero =>
      intro ctx t flow counts' ctx' h
      obtain ⟨rfl, heq, -⟩ := returns_run_pure.mp h
      obtain ⟨rfl, -⟩ := Prod.mk.inj heq
      exact Ended.aside (by simp) (by simp)
  | succ n ih =>
      have hround := (messageRound_ended c i counts).andThen fun counts => ih (i + 1) counts
      rw [Nat.add_comm 1 n] at hround
      exact hround

/-- `load_alt_path`. -/
lemma loadAltPath_ended {ret : Int} (h : Returns (loadAltPath.run ctx) t (ret, ctx')) :
    Ended 0 0 (if ret ≠ 0 then .out ret else .next) t := by
  obtain ⟨reply, t', rfl, h'⟩ := returns_run_perform_bind.mp h
  cases reply with
  | error e =>
      obtain ⟨rfl, rfl, -⟩ := returns_run_pure.mp h'
      rw [if_pos e.ne]
      exact .out e.ne ⟨_, List.mem_singleton_self _, rfl⟩
  | ok qpAttr =>
      dsimp only at h'
      rw [run_get_bind] at h'
      obtain ⟨rfl, -⟩ := returns_run_perform.mp h'
      by_cases hret : ret = 0
      · rw [if_neg (not_not.mpr hret)]
        refine .next rfl ⟨Nat.le_refl 0, Nat.le_refl 0, fun t' => by simp [received], ?_⟩ ?_
        · simp [messageFails, sent, sendsMessage, received]
        · simp [pathFails, hret]
      · rw [if_pos hret]
        exact .out hret ⟨_, List.mem_cons_of_mem _ (List.mem_singleton_self _), by
          simp [pathFails, hret]⟩

/-- **From `load_alt_path` on.** -/
theorem transfer_ended (h : Returns (transfer.run ctx) t ((flow, counts), ctx')) :
    Ended ctx.msgCount.toNat ctx.msgCount.toNat flow t := by
  obtain ⟨t₁, t₂, ret, ctx₁, rfl, h₁, h₂⟩ := returns_run_bind.mp h
  have hload := loadAltPath_ended h₁
  have hcount : ctx₁.msgCount = ctx.msgCount :=
    (Prod.mk.inj (loadAltPath_keeps.state _ _ _ _ h₁)).2
  split at h₂
  · rename_i hret
    obtain ⟨rfl, heq, -⟩ := returns_run_pure.mp h₂
    obtain ⟨rfl, -⟩ := Prod.mk.inj heq
    rw [if_pos hret] at hload
    have hskip : Ended (0 + ctx.msgCount.toNat) (0 + ctx.msgCount.toNat) (.out ret) t₁ :=
      hload.skip (by simp)
    rw [List.append_nil]
    rwa [Nat.zero_add] at hskip
  · rename_i hret
    rw [if_neg hret] at hload
    rw [messages, run_get_bind, hcount] at h₂
    have hloop := hload.append (messageLoop_ended ctx₁ _ _ _ _ _ _ _ _ h₂)
    rwa [Nat.zero_add] at hloop

end Parts

/-! ## The parts of main -/

/-- The options that `main` looks at behind its checks. -/
def Context.options (ctx : Context) : Bool × Int × Int :=
  (ctx.server, ctx.msgCount, ctx.migrateAfter)

/-- A part of `main` outside of the message loop. -/
abbrev Beside {α : Type} (m : ApmM α) : Prop := Keeps Context.options (fun c => aside c = true) m

lemma altPortLoop_beside (qpAttr : QpAttr) (n i : ℕ) : Beside (altPortLoop qpAttr n i) := by
  induction n generalizing i with
  | zero => exact Keeps.pure _
  | succ n ih =>
      refine Keeps.bind (Keeps.perform rfl) fun reply => ?_
      cases reply with
      | error e => exact Keeps.pure _
      | ok portAttr =>
          refine Keeps.ite (Keeps.bind (Keeps.modify fun _ => rfl) fun _ => ?_) (ih _)
          exact Keeps.ite (Keeps.pure _) (ih _)

lemma getAltPortDetails_beside : Beside getAltPortDetails := by
  refine Keeps.bind (Keeps.perform rfl) fun reply => ?_
  cases reply with
  | error e => exact Keeps.pure _
  | ok devAttr =>
      refine Keeps.ite (Keeps.pure _) (Keeps.bind (Keeps.perform rfl) fun reply => ?_)
      cases reply with
      | error e => exact Keeps.pure _
      | ok qpAttr => exact altPortLoop_beside _ _ _

lemma getConnectRequest_beside : Beside getConnectRequest := by
  refine Keeps.bind (Keeps.perform rfl) fun ret => Keeps.ite (Keeps.pure _) ?_
  refine Keeps.bind (Keeps.modify fun _ => rfl) fun _ => ?_
  refine Keeps.bind (Keeps.perform rfl) fun reply => ?_
  cases reply with
  | error e => exact Keeps.pure _
  | ok request =>
      refine Keeps.bind (Keeps.modify fun _ => rfl) fun _ => ?_
      refine Keeps.ite (Keeps.pure _) (Keeps.bind Keeps.get fun ctx => ?_)
      refine Keeps.ite ?_ (Keeps.pure _)
      cases getAltDlidFromPrivateData request.event with
      | none => exact Keeps.pure _
      | some dlid => exact Keeps.bind (Keeps.modify fun _ => rfl) fun _ => Keeps.pure _

/-- `main`, up to `reg_mem`. -/
lemma prepare_beside : Beside prepare := by
  have hendpoint : Beside getaddrinfoAndCreateEp := by
    refine Keeps.bind Keeps.get fun ctx => Keeps.bind (Keeps.perform rfl) fun ret => ?_
    refine Keeps.ite (Keeps.pure _) (Keeps.bind (Keeps.perform rfl) fun made => ?_)
    cases made with
    | error e => exact Keeps.pure _
    | ok id =>
        refine Keeps.bind (Keeps.modify fun _ => rfl) fun _ => ?_
        exact Keeps.bind (Keeps.perform rfl) fun _ => Keeps.pure _
  have hrequest : Beside requestPart :=
    Keeps.bind Keeps.get fun ctx => Keeps.ite getConnectRequest_beside (Keeps.pure _)
  have hport : Beside portPart :=
    Keeps.bind Keeps.get fun ctx => Keeps.ite getAltPortDetails_beside (Keeps.pure _)
  have hmem : Beside regMem := by
    refine Keeps.bind Keeps.get fun ctx => Keeps.bind (Keeps.perform rfl) fun sendMr => ?_
    refine Keeps.bind (Keeps.modify fun _ => rfl) fun _ => Keeps.ite (Keeps.pure _) ?_
    refine Keeps.bind (Keeps.perform rfl) fun recvMr => ?_
    refine Keeps.bind (Keeps.modify fun _ => rfl) fun _ => ?_
    exact Keeps.ite (Keeps.pure _) (Keeps.pure _)
  refine Keeps.bind hendpoint fun ret => Keeps.ite (Keeps.pure _) ?_
  refine Keeps.bind hrequest fun ret => Keeps.ite (Keeps.pure _) ?_
  refine Keeps.bind hport fun ret => Keeps.ite (Keeps.pure _) ?_
  exact Keeps.bind (Keeps.perform rfl) fun _ => hmem

lemma connectClient_beside (privateData : List UInt8) : Beside (connectClient privateData) := by
  refine Keeps.bind (Keeps.perform rfl) fun reply => ?_
  cases reply with
  | error e => exact Keeps.pure _
  | ok event =>
      refine Keeps.ite (Keeps.pure _) (Keeps.bind Keeps.get fun ctx => ?_)
      refine Keeps.ite ?_ (Keeps.pure _)
      cases getAltDlidFromPrivateData event with
      | none => exact Keeps.pure _
      | some dlid => exact Keeps.bind (Keeps.modify fun _ => rfl) fun _ => Keeps.pure _

/-- `establish_connection` posts a receive, and connects. -/
lemma establishConnection_trace {t : Trace} {ret : Int} {ctx ctx' : Context}
    (h : Returns (establishConnection.run ctx) t (ret, ctx')) :
    ∃ post rest, t = ⟨.postRecv ctx.msgLength, post⟩ :: rest ∧ (∀ e ∈ rest, aside e.1 = true) ∧
      (ret = 0 → post = 0) ∧ ctx'.options = ctx.options ∧ ∀ e ∈ t, pathFails e = false := by
  have hcalls := (establishConnection_keeps (fun c => ∀ r, pathFails ⟨c, r⟩ = false)
    (fun _ _ => rfl) (fun _ => rfl) (fun _ _ => rfl) fun _ _ => rfl).calls _ _ h.canDo
  have hpath : ∀ e ∈ t, pathFails e = false := fun e he => hcalls e he e.2
  rw [establishConnection, run_get_bind] at h
  obtain ⟨post, rest, rfl, h₁⟩ := returns_run_perform_bind.mp h
  split at h₁
  · rename_i hne
    obtain ⟨rfl, rfl, rfl⟩ := returns_run_pure.mp h₁
    exact ⟨post, [], rfl, by simp, fun hret => absurd hret hne, rfl, hpath⟩
  · rename_i hzero
    have hrest : Beside (do
        let rest ← call .uninitialised
        let privateData := htons ctx.myAltDlid ++ [rest.1, rest.2]
        if ctx.server = true then call (.accept privateData) else connectClient privateData) := by
      refine Keeps.bind (Keeps.perform rfl) fun rest => ?_
      exact Keeps.ite (Keeps.perform rfl) (connectClient_beside _)
    exact ⟨post, rest, rfl, hrest.calls _ _ h₁.canDo, fun _ => not_not.mp hzero,
      hrest.state _ _ _ _ h₁, hpath⟩

/-- The end of `main`. -/
lemma cleanup_closing : Keeps (fun _ => ()) (fun c => closing c = true) cleanup := by
  have hrelease : ∀ (c : ℕ → Call) (h : Option ℕ), (∀ n, closing (c n) = true) →
      Keeps (fun _ => ()) (fun c => closing c = true) (release c h) := by
    intro c h hc
    cases h with
    | none => exact Keeps.pure _
    | some n => exact Keeps.bind (Keeps.perform (hc n)) fun _ => Keeps.pure _
  refine Keeps.bind Keeps.get fun ctx => Keeps.bind (hrelease _ _ fun _ => rfl) fun _ => ?_
  refine Keeps.bind (hrelease _ _ fun _ => rfl) fun _ => ?_
  exact Keeps.bind (hrelease _ _ fun _ => rfl) fun _ => hrelease _ _ fun _ => rfl

/-- What `main` returns behind the message loop. -/
def Flow.exit : Flow → Int
  | .out ret => ret
  | _ => 0

section Main

variable {t : Trace} {ret : Int} {ctx ctx' : Context}

/-- A run of `main`. -/
inductive MainRun (ctx : Context) (ret : Int) : Trace → Prop
  | unprepared {t₁ t₂ : Trace} {ctx₁ : Context}
      (hprepare : Returns (prepare.run ctx) t₁ (ret, ctx₁)) (hret : ret ≠ 0) :
      MainRun ctx ret (t₁ ++ t₂)
  | prepared {t₁ t₂ t₃ t₄ : Trace} {ctx₁ ctx₂ ctx₃ : Context} {connected : Int} {flow : Flow}
      {counts : Counts} (hprepare : Returns (prepare.run ctx) t₁ (0, ctx₁))
      (hestablish : Returns (establishConnection.run ctx₁) t₂ (connected, ctx₂))
      (htransfer : Returns (transfer.run ctx₂) t₃ ((flow, counts), ctx₃))
      (hclosing : ∀ e ∈ t₄, closing e.1 = true) (hoptions : ctx₂.options = ctx.options)
      (hret : ret = flow.exit) : MainRun ctx ret (t₁ ++ (t₂ ++ (t₃ ++ t₄)))

lemma exchange_run (h : Returns (exchange.run ctx) t (ret, ctx')) :
    ∃ t₁ t₂ flow counts ctx₁, t = t₁ ++ t₂ ∧ Returns (transfer.run ctx) t₁ ((flow, counts), ctx₁) ∧
      (∀ e ∈ t₂, closing e.1 = true) ∧ ret = flow.exit := by
  obtain ⟨t₁, t₂, ⟨flow, counts⟩, ctx₁, rfl, h₁, h₂⟩ := returns_run_bind.mp h
  refine ⟨t₁, t₂, flow, counts, ctx₁, rfl, h₁, ?_⟩
  cases flow with
  | out r =>
      obtain ⟨rfl, rfl, -⟩ := returns_run_pure.mp h₂
      exact ⟨by simp, rfl⟩
  | next =>
      obtain ⟨u, t₃, rfl, h₃⟩ := returns_run_perform_bind.mp h₂
      obtain ⟨rfl, rfl, -⟩ := returns_run_pure.mp h₃
      exact ⟨by simp [closing], rfl⟩
  | broke =>
      obtain ⟨u, t₃, rfl, h₃⟩ := returns_run_perform_bind.mp h₂
      obtain ⟨rfl, rfl, -⟩ := returns_run_pure.mp h₃
      exact ⟨by simp [closing], rfl⟩

/-- **Every run of `main`** is one of these.  The order of the parts is that of the source, and
what a part leaves of the context is what the next one starts from. -/
theorem main_run (h : Returns (main.run ctx) t (ret, ctx')) : MainRun ctx ret t := by
  obtain ⟨t₁, t₂, r₁, ctx₁, rfl, hprepare, h₂⟩ := returns_run_bind.mp h
  split at h₂
  · rename_i hne
    obtain ⟨t₂, t₃, u, ctx₂, rfl, -, h₃⟩ := returns_run_bind.mp h₂
    obtain ⟨-, rfl, -⟩ := returns_run_pure.mp h₃
    exact .unprepared hprepare hne
  · rename_i hzero
    rw [not_not] at hzero
    rw [hzero] at hprepare
    obtain ⟨t₂, t₃, connected, ctx₂, rfl, hestablish, h₃⟩ := returns_run_bind.mp h₂
    obtain ⟨t₃, t₄, r₂, ctx₃, rfl, hexchange, h₄⟩ := returns_run_bind.mp h₃
    obtain ⟨t₄, t₅, u, ctx₄, rfl, hcleanup, h₅⟩ := returns_run_bind.mp h₄
    obtain ⟨rfl, rfl, -⟩ := returns_run_pure.mp h₅
    obtain ⟨t₃, t₆, flow, counts, ctx₅, rfl, htransfer, hclosing, hret⟩ := exchange_run hexchange
    obtain ⟨post, rest, -, -, -, hkept, -⟩ := establishConnection_trace hestablish
    have hoptions := hkept.trans (prepare_beside.state _ _ _ _ hprepare)
    have hend := cleanup_closing.calls _ _ hcleanup.canDo
    rw [List.append_nil, List.append_assoc]
    refine .prepared hprepare hestablish htransfer ?_ hoptions hret
    exact List.forall_mem_append.mpr ⟨hclosing, hend⟩

end Main

end Apm
