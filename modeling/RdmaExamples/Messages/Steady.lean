import RdmaExamples.Library.Progress
import RdmaExamples.Messages.Exchange

/-!
# Exchanges in which no verb fails

As long as no verb fails and no access is refused, no message is lost: what a side has sent is what
has come to the other side and what is still in its queue (`Steady`).  And then the exchange goes on
(`Steady.goes`): as long as one of the programs has not returned, one of them can make its call, or
the devices can move.  The only calls that wait are those of `Ready`; the proof names what each of
them waits for.

The argument goes by the number of messages that each side has sent.  The server answers, so that
the two numbers are equal or the client is one ahead; where a side waits for a message, the other
one has it still to send, or it is on its way and can come in.
-/

namespace Messages

open Programs Systems Monitors Progress

/-! ## No message is lost

A message could be lost where a connection breaks under it.  Without failures a side gives the
connection up only when it has finished, and then nothing is in its queue. -/

/-- A message in a queue; one that is not fetched yet is what the buffer holds. -/
def Port.outgoing (port : Port) : List (List UInt8) :=
  port.sendQueue.filterMap fun
    | .send bytes => some (bytes.getD (port.buffers .sendMsg))
    | _ => none

/-- Both sides are in line, no verb has failed, no access was refused, and the messages are where
they should be. -/
structure Steady (n : ℕ) (g : Side → Record) (l : Link) : Prop where
  inLine : InLine n g l
  good : ∀ side, (g side).failed = false
  lost : ∀ side, (l side).lost = 0
  flushed : ∀ side, (l side).flushed = 0
  refused : ∀ side, (l side).refused = false
  fifo : ∀ side, (g side).sent = (l side.other).delivered ++ (l side).outgoing

/-- The accesses in the queues fit. -/
def AccessesFit (l : Link) : Prop :=
  ∀ side wr rest, (l side).sendQueue = wr :: rest → wr.isSend = false →
    access (l side) (l side.other) wr ≠ none

section

variable {tell : Tell} {n : ℕ} {side : Side} {g : Side → Record} {l l' : Link}
  {port port' other : Port} {r : Record} {e : Event Call Reply} {move : Move}

lemma steady_start : Steady n (fun _ => {}) Link.start where
  inLine := inLine_start
  good _ := rfl
  lost _ := rfl
  flushed _ := rfl
  refused _ := rfl
  fifo _ := rfl

/-- A side that is not in order any more has finished the exchange. -/
lemma Steady.done_of_broken (h : Steady n g l) (hbroken : (l side).broken = true) :
    (g side).Done n := by
  have hfits := (h.inLine.fits side).broken
  rw [hbroken, h.refused side, Bool.or_false] at hfits
  exact (h.inLine.ok side).down hfits.symm (h.good side)

/-- **No message is flushed.** -/
lemma Steady.flush_access (h : Steady n g l) (hworks : ¬ l.Works) {wr : WorkRequest}
    {rest : List WorkRequest} (hqueue : (l side).sendQueue = wr :: rest) : wr.isSend = false := by
  obtain ⟨q, hq⟩ := not_forall.mp hworks
  have hbroken : (l q).broken = true := by simpa using hq
  have hdone := h.done_of_broken hbroken
  have hposts := (h.inLine.fits side).posts
  have hsends := (h.inLine.fits side).sends
  have hmost := (h.inLine.ok side).sends
  rw [h.lost side] at hsends
  rw [hqueue, List.length_cons] at hposts
  rcases side.eq_or_other q with rfl | rfl
  · -- the side itself: all that it has posted is done
    have hcomps := hdone.sendComps
    omega
  · -- the other side: all that it waits for has come
    have hcomps := hdone.recvComps
    have hall := (h.inLine.fits side.other).recvComps
    rw [h.flushed side.other, Nat.add_zero] at hall
    have hnone : (l side).messages = 0 := by omega
    rw [Port.messages, hqueue, List.countP_cons] at hnone
    cases hsend : wr.isSend with
    | false => rfl
    | true =>
        rw [hsend] at hnone
        exact absurd hnone (by simp)

lemma Port.outgoing_post (wr : WorkRequest) (ret : Int) : (port.post wr ret).outgoing =
    port.outgoing ++ if ret = 0 ∧ wr.isSend = true then
      [(match wr with | .send bytes => bytes | _ => none).getD (port.buffers .sendMsg)]
        else [] := by
  rw [Port.post]
  by_cases hret : ret = 0
  · cases wr with
    | send bytes =>
        simp only [hret, Port.outgoing, List.filterMap_append, WorkRequest.isSend, if_true,
          and_self]
        rfl
    | write _ _ _ | read _ _ _ =>
        simp [hret, Port.outgoing, List.filterMap_append, WorkRequest.isSend]
  · simp [hret]

/-- **What a side has sent** is what was there before and what is in its queue.  A side stores into
the buffer that it sends from only when its queue is empty, so that no message in the queue
changes. -/
lemma answer_fifo {arrived : List (List UInt8)} (hfits : Fits r port arrived.length)
    (hallowed : r.allowed tell n side e.1) (hs : port.answer other side e = some port')
    (hfifo : r.sent = arrived ++ port.outgoing) : (r.after e).sent = arrived ++ port'.outgoing := by
  obtain ⟨c, reply⟩ := e
  cases c with
  | store buf off bytes =>
      obtain rfl := Option.some.inj hs
      cases buf with
      | sendMsg =>
          have hnone : port.sendQueue = [] := by
            have hposts := hfits.posts
            have hidle : r.posts = r.sendComps := hallowed.2.2
            exact List.length_eq_zero_iff.mp (by omega)
          have hbefore : port.outgoing = [] := by rw [Port.outgoing, hnone, List.filterMap_nil]
          have hafter : (port.store .sendMsg off bytes).outgoing = [] := by
            rw [Port.outgoing, show (port.store .sendMsg off bytes).sendQueue = [] from hnone,
              List.filterMap_nil]
          rw [hbefore] at hfifo
          rw [hafter]
          exact hfifo
      | recvMsg | buffLocalSend | rdmaBuff => exact hfifo
  | postSend inl =>
      obtain rfl := Option.some.inj hs
      have hsent : (r.after ⟨.postSend inl, reply⟩).sent =
          if reply = 0 then r.sent ++ [r.message] else r.sent := rfl
      rw [Port.outgoing_post, hsent]
      by_cases hret : reply = 0
      · cases inl <;> simp [hret, WorkRequest.isSend, hfifo, hfits.message]
      · simp [hret, hfifo]
  | postWrite localMr addr rkey | postRead localMr addr rkey =>
      obtain rfl := Option.some.inj hs
      rw [Port.outgoing_post, if_neg (by simp [WorkRequest.isSend]), List.append_nil]
      exact hfifo
  | getRequest | established =>
      simp only [Port.answer] at hs
      split at hs
      · exact absurd hs (by simp)
      · obtain rfl := Option.some.inj hs
        exact hfifo
  | load buf off n =>
      simp only [Port.answer] at hs
      split at hs
      · obtain rfl := Option.some.inj hs
        exact hfifo
      · exact absurd hs (by simp)
  | getSendComp | pollCq =>
      obtain ⟨hport, -, -⟩ := Port.pollSend_eq hs
      rw [hport]
      exact hfifo
  | getRecvComp =>
      obtain ⟨hport, -, -⟩ := Port.pollRecv_eq hs
      rw [hport]
      exact hfifo
  | _ =>
      obtain rfl := Option.some.inj hs
      exact hfifo

/-- **A call that does not fail.** -/
theorem steady_call (h : Steady n g l) (hallowed : (g side).allowed tell n side e.1)
    (hgood : failed e = false) (hs : l.answer side e = some l') :
    Steady n (Function.update g side ((g side).after e)) l' := by
  have hinLine := inLine_call h.inLine hallowed hs
  obtain ⟨port, hport, rfl⟩ := Link.answer_eq hs
  obtain ⟨hfits, hfate⟩ := (h.inLine.fits side).answer hport
  simp only [Port.fate, Prod.mk.injEq] at hfate
  obtain ⟨hdelivered, hflushed, hlost, hrefused⟩ := hfate
  have hfifo := answer_fifo (h.inLine.fits side) hallowed hport (h.fifo side)
  refine ⟨hinLine, fun q => ?_, fun q => ?_, fun q => ?_, fun q => ?_, fun q => ?_⟩
  · by_cases hq : q = side
    · subst hq
      rw [Function.update_self]
      show ((g q).failed || failed e) = false
      rw [h.good q, hgood, Bool.or_false]
    · rw [Function.update_of_ne hq]
      exact h.good q
  · by_cases hq : q = side
    · subst hq
      rw [Function.update_self, hlost, h.lost q]
    · rw [Function.update_of_ne hq]
      exact h.lost q
  · by_cases hq : q = side
    · subst hq
      rw [Function.update_self, hflushed, h.flushed q]
    · rw [Function.update_of_ne hq]
      exact h.flushed q
  · by_cases hq : q = side
    · subst hq
      rw [Function.update_self, hrefused, h.refused q]
    · rw [Function.update_of_ne hq]
      exact h.refused q
  · rcases side.eq_or_other q with rfl | rfl
    · rw [Function.update_self, Function.update_self, Function.update_of_ne q.other_ne]
      exact hfifo
    · have hother := h.fifo side.other
      rw [Side.other_other] at hother
      rw [Function.update_of_ne side.other_ne, Function.update_of_ne side.other_ne,
        Side.other_other, Function.update_self, hdelivered]
      exact hother

/-- The front of the queue is done. -/
lemma Port.outgoing_finish {wr : WorkRequest} {rest : List WorkRequest}
    (hqueue : port.sendQueue = wr :: rest) : port.outgoing =
      (match wr with | .send bytes => [bytes.getD (port.buffers .sendMsg)] | _ => []) ++
        port.finish.outgoing := by
  cases wr with
  | send bytes | write _ _ _ | read _ _ _ =>
      simp only [Port.outgoing, Port.finish, hqueue, List.tail_cons, List.filterMap_cons]
      rfl

/-- A change at both sides. -/
lemma Steady.set (h : Steady n g l) (hinLine : InLine n g (l.set side port other))
    (hlost : port.lost = 0) (hlost' : other.lost = 0) (hflushed : port.flushed = 0)
    (hflushed' : other.flushed = 0) (hrefused : port.refused = false)
    (hrefused' : other.refused = false)
    (hfifo : (g side).sent = other.delivered ++ port.outgoing)
    (hfifo' : (g side.other).sent = port.delivered ++ other.outgoing) :
    Steady n g (l.set side port other) := by
  refine ⟨hinLine, h.good, fun q => ?_, fun q => ?_, fun q => ?_, fun q => ?_⟩
  · rcases side.eq_or_other q with rfl | rfl
    · rwa [Link.set_self]
    · rwa [Link.set_other]
  · rcases side.eq_or_other q with rfl | rfl
    · rwa [Link.set_self]
    · rwa [Link.set_other]
  · rcases side.eq_or_other q with rfl | rfl
    · rwa [Link.set_self]
    · rwa [Link.set_other]
  · rcases side.eq_or_other q with rfl | rfl
    · rwa [Link.set_self, Link.set_other]
    · rwa [Side.other_other, Link.set_self, Link.set_other]

/-- A change at one side. -/
lemma Steady.update (h : Steady n g l) (hinLine : InLine n g (Function.update l side port))
    (hlost : port.lost = 0) (hflushed : port.flushed = 0) (hrefused : port.refused = false)
    (hdelivered : port.delivered = (l side).delivered)
    (hfifo : port.outgoing = (l side).outgoing) : Steady n g (Function.update l side port) := by
  rw [Link.update_eq_set] at hinLine ⊢
  have hother := h.fifo side.other
  rw [Side.other_other] at hother
  refine h.set hinLine hlost (h.lost _) hflushed (h.flushed _) hrefused (h.refused _) ?_ ?_
  · rw [hfifo]
    exact h.fifo side
  · rw [hdelivered]
    exact hother

/-- A receive is flushed only after a failure. -/
lemma Steady.flush_recv (h : Steady n g l) (hworks : ¬ l.Works) : (l side).posted = 0 := by
  obtain ⟨q, hq⟩ := not_forall.mp hworks
  have hbroken : (l q).broken = true := by simpa using hq
  have hdone := h.done_of_broken hbroken
  have hrecvs := (h.inLine.fits side).recvPosts
  rw [h.flushed side, Nat.add_zero] at hrecvs
  rcases side.eq_or_other q with rfl | rfl
  · -- the side itself: all that it has posted has completed
    have hcomps := (h.inLine.fits q).recvComps
    rw [h.flushed q, Nat.add_zero, hdone.recvComps] at hcomps
    have hposts := hdone.recvPosts
    omega
  · -- the other side: all that it has sent has arrived
    have hposts := (h.inLine.fits side.other).posts
    have hsends := (h.inLine.fits side.other).sends
    rw [h.lost side.other, Nat.add_zero, Side.other_other, hdone.sends] at hsends
    have hcomps := hdone.sendComps
    have hqueue : (l side.other).messages ≤ (l side.other).sendQueue.length := List.countP_le_length
    have hmost := (h.inLine.ok side).receives
    omega

/-- **A move of the devices**, unless an access is refused. -/
theorem steady_device (h : Steady n g l) (hs : l.device move = some l')
    (hnot : ∀ side, (l' side).refused = false) : Steady n g l' := by
  have hinLine := inLine_device h.inLine hs
  cases moved_of_device hs with
  | fetch side hqueue =>
      refine h.update hinLine (h.lost side) (h.flushed side) (h.refused side) rfl ?_
      simp [Port.outgoing, Port.fetch, hqueue]
  | deliver side hqueue hworks hposted =>
      have hfifo := h.fifo side.other
      rw [Side.other_other, Port.outgoing_finish hqueue, ← List.append_assoc] at hfifo
      exact h.set hinLine (h.lost _) (h.lost _) (h.flushed _) (h.flushed _) (h.refused _)
        (h.refused _) (h.fifo side) hfifo
  | @execute side wr rest ports hqueue hworks haccess =>
      obtain ⟨hsend, ⟨bufs, hport, hsame⟩, bufs', hother, hsame'⟩ := access_eq haccess
      have hfifo := h.fifo side
      have hfifo' := h.fifo side.other
      rw [Side.other_other] at hfifo'
      rw [Port.outgoing_finish hqueue] at hfifo
      rw [hport, hother] at hinLine ⊢
      refine h.set hinLine (h.lost _) (h.lost _) (h.flushed _) (h.flushed _) (h.refused _)
        (h.refused _) ?_ ?_
      · rw [hfifo]
        cases wr with
        | send bytes => exact absurd hsend (by simp [WorkRequest.isSend])
        | write _ _ _ | read _ _ _ => simp only [Port.outgoing, Port.finish, hsame, List.nil_append]
      · rw [hfifo']
        simp only [Port.outgoing, Port.finish, hsame']
  | refuse side hqueue hsend hworks haccess =>
      have hrefused := hnot side
      rw [Link.set_self] at hrefused
      exact absurd hrefused (by simp [Port.refuse])
  | @flush side wr rest hqueue hworks =>
      have hsend := h.flush_access hworks hqueue
      refine h.update hinLine ?_ (h.flushed side) (h.refused side) rfl ?_
      · simp only [Port.flush, hqueue, List.head?_cons, Option.elim_some, hsend]
        exact h.lost side
      · rw [Port.outgoing_finish hqueue]
        cases wr with
        | send bytes => exact absurd hsend (by simp [WorkRequest.isSend])
        | write _ _ _ | read _ _ _ => rfl
  | flushRecv side hworks hposted =>
      exact absurd hposted (by rw [h.flush_recv hworks]; exact Nat.lt_irrefl 0)
  | report side hpos =>
      exact h.update hinLine (h.lost side) (h.flushed side) (h.refused side) rfl rfl

/-- A move that refuses no access. -/
lemma refused_device (hs : l.device move = some l') (hmove : ∀ side, move ≠ .refuse side)
    (q : Side) : (l' q).refused = (l q).refused := by
  cases moved_of_device hs with
  | fetch side _ | flush side _ _ | flushRecv side _ _ | report side _ =>
      refine Link.update_congr Port.refused ?_ q
      rfl
  | deliver side _ _ _ =>
      refine Link.set_congr Port.refused ?_ ?_ q <;> rfl
  | execute side hqueue hworks haccess =>
      obtain ⟨-, ⟨bufs, hport, -⟩, bufs', hother, -⟩ := access_eq haccess
      refine Link.set_congr Port.refused ?_ ?_ q
      · rw [hport]
        rfl
      · rw [hother]
  | refuse side _ _ _ _ => exact absurd rfl (hmove side)

/-- Where the accesses fit, none is refused. -/
lemma AccessesFit.not_refuse (hfit : AccessesFit l) (hs : l.device move = some l') :
    move ≠ .refuse side := by
  rintro rfl
  cases moved_of_device hs with
  | refuse _ hqueue hsend _ haccess => exact hfit side _ _ hqueue hsend haccess

/-- A move of the devices where the accesses fit. -/
lemma Steady.device (h : Steady n g l) (hfit : AccessesFit l) (hs : l.device move = some l') :
    Steady n g l' :=
  steady_device h hs fun q =>
    (refused_device hs (fun _ => hfit.not_refuse hs) q).trans (h.refused q)

end

/-! ## The exchange goes on

Each call is ready in all states or waits for one thing (`Ready`).  So a system that stands still
has two sides that each wait for one thing, and the cases are few. -/

/-- The reply of a verb that does not fail. -/
abbrev goodReply (fresh : Buffer → Mr) (port : Port) (c : Call) : Reply c :=
  obliging fresh port.buffers c

/-- A call that waits may return. -/
def Ready (port other : Port) (side : Side) : Call → Prop
  | .getRequest => other.requested = true
  | .established => other.hasAnswered side = true
  | .getSendComp => 0 < port.sendCq
  | .getRecvComp => 0 < port.recvCq
  | .pollCq => 0 < port.sendCq
  | _ => True

/-- What the devices have to do for a side. -/
def Port.todo (port : Port) : ℕ :=
  2 * port.sendQueue.length + (port.sendQueue.countP fun wr => wr matches .send none) +
    port.unreported + port.posted

/-- What the devices have to do. -/
def Link.todo (l : Link) : ℕ := (l .server).todo + (l .client).todo

section

variable {tell : Tell} {n : ℕ} {side : Side} {g : Side → Record} {l l' : Link}
  {port port' other : Port} {c : Call} {move : Move} {fresh : Buffer → Mr}

/-- A completion is taken. -/
lemma Port.pollSend_one (hpos : 0 < port.sendCq) :
    port.pollSend 1 = some { port with sendCq := port.sendCq - 1 } := by
  rw [Port.pollSend, if_neg (by simp), if_pos ⟨rfl, hpos⟩]

lemma Port.pollRecv_one (hpos : 0 < port.recvCq) :
    port.pollRecv 1 = some { port with recvCq := port.recvCq - 1 } := by
  rw [Port.pollRecv, if_neg (by simp), if_pos ⟨rfl, hpos⟩]

/-- A call that may return gets its reply. -/
lemma answer_goodReply (hready : Ready port other side c) :
    ∃ port', port.answer other side ⟨c, goodReply fresh port c⟩ = some port' := by
  cases c with
  | getRequest =>
      have hrequested : other.requested = true := hready
      exact ⟨_, by simp only [Port.answer, hrequested]; rfl⟩
  | established =>
      have hanswered : other.hasAnswered side = true := hready
      exact ⟨_, by simp only [Port.answer, hanswered]; rfl⟩
  | getSendComp | pollCq => exact ⟨_, Port.pollSend_one hready⟩
  | getRecvComp => exact ⟨_, Port.pollRecv_one hready⟩
  | load buf off n => exact ⟨port, if_pos rfl⟩
  | _ => exact ⟨_, rfl⟩

lemma failed_goodReply : failed ⟨c, goodReply fresh port c⟩ = false := by
  cases c <;> rfl

lemma Port.todo_finish (hne : port.sendQueue ≠ []) : port.finish.todo < port.todo := by
  obtain ⟨wr, rest, hqueue⟩ := List.exists_cons_of_ne_nil hne
  simp only [Port.todo, Port.finish, hqueue, List.tail_cons, List.length_cons, List.countP_cons]
  omega

lemma Link.todo_update (h : port.todo < (l side).todo) :
    Link.todo (Function.update l side port) < l.todo := by
  cases side with
  | server =>
      rw [Link.todo, Link.todo, Function.update_self, Function.update_of_ne (by simp)]
      omega
  | client =>
      rw [Link.todo, Link.todo, Function.update_self, Function.update_of_ne (by simp)]
      omega

lemma Link.todo_set (h : port.todo + other.todo < (l side).todo + (l side.other).todo) :
    (l.set side port other).todo < l.todo := by
  have hside : l.set side port other side = port := Link.set_self
  have hother : l.set side port other side.other = other := Link.set_other
  cases side with
  | server =>
      simp only [Side.other] at hother h
      rw [Link.todo, Link.todo, hside, hother]
      omega
  | client =>
      simp only [Side.other] at hother h
      rw [Link.todo, Link.todo, hside, hother]
      omega

/-- **A move of the devices leaves them less to do.** -/
theorem todo_device (hs : l.device move = some l') : l'.todo < l.todo := by
  cases moved_of_device hs with
  | fetch side hqueue =>
      refine Link.todo_update ?_
      simp only [Port.todo, Port.fetch, hqueue, List.length_cons, List.countP_cons,
        Bool.false_eq_true, if_true, if_false]
      omega
  | deliver side hqueue hworks hposted =>
      have hless : (l side.other).finish.todo < (l side.other).todo :=
        Port.todo_finish (by simp [hqueue])
      refine Link.todo_set (Nat.add_lt_add_of_le_of_lt ?_ hless)
      simp only [Port.todo, Port.receive, Port.store]
      omega
  | execute side hqueue hworks haccess =>
      obtain ⟨-, ⟨bufs, hport, -⟩, bufs', hother, -⟩ := access_eq haccess
      have hless : (l side).finish.todo < (l side).todo := Port.todo_finish (by simp [hqueue])
      rw [hport, hother]
      exact Link.todo_set (Nat.add_lt_add_right hless _)
  | refuse side hqueue hsend hworks haccess =>
      have hless : (l side).finish.todo < (l side).todo := Port.todo_finish (by simp [hqueue])
      exact Link.todo_set (Nat.add_lt_add_right hless _)
  | flush side hqueue hworks =>
      exact Link.todo_update (Port.todo_finish (by simp [hqueue]))
  | flushRecv side hworks hposted =>
      refine Link.todo_update ?_
      simp only [Port.todo, Port.flushRecv]
      omega
  | report side hpos =>
      refine Link.todo_update ?_
      simp only [Port.todo, Port.report]
      omega

/-- What is at the front of a queue is done, unless it is a message that no receive waits for. -/
lemma exists_move (hfit : AccessesFit l) (hne : (l side).sendQueue ≠ []) :
    (∃ move l', l.device move = some l') ∨
      0 < (l side).messages ∧ (l side.other).posted = 0 := by
  obtain ⟨wr, rest, hqueue⟩ := List.exists_cons_of_ne_nil hne
  by_cases hworks : l.Works
  · cases hsend : wr.isSend with
    | false =>
        obtain ⟨ports, hports⟩ := Option.ne_none_iff_exists'.mp (hfit side wr rest hqueue hsend)
        exact Or.inl ⟨_, _, (Moved.execute side hqueue hworks hports).device⟩
    | true =>
        cases wr with
        | send bytes =>
            cases bytes with
            | none => exact Or.inl ⟨_, _, (Moved.fetch side hqueue).device⟩
            | some bytes =>
                rcases Nat.eq_zero_or_pos (l side.other).posted with hnone | hposted
                · right
                  refine ⟨?_, hnone⟩
                  rw [Port.messages, hqueue, List.countP_cons, hsend, if_pos rfl]
                  exact Nat.succ_pos _
                · have hother : (l side.other.other).sendQueue = .send (some bytes) :: rest := by
                    rw [Side.other_other, hqueue]
                  exact Or.inl ⟨_, _, (Moved.deliver side.other hother hworks hposted).device⟩
        | write _ _ _ | read _ _ _ => exact absurd hsend (by simp [WorkRequest.isSend])
  · exact Or.inl ⟨_, _, (Moved.flush side hqueue hworks).device⟩

/-- What a side waits for when its call may not return yet. -/
inductive Blocked (g : Side → Record) (l : Link) (side : Side) : Prop
  | request (hside : side = .server) (h : (l .client).requested = false)
  | answer (hasked : (g side).requested = true) (h : (l side.other).hasAnswered side = false)
  | sendComp (hposts : (g side).sendComps < (g side).posts) (h : (l side).sendCq = 0)
  | recvComp (hup : (g side).up = true) (hposts : (g side).recvComps < (g side).recvPosts)
      (hturn : (g side).sends = (g side).recvComps + side.ahead) (h : (l side).recvCq = 0)

/-- A call that may not return waits for something. -/
lemma blocked_of_call (hallowed : (g side).allowed tell n side c)
    (hnot : ¬ Ready (l side) (l side.other) side c) : Blocked g l side := by
  cases c with
  | getRequest =>
      obtain rfl : side = .server := hallowed
      exact .request rfl (by simpa [Ready, Side.other] using hnot)
  | established => exact .answer hallowed (by simpa [Ready] using hnot)
  | getSendComp | pollCq => exact .sendComp hallowed (by simpa [Ready] using hnot)
  | getRecvComp =>
      exact .recvComp hallowed.1 hallowed.2.1 hallowed.2.2 (by simpa [Ready] using hnot)
  | _ => exact absurd trivial hnot

/-- A side that has its connection waits for a completion. -/
lemma Blocked.comp (h : Steady n g l) (hup : ∀ side, (g side).up = true)
    (hblocked : Blocked g l side) :
    ((g side).sendComps < (g side).posts ∧ (l side).sendCq = 0) ∨
      (g side).recvComps < (g side).recvPosts ∧
        (g side).sends = (g side).recvComps + side.ahead ∧ (l side).recvCq = 0 := by
  cases hblocked with
  | request hside hnone =>
      rw [(h.inLine.fits .client).requested, (h.inLine.ok .client).asked (hup .client)] at hnone
      exact absurd hnone (by simp)
  | answer hasked hnone =>
      cases side with
      | server =>
          have hdown : (l .client).up = false := hnone
          rw [(h.inLine.fits .client).up, hup .client] at hdown
          exact absurd hdown (by simp)
      | client =>
          have hdown : (l .server).requested = false := hnone
          rw [(h.inLine.fits .server).requested, (h.inLine.ok .server).asked (hup .server)] at hdown
          exact absurd hdown (by simp)
  | sendComp hposts hnone => exact Or.inl ⟨hposts, hnone⟩
  | recvComp _ hposts hturn hnone => exact Or.inr ⟨hposts, hturn, hnone⟩

/-- A side that does not have its connection waits for it. -/
lemma Steady.up_or_waits (h : Steady n g l) (hside : (g side).Done n ∨ Blocked g l side) :
    (g side).up = true ∨ (side = .server ∧ (g .client).requested = false) ∨
      (g side).requested = true ∧ (l side.other).hasAnswered side = false := by
  rcases hside with hdone | hblocked
  · exact Or.inl hdone.up
  · cases hblocked with
    | request hside hnone =>
        exact Or.inr (Or.inl ⟨hside, (h.inLine.fits .client).requested.symm.trans hnone⟩)
    | answer hasked hnone => exact Or.inr (Or.inr ⟨hasked, hnone⟩)
    | sendComp hposts _ => exact Or.inl ((h.inLine.ok side).worked (by omega))
    | recvComp hup _ _ _ => exact Or.inl hup

/-- **Both sides have the connection** where neither can go on: the server waits for the client to
ask, then the client for the server, then the server for the client. -/
lemma Steady.up_of_stuck (h : Steady n g l)
    (hall : ∀ side, (g side).Done n ∨ Blocked g l side) (side : Side) : (g side).up = true := by
  have hanswered : (l .client).hasAnswered .server = (g .client).up := (h.inLine.fits .client).up
  have hanswered' : (l .server).hasAnswered .client = (g .server).requested :=
    (h.inLine.fits .server).requested
  have hclient : (g .client).up = true := by
    rcases h.up_or_waits (hall .client) with hup | ⟨hside, -⟩ | ⟨hasked, hnone⟩
    · exact hup
    · exact absurd hside (by simp)
    · rcases h.up_or_waits (hall .server) with hup | ⟨-, hnot⟩ | ⟨hasked', -⟩
      · exact h.inLine.connected hup
      · exact absurd (hasked.symm.trans hnot) (by simp)
      · exact absurd (hasked'.symm.trans (hanswered'.symm.trans hnone)) (by simp)
  cases side with
  | server =>
      rcases h.up_or_waits (hall .server) with hup | ⟨-, hnot⟩ | ⟨-, hnone⟩
      · exact hup
      · exact absurd (((h.inLine.ok .client).asked hclient).symm.trans hnot) (by simp)
      · exact absurd (hclient.symm.trans (hanswered.symm.trans hnone)) (by simp)
  | client => exact hclient

/-- What the devices have left over when they cannot move. -/
lemma queue_of_stuck (hfit : AccessesFit l) (hstuck : ∀ move l', l.device move ≠ some l') :
    (l side).unreported = 0 ∧
      ((l side).sendQueue = [] ∨ 0 < (l side).messages ∧ (l side.other).posted = 0) := by
  constructor
  · by_contra hne
    exact hstuck _ _ (Moved.report side (Nat.pos_of_ne_zero hne)).device
  · by_cases hne : (l side).sendQueue = []
    · exact Or.inl hne
    · rcases exists_move hfit hne with ⟨move, l', hs⟩ | hwaits
      · exact absurd hs (hstuck move l')
      · exact Or.inr hwaits

/-- **An exchange does not get stuck**: where neither side can go on, nor the devices, both sides
have finished.  A side that waits for a send completion has its message still in the queue, where
it stays only for want of a receive; a side that waits for a message has posted a receive, and the
other one has sent what it owes or is waiting itself.  The numbers of messages of the two then
contradict each other. -/
theorem Steady.done_of_stuck (h : Steady n g l) (hfit : AccessesFit l)
    (hstuck : ∀ move l', l.device move ≠ some l')
    (hall : ∀ side, (g side).Done n ∨ Blocked g l side) (side : Side) : ¬ Blocked g l side := by
  have hup := h.up_of_stuck hall
  have hall' : ∀ side, (g side).Done n ∨
      ((g side).sendComps < (g side).posts ∧ (l side).sendCq = 0) ∨
        (g side).recvComps < (g side).recvPosts ∧
          (g side).sends = (g side).recvComps + side.ahead ∧ (l side).recvCq = 0 :=
    fun side => (hall side).imp_right fun hblocked => hblocked.comp h hup
  have hcounts : ∀ side, (g side).posts = (g side).sendComps + (l side).sendCq +
      (l side).sendQueue.length ∧ (l side.other).delivered.length + (l side).messages =
        (g side).sends ∧ ((l side).sendQueue.length = 0 ∨
          0 < (l side).messages ∧ (l side.other).posted = 0) := by
    intro side
    obtain ⟨hreported, hqueue⟩ : (l side).unreported = 0 ∧ _ := queue_of_stuck hfit hstuck
    have hposts := (h.inLine.fits side).posts
    have hsends := (h.inLine.fits side).sends
    rw [hreported, Nat.add_zero] at hposts
    rw [h.lost side, Nat.add_zero] at hsends
    exact ⟨hposts, hsends, hqueue.imp_left List.length_eq_zero_iff.mpr⟩
  have hmessages : ∀ side, (l side).messages ≤ (l side).sendQueue.length :=
    fun side => List.countP_le_length
  have hdone : ∀ side, (g side).Done n → (g side).sends = n ∧ (g side).recvPosts = n ∧
      (g side).recvComps = n ∧ (g side).sendComps = (g side).posts :=
    fun side hd => ⟨hd.sends, hd.recvPosts, hd.recvComps, hd.sendComps⟩
  intro hblocked
  have hside := hblocked.comp h hup
  have hserver := (hall' .server).imp_left (hdone .server)
  have hclient := (hall' .client).imp_left (hdone .client)
  have hcounts₁ := hcounts .server
  have hcounts₂ := hcounts .client
  have hmessages₁ := hmessages .server
  have hmessages₂ := hmessages .client
  have hrecv₁ := (h.inLine.fits .server).recvPosts
  have hrecv₂ := (h.inLine.fits .client).recvPosts
  have hcomps₁ := (h.inLine.fits .server).recvComps
  have hcomps₂ := (h.inLine.fits .client).recvComps
  rw [h.flushed, Nat.add_zero] at hrecv₁ hrecv₂ hcomps₁ hcomps₂
  have hmost₁ := (h.inLine.ok .server).sends
  have hmost₂ := (h.inLine.ok .client).sends
  have hturn₁ := (h.inLine.ok .server).turn
  have hturn₂ := (h.inLine.ok .client).turn
  have hroom₁ := (h.inLine.ok .server).receives
  have hroom₂ := (h.inLine.ok .client).receives
  simp only [Side.other, Side.ahead] at hcounts₁ hcounts₂ hserver hclient hturn₁ hturn₂
  cases side with
  | server =>
      simp only [Side.ahead] at hside
      omega
  | client =>
      simp only [Side.ahead] at hside
      omega

/-- **The exchange goes on**: as long as a program has not returned, a call gets a reply that is
not a failure, or the devices move.  Else each side is blocked or has finished, and the devices are
still, which `Steady.done_of_stuck` rules out. -/
theorem Steady.goes {α : Type} {procs : Side → Prog Call Reply α} {Q : Side → Record → α → Prop}
    {expected : Record → Event Call Reply → Prop} (h : Steady n g l) (hfit : AccessesFit l)
    (hprocs : ∀ side, Obeys (exchange tell n side expected) (Q side) (procs side) (g side))
    (hdone : ∀ side r a, Q side r a → r.failed = false → r.Done n)
    (hcut : ∀ side, procs side ≠ .halt) (hcall : ∃ side c k, procs side = .call c k)
    (fresh : Buffer → Mr) :
    (∃ side c k l', procs side = .call c k ∧
      l.answer side ⟨c, goodReply fresh (l side) c⟩ = some l') ∨
    ∃ move l', l.device move = some l' := by
  by_contra hstuck
  rw [not_or] at hstuck
  obtain ⟨hnone, hstill⟩ := hstuck
  have hblocked : ∀ side c k, procs side = .call c k → Blocked g l side := by
    intro side c k hp
    have hobeys := hprocs side
    rw [hp] at hobeys
    refine blocked_of_call hobeys.1 fun hready => ?_
    obtain ⟨port', hport⟩ : ∃ port', (l side).answer (l side.other) side
        ⟨c, goodReply fresh (l side) c⟩ = some port' := answer_goodReply hready
    refine hnone ⟨side, c, k, Function.update l side port', hp, ?_⟩
    simp only [Link.answer, hport]
  have hall : ∀ side, (g side).Done n ∨ Blocked g l side := by
    intro side
    cases hp : procs side with
    | ret a =>
        have hobeys := hprocs side
        rw [hp] at hobeys
        exact Or.inl (hdone side _ a hobeys (h.good side))
    | call c k => exact Or.inr (hblocked side c k hp)
    | halt => exact absurd hp (hcut side)
  obtain ⟨side, c, k, hp⟩ := hcall
  exact h.done_of_stuck hfit (fun move l' hs => hstill ⟨move, l', hs⟩) hall side
    (hblocked side c k hp)

end

end Messages
