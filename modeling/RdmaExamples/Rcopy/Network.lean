import RdmaExamples.Library.Runs
import RdmaExamples.Rcopy.Client
import RdmaExamples.Rcopy.Server
import RdmaExamples.Rcopy.Streams

/-!
# Client and server on a network

A run of `client_run` and one round of `server_run`, interleaved, with a reliable byte stream in
each direction.  The two move one call at a time (`nextNet`); a choice says whose turn it is, and
what its calls answer.  No call fails: `rsend` takes everything, `rrecv` returns any number of the
bytes that are there, and the end of the stream once the other side has shut its socket down and
nothing is left.  The file that the client copies is a parameter.

Each side's own part of a run is a run of its program, fed by what the other side has sent
(`netOk_run`).

A side that receives waits until there is something, or until the other one has shut its socket
down; a choice that would give it anything else is refused.  `traceOf` takes the calls of one side
out of a run of both, and since they are a run of its program, the lemmas about one program alone
apply to it.
-/

namespace Rcopy

open Programs

/-- The two processes. -/
inductive Side
  | client
  | server
  deriving DecidableEq

/-- The other one. -/
def Side.other : Side → Side
  | .client => .server
  | .server => .client

/-- The processes; the bytes that are on their way to each; who has shut the socket down. -/
structure Net where
  procs : Side → Prog Call Reply (Int × Globals)
  inbox : Side → List UInt8
  shut : Side → Bool

/-- Whose turn it is, and what a call answers. -/
abbrev NetChoice := Side × ((c : Call) → Reply c)

/-- The calls that do not concern the streams succeed; the client finds its file. -/
def succeeds (src : List UInt8) (side : Side) : Event Call Reply → Bool
  | ⟨.getaddrinfo, ret⟩ => decide (ret = 0)
  | ⟨.rsSocket, rs⟩ => decide (0 ≤ rs)
  | ⟨.rconnect, ret⟩ => decide (ret = 0)
  | ⟨.rrecv _ _ _, reply⟩ => reply.isSome
  | ⟨.rsend bs, sent⟩ => decide (sent.ret = bs.length)
  | ⟨.malloc _, heap⟩ => heap.isSome
  | ⟨.calloc _, block⟩ => block
  | ⟨.openFile _ _ _, .error _⟩ => false
  | ⟨.fstat _, .ok stat⟩ => decide (stat.size = src.length)
  | ⟨.fstat _, .error _⟩ => false
  | ⟨.ftruncate _ _, .error _⟩ => false
  | ⟨.mmap _ _, .ok mapping⟩ => decide (side = .server ∨ mapping.mem = src)
  | ⟨.mmap _ _, .error _⟩ => false
  | _ => true

/-- What the network lets happen to a side. -/
def Net.allows (src : List UInt8) (s : Net) (side : Side) (e : Event Call Reply) : Bool :=
  succeeds src side e && decide (takenOf e = (s.inbox side).take (takenOf e).length) &&
    (match got e with
    | .data [] => decide (s.inbox side = []) && s.shut side.other
    | _ => true) &&
    (decide (sentOf e = []) || !s.shut side)

/-- The event is an `rshutdown`. -/
def shutsDown : Event Call Reply → Bool
  | ⟨.rshutdown, _⟩ => true
  | _ => false

/-- The event `e` of a side, after which its program is at `p`. -/
def Net.move (s : Net) (side : Side) (e : Event Call Reply)
    (p : Prog Call Reply (Int × Globals)) : Net where
  procs := Function.update s.procs side p
  inbox := Function.update
    (Function.update s.inbox side ((s.inbox side).drop (takenOf e).length))
    side.other (s.inbox side.other ++ sentOf e)
  shut q := s.shut q || decide (q = side) && shutsDown e

/-- One step. -/
def nextNet (src : List UInt8) (s : Net) : NetChoice → Option (Net × List (Side × Event Call Reply))
  | (side, answer) =>
      match s.procs side with
      | .call c k =>
          if s.allows src side ⟨c, answer c⟩ then
            some (s.move side ⟨c, answer c⟩ (k (answer c)), [(side, ⟨c, answer c⟩)])
          else none
      | _ => none

/-- The program of a side; the client's result is that of `client_run`. -/
def program (fuel : ℕ) (srcFile dstFile : List UInt8) (g : Globals) :
    Side → Prog Call Reply (Int × Globals)
  | .client => (clientRun fuel srcFile dstFile).run {}
  | .server => (serverSession fuel >>= fun _ => pure 0).run g

/-- The start: nothing is on its way. -/
def Net.start (procs : Side → Prog Call Reply (Int × Globals)) : Net where
  procs := procs
  inbox _ := []
  shut _ := false

/-- The part of a side in a run. -/
def traceOf (side : Side) (tr : List (Side × Event Call Reply)) : Trace :=
  tr.filterMap fun e => if e.1 = side then some e.2 else none

/-- What is known of a side in every state. -/
structure SideOk (src : List UInt8) (procs : Side → Prog Call Reply (Int × Globals))
    (tr : List (Side × Event Call Reply)) (s : Net) (side : Side) : Prop where
  steps : Steps (procs side) (traceOf side tr) (s.procs side)
  succeeds : ∀ e ∈ traceOf side tr, succeeds src side e = true
  feeds : Feeds (sentBytes (traceOf side.other tr)) (traceOf side tr) (s.inbox side)
  eof : HasEof (traceOf side tr) → s.shut side.other = true

section

variable {src : List UInt8} {procs : Side → Prog Call Reply (Int × Globals)}
  {tr : List (Side × Event Call Reply)} {s : Net} {side : Side} {e : Event Call Reply}
  {p : Prog Call Reply (Int × Globals)}

@[simp] lemma other_other : side.other.other = side := by cases side <;> rfl

@[simp] lemma other_ne : side.other ≠ side := by cases side <;> decide

@[simp] lemma ne_other : side ≠ side.other := by cases side <;> decide

lemma traceOf_self : traceOf side (tr ++ [(side, e)]) = traceOf side tr ++ [e] := by
  simp [traceOf]

lemma traceOf_other : traceOf side.other (tr ++ [(side, e)]) = traceOf side.other tr := by
  simp [traceOf]

lemma takes_of_allows (h : s.allows src side e = true) :
    Takes (s.inbox side) e ((s.inbox side).drop (takenOf e).length) := by
  simp only [Net.allows, Bool.and_eq_true, decide_eq_true_eq] at h
  obtain ⟨⟨⟨hsucceeds, htaken⟩, heof⟩, -⟩ := h
  rw [Takes]
  split
  · rename_i hgot
    simp [takenOf, hgot]
  · rename_i hgot
    obtain ⟨c, r⟩ := e
    cases c <;> simp only [got, reduceCtorEq] at hgot
    cases r <;> simp [succeeds] at hgot hsucceeds
  · rename_i bs hgot
    have htakenOf : takenOf e = bs := by rw [takenOf, hgot]
    rw [htakenOf] at htaken ⊢
    refine ⟨?_, fun hnil => ?_⟩
    · conv_lhs => rw [← List.take_append_drop bs.length (s.inbox side), ← htaken]
    · subst hnil
      rw [hgot] at heof
      simp only [Bool.and_eq_true, decide_eq_true_eq] at heof
      exact heof.1

/-- The side that moves. -/
lemma SideOk.mover {c : Call} {k : Reply c → Prog Call Reply (Int × Globals)} {r : Reply c}
    (h : SideOk src procs tr s side) (hp : s.procs side = .call c k)
    (hallows : s.allows src side ⟨c, r⟩ = true) :
    SideOk src procs (tr ++ [(side, ⟨c, r⟩)]) (s.move side ⟨c, r⟩ (k r)) side where
  steps := by
    rw [traceOf_self, show (s.move side ⟨c, r⟩ (k r)).procs side = k r by simp [Net.move]]
    exact Steps.snoc (hp ▸ h.steps) r
  succeeds e he := by
    rw [traceOf_self, List.mem_append, List.mem_singleton] at he
    rcases he with he | rfl
    · exact h.succeeds e he
    · simp only [Net.allows, Bool.and_eq_true] at hallows
      exact hallows.1.1.1
  feeds := by
    have hinbox : (s.move side ⟨c, r⟩ (k r)).inbox side
        = (s.inbox side).drop (takenOf ⟨c, r⟩).length := by simp [Net.move]
    rw [traceOf_self, traceOf_other, hinbox]
    exact feeds_append.mpr ⟨_, h.feeds, _, takes_of_allows hallows, rfl⟩
  eof heof := by
    have hshut : s.shut side.other = true := by
      rw [traceOf_self, hasEof_append] at heof
      rcases heof with heof | heof
      · exact h.eof heof
      · simp only [hasEof_cons, hasEof_nil, or_false] at heof
        simp only [Net.allows, Bool.and_eq_true, heof] at hallows
        exact hallows.1.2.2
    simp [Net.move, hshut]

/-- The side that waits. -/
lemma SideOk.waiter {c : Call} {k : Reply c → Prog Call Reply (Int × Globals)} {r : Reply c}
    (h : SideOk src procs tr s side.other) (hallows : s.allows src side ⟨c, r⟩ = true) :
    SideOk src procs (tr ++ [(side, ⟨c, r⟩)]) (s.move side ⟨c, r⟩ (k r)) side.other where
  steps := by
    rw [traceOf_other, show (s.move side ⟨c, r⟩ (k r)).procs side.other = s.procs side.other by
      simp [Net.move]]
    exact h.steps
  succeeds e he := h.succeeds e (by rwa [traceOf_other] at he)
  feeds := by
    have hinbox : (s.move side ⟨c, r⟩ (k r)).inbox side.other
        = s.inbox side.other ++ sentOf ⟨c, r⟩ := by simp [Net.move]
    have hfeeds := h.feeds
    rw [other_other] at hfeeds
    rw [traceOf_other, other_other, traceOf_self, sentBytes_append, hinbox, sentBytes_cons,
      sentBytes_nil, List.append_nil]
    simp only [Net.allows, Bool.and_eq_true, Bool.or_eq_true, decide_eq_true_eq,
      Bool.not_eq_true'] at hallows
    rcases hallows.2 with hnone | hopen
    · rwa [hnone, List.append_nil, List.append_nil]
    · -- the end is not reported before the sender has shut down
      refine hfeeds.extend _ fun heof => ?_
      have hshut := h.eof heof
      rw [other_other, hopen] at hshut
      exact Bool.noConfusion hshut
  eof heof := by
    rw [traceOf_other] at heof
    have hshut := h.eof heof
    rw [other_other] at hshut ⊢
    simp [Net.move, hshut]

/-- What is known of both sides. -/
def NetOk (src : List UInt8) (procs : Side → Prog Call Reply (Int × Globals))
    (tr : List (Side × Event Call Reply)) (s : Net) : Prop := ∀ side, SideOk src procs tr s side

lemma netOk_start : NetOk src procs [] (Net.start procs) := fun side => {
  steps := Steps.here _
  succeeds := by simp [traceOf]
  feeds := rfl
  eof := by simp [traceOf] }

theorem NetOk.step {choice : NetChoice} {s' : Net} {es : List (Side × Event Call Reply)}
    (h : NetOk src procs tr s) (hs : nextNet src s choice = some (s', es)) :
    NetOk src procs (tr ++ es) s' := by
  obtain ⟨mover, answer⟩ := choice
  simp only [nextNet] at hs
  split at hs
  · rename_i c k hp
    split at hs
    · rename_i hallows
      simp only [Option.some.injEq, Prod.mk.injEq] at hs
      obtain ⟨rfl, rfl⟩ := hs
      intro side
      by_cases hside : side = mover
      · subst hside
        exact (h side).mover hp hallows
      · obtain rfl : side = mover.other := by
          cases side <;> cases mover <;> first | rfl | exact absurd rfl hside
        exact (h mover.other).waiter hallows
    · exact absurd hs (by simp)
  · exact absurd hs (by simp)

/-- **The sides of a run.**  Each side has run its own program, on the stream of what the other one
has sent. -/
theorem netOk_run (h : Runs.Run (nextNet src) Runs.always (Net.start procs) tr s) :
    NetOk src procs tr s :=
  h.invariant (I := NetOk src procs) netOk_start fun _ _ _ _ _ hok _ hs => hok.step hs

end

end Rcopy
