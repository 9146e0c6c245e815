import RdmaExamples.Library.Programs
import RdmaExamples.Library.Runs

/-!
# Programs that share a medium

Several parties, each with a sequential program, and what lies between them: channels, queues,
memory.  They move one call at a time, in any order; the medium says in which of its states a call
may get a reply, and moves by itself now and then.

* `next` — one step, of a party or of the medium; its runs are those of `Runs.Run`.
* `traceOf p tr` — the part of the party `p` in what a run shows.
* `Run.steps` — each party has run its own program.
* `Run.solo` — a party can go on by itself.
* `Run.shared` — the invariant rule: what the medium keeps up, where its parties run their programs.

A call and its reply are one step.  A party that waits is one whose call gets no reply in the state
that the medium is in; nothing marks it as waiting.
-/

namespace Systems

open Programs

/-- What the parties `P` share: when a call of a party gets a reply, and what the medium does by
itself. -/
structure Medium (P C : Type) (R : C → Type) (D M : Type) where
  answer : M → P → Event C R → Option M
  device : M → D → Option M

/-- What a run shows: a call of a party, or a move of the medium. -/
inductive Label (P C : Type) (R : C → Type) (D : Type)
  | call (p : P) (e : Event C R)
  | device (d : D)

/-- Whose turn it is, with what its call answers. -/
inductive Choice (P C : Type) (R : C → Type) (D : Type)
  | call (p : P) (reply : (c : C) → R c)
  | device (d : D)

/-- The programs of the parties, each from where it stands, and the medium. -/
structure State (P C : Type) (R : C → Type) (α M : Type) where
  procs : P → Prog C R α
  shared : M

variable {P C D M α : Type} {R : C → Type}

/-- One step. -/
def next [DecidableEq P] (medium : Medium P C R D M) (s : State P C R α M) :
    Choice P C R D → Option (State P C R α M × List (Label P C R D))
  | .call p reply =>
      match s.procs p with
      | .call c k =>
          match medium.answer s.shared p ⟨c, reply c⟩ with
          | some m =>
              some (⟨Function.update s.procs p (k (reply c)), m⟩, [.call p ⟨c, reply c⟩])
          | none => none
      | _ => none
  | .device d =>
      match medium.device s.shared d with
      | some m => some (⟨s.procs, m⟩, [.device d])
      | none => none

/-- What a party has come to, if it is at its end. -/
def State.result (s : State P C R α M) (p : P) : Option α :=
  match s.procs p with
  | .ret a => some a
  | _ => none

lemma State.procs_of_result {s : State P C R α M} {p : P} {a : α} (h : s.result p = some a) :
    s.procs p = .ret a := by
  rw [State.result] at h
  split at h
  · rename_i b hb
    rw [hb, Option.some.inj h]
  · exact absurd h (by simp)

/-- The call of a label, if it is the party's. -/
def Label.of [DecidableEq P] (p : P) : Label P C R D → Option (Event C R)
  | .call q e => if q = p then some e else none
  | .device _ => none

/-- The move of a label, if it is one of the medium. -/
def Label.moved : Label P C R D → Option D
  | .call _ _ => none
  | .device d => some d

/-- The part of a party in a run. -/
def traceOf [DecidableEq P] (p : P) (tr : List (Label P C R D)) : List (Event C R) :=
  tr.filterMap (Label.of p)

/-- How often the medium has made a move. -/
def moves [DecidableEq D] (d : D) (tr : List (Label P C R D)) : ℕ :=
  tr.countP fun l => decide (l.moved = some d)

section

variable [DecidableEq D]

@[simp] lemma moves_nil (d : D) : moves d ([] : List (Label P C R D)) = 0 := rfl

@[simp] lemma moves_append (d : D) (tr tr' : List (Label P C R D)) :
    moves d (tr ++ tr') = moves d tr + moves d tr' := List.countP_append

@[simp] lemma moves_call (d : D) (p : P) (e : Event C R) :
    moves d ([.call p e] : List (Label P C R D)) = 0 := by simp [moves, Label.moved]

@[simp] lemma moves_device (d d' : D) :
    moves d ([.device d'] : List (Label P C R D)) = if d' = d then 1 else 0 := by
  simp [moves, Label.moved, List.countP_cons]

end

section

variable [DecidableEq P] {medium : Medium P C R D M} {procs : P → Prog C R α} {m₀ m m' : M}
  {s s' : State P C R α M} {tr tr' : List (Label P C R D)} {p q : P} {e : Event C R} {d : D}

@[simp] lemma traceOf_nil : traceOf p ([] : List (Label P C R D)) = [] := rfl

@[simp] lemma traceOf_append : traceOf p (tr ++ tr') = traceOf p tr ++ traceOf p tr' :=
  List.filterMap_append

@[simp] lemma traceOf_self : traceOf p ([.call p e] : List (Label P C R D)) = [e] := by
  simp [traceOf, Label.of]

lemma traceOf_ne (h : q ≠ p) : traceOf p ([.call q e] : List (Label P C R D)) = [] := by
  simp [traceOf, Label.of, h]

@[simp] lemma traceOf_device : traceOf p ([.device d] : List (Label P C R D)) = [] := rfl

/-- The step of a party. -/
lemma next_call {reply : (c : C) → R c} {es : List (Label P C R D)}
    (h : next medium s (.call p reply) = some (s', es)) :
    ∃ c k m, s.procs p = .call c k ∧ medium.answer s.shared p ⟨c, reply c⟩ = some m ∧
      s' = ⟨Function.update s.procs p (k (reply c)), m⟩ ∧ es = [.call p ⟨c, reply c⟩] := by
  simp only [next] at h
  split at h
  · rename_i c k hp
    split at h
    · rename_i m hm
      simp only [Option.some.injEq, Prod.mk.injEq] at h
      exact ⟨c, k, m, hp, hm, h.1.symm, h.2.symm⟩
    · exact absurd h (by simp)
  · exact absurd h (by simp)

/-- The step of the medium. -/
lemma next_device {es : List (Label P C R D)} (h : next medium s (.device d) = some (s', es)) :
    ∃ m, medium.device s.shared d = some m ∧ s' = ⟨s.procs, m⟩ ∧ es = [.device d] := by
  simp only [next] at h
  split at h
  · rename_i m hm
    simp only [Option.some.injEq, Prod.mk.injEq] at h
    exact ⟨m, hm, h.1.symm, h.2.symm⟩
  · exact absurd h (by simp)

lemma next_of_call {reply : (c : C) → R c} {c : C} {k : R c → Prog C R α} {m : M}
    (hp : s.procs p = .call c k) (hm : medium.answer s.shared p ⟨c, reply c⟩ = some m) :
    next medium s (.call p reply) =
      some (⟨Function.update s.procs p (k (reply c)), m⟩, [.call p ⟨c, reply c⟩]) := by
  simp only [next, hp, hm]

lemma next_of_device {m : M} (hm : medium.device s.shared d = some m) :
    next medium s (.device d : Choice P C R D) = some (⟨s.procs, m⟩, [.device d]) := by
  simp only [next, hm]

/-- **All that one step can do.** -/
lemma next_cases {choice : Choice P C R D} {es : List (Label P C R D)}
    (h : next medium s choice = some (s', es)) :
    (∃ p c k r m, s.procs p = .call c k ∧ medium.answer s.shared p ⟨c, r⟩ = some m ∧
      s' = ⟨Function.update s.procs p (k r), m⟩ ∧ es = [.call p ⟨c, r⟩]) ∨
    ∃ d m, medium.device s.shared d = some m ∧ s' = ⟨s.procs, m⟩ ∧ es = [.device d] := by
  cases choice with
  | call p reply =>
      obtain ⟨c, k, m, hp, hm, hs', hes⟩ := next_call h
      exact Or.inl ⟨p, c, k, reply c, m, hp, hm, hs', hes⟩
  | device d =>
      obtain ⟨m, hm, hs', hes⟩ := next_device h
      exact Or.inr ⟨d, m, hm, hs', hes⟩

/-- A call takes the program of its party on, and leaves the others. -/
lemma steps_call {c : C} {k : R c → Prog C R α} {r : R c}
    (h : ∀ q, Steps (procs q) (traceOf q tr) (s.procs q)) (hp : s.procs p = .call c k) (q : P) :
    Steps (procs q) (traceOf q (tr ++ [.call p ⟨c, r⟩]))
      (Function.update s.procs p (k r) q) := by
  by_cases hq : p = q
  · subst hq
    have hhere := h p
    rw [hp] at hhere
    rw [traceOf_append, traceOf_self, Function.update_self]
    exact hhere.snoc r
  · rw [traceOf_append, traceOf_ne hq, List.append_nil, Function.update_of_ne (Ne.symm hq)]
    exact h q

/-- **Each party runs its own program.** -/
theorem Run.steps (h : Runs.Run (next medium) Runs.always ⟨procs, m₀⟩ tr s) (q : P) :
    Steps (procs q) (traceOf q tr) (s.procs q) := by
  revert q
  refine h.invariant (I := fun tr s => ∀ q, Steps (procs q) (traceOf q tr) (s.procs q))
    (fun q => Steps.here _) ?_
  intro tr s choice s' es ih _ hs
  rcases next_cases hs with ⟨p, c, k, r, m, hp, -, rfl, rfl⟩ | ⟨d, m, -, rfl, rfl⟩
  · exact steps_call ih hp
  · intro q
    rw [traceOf_append, traceOf_device, List.append_nil]
    exact ih q

lemma Run.canDo (h : Runs.Run (next medium) Runs.always ⟨procs, m₀⟩ tr s) (q : P) :
    CanDo (procs q) (traceOf q tr) := ⟨_, Run.steps h q⟩

/-- The call that a party waits for comes next in its trace. -/
lemma Run.canDo_next {c : C} {k : R c → Prog C R α}
    (h : Runs.Run (next medium) Runs.always ⟨procs, m₀⟩ tr s) (hp : s.procs p = .call c k)
    (r : R c) : CanDo (procs p) (traceOf p tr ++ [⟨c, r⟩]) := by
  have hsteps := Run.steps h p
  rw [hp] at hsteps
  exact ⟨_, hsteps.snoc r⟩

/-- A party that is at its end has returned. -/
lemma Run.returns {a : α} (h : Runs.Run (next medium) Runs.always ⟨procs, m₀⟩ tr s)
    (hp : s.procs p = .ret a) : Returns (procs p) (traceOf p tr) a := by
  have hsteps := Run.steps h p
  rwa [hp] at hsteps

/-- **The invariant rule for the medium**, where the parties run their programs. -/
theorem Run.shared {I : List (Label P C R D) → M → Prop} (hstart : I [] m₀)
    (hcall : ∀ tr m p e m', I tr m → (∀ q, CanDo (procs q) (traceOf q (tr ++ [.call p e]))) →
      medium.answer m p e = some m' → I (tr ++ [.call p e]) m')
    (hdevice : ∀ tr m d m', I tr m → (∀ q, CanDo (procs q) (traceOf q tr)) →
      medium.device m d = some m' → I (tr ++ [.device d]) m')
    (h : Runs.Run (next medium) Runs.always ⟨procs, m₀⟩ tr s) : I tr s.shared := by
  suffices hboth : (∀ q, Steps (procs q) (traceOf q tr) (s.procs q)) ∧ I tr s.shared from hboth.2
  refine h.invariant
    (I := fun tr s => (∀ q, Steps (procs q) (traceOf q tr) (s.procs q)) ∧ I tr s.shared)
    ⟨fun q => Steps.here _, hstart⟩ ?_
  intro tr s choice s' es ih _ hs
  obtain ⟨hsteps, hinv⟩ := ih
  rcases next_cases hs with ⟨p, c, k, r, m, hp, hm, rfl, rfl⟩ | ⟨d, m, hm, rfl, rfl⟩
  · have hsteps' := steps_call (r := r) hsteps hp
    exact ⟨hsteps', hcall _ _ _ _ _ hinv (fun q => ⟨_, hsteps' q⟩) hm⟩
  · refine ⟨fun q => ?_, hdevice _ _ _ _ hinv (fun q => ⟨_, hsteps q⟩) hm⟩
    rw [traceOf_append, traceOf_device, List.append_nil]
    exact hsteps q

end

/-! ## A party by itself -/

/-- What a party's calls make of the medium, if they get these replies one after the other. -/
def Medium.answers (medium : Medium P C R D M) (p : P) : M → List (Event C R) → Option M
  | m, [] => some m
  | m, e :: t =>
      match medium.answer m p e with
      | some m' => medium.answers p m' t
      | none => none

/-- **A party can go on by itself**, as its program and the medium let it.  The calls of the others
are left as they are, so that a run can be written down one party after the other. -/
theorem Run.solo [DecidableEq P] {medium : Medium P C R D M} {s₀ s : State P C R α M}
    {tr : List (Label P C R D)} (others : (c : C) → R c) {p : P} {t : List (Event C R)}
    {q : Prog C R α} {m : M} (h : Runs.Run (next medium) Runs.always s₀ tr s)
    (hsteps : Steps (s.procs p) t q) (hm : medium.answers p s.shared t = some m) :
    Runs.Run (next medium) Runs.always s₀ (tr ++ t.map (Label.call p))
      ⟨Function.update s.procs p q, m⟩ := by
  generalize hp : s.procs p = p₀ at hsteps
  induction hsteps generalizing s tr with
  | here p₀ =>
      rw [← hp, Function.update_eq_self, ← Option.some.inj hm, List.map_nil, List.append_nil]
      exact h
  | @call c k r t q _ ih =>
      classical
      simp only [Medium.answers] at hm
      split at hm
      · rename_i m' hm'
        have hstep : next medium s (.call p (Function.update others c r)) =
            some (⟨Function.update s.procs p (k r), m'⟩, [.call p ⟨c, r⟩]) := by
          have hanswer : medium.answer s.shared p ⟨c, Function.update others c r c⟩ = some m' := by
            rw [Function.update_self]
            exact hm'
          have hnext := next_of_call hp hanswer
          rwa [Function.update_self] at hnext
        have hrest := ih (h.step trivial hstep) hm (Function.update_self _ _ _)
        rw [Function.update_idem, List.append_assoc] at hrest
        exact hrest
      · exact absurd hm (by simp)

/-! ## Programs that are cut off -/

/-- `p` is what `p'` is, up to where `p` is cut off. -/
def Cut : Prog C R α → Prog C R α → Prop
  | .halt, _ => True
  | .ret a, p' => p' = .ret a
  | .call c k, p' => ∃ k', p' = .call c k' ∧ ∀ r, Cut (k r) (k' r)

lemma cut_refl (p : Prog C R α) : Cut p p := by
  induction p with
  | ret a => rfl
  | call c k ih => exact ⟨k, rfl, ih⟩
  | halt => trivial

/-- A sequence that is cut off behind its first part. -/
lemma cut_bind {β : Type} (p : Prog C R β) (f : β → Prog C R α) :
    Cut (p >>= fun _ => Prog.halt) (p >>= f) := by
  induction p with
  | ret a => trivial
  | call c k ih => exact ⟨fun r => k r >>= f, rfl, ih⟩
  | halt => trivial

/-- **What programs do that are cut off, whole programs do as well.** -/
theorem Run.of_cut [DecidableEq P] {medium : Medium P C R D M} {procs procs' : P → Prog C R α}
    {m₀ : M} {s : State P C R α M} {tr : List (Label P C R D)}
    (hcut : ∀ p, Cut (procs p) (procs' p))
    (h : Runs.Run (next medium) Runs.always ⟨procs, m₀⟩ tr s) :
    ∃ s', Runs.Run (next medium) Runs.always ⟨procs', m₀⟩ tr s' ∧ s'.shared = s.shared ∧
      ∀ p, Cut (s.procs p) (s'.procs p) := by
  refine h.invariant (I := fun tr s => ∃ s', Runs.Run (next medium) Runs.always ⟨procs', m₀⟩ tr s' ∧
    s'.shared = s.shared ∧ ∀ p, Cut (s.procs p) (s'.procs p)) ⟨_, Runs.Run.start, rfl, hcut⟩ ?_
  rintro tr s choice s₁ es ⟨s', hrun, hshared, hall⟩ - hs
  cases choice with
  | call p reply =>
      obtain ⟨c, k, m, hp, hm, rfl, rfl⟩ := next_call hs
      have hcutp := hall p
      rw [hp] at hcutp
      obtain ⟨k', hp', hk⟩ := hcutp
      rw [← hshared] at hm
      refine ⟨⟨Function.update s'.procs p (k' (reply c)), m⟩,
        hrun.step trivial (next_of_call hp' hm), rfl, fun q => ?_⟩
      · by_cases hq : q = p
        · subst hq
          simp only [Function.update_self]
          exact hk _
        · simp only [Function.update_of_ne hq]
          exact hall q
  | device d =>
      obtain ⟨m, hm, rfl, rfl⟩ := next_device hs
      rw [← hshared] at hm
      exact ⟨⟨s'.procs, m⟩, hrun.step trivial (next_of_device hm), rfl, hall⟩

end Systems
