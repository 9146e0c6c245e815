import RdmaExamples.Library.Monitors

/-!
# Progress

Programs that share a medium come to their ends if, wherever they stand, one of them can make a call
or the medium can move by itself, and the medium does so only a number of times in between
(`exists_end`).  Nothing is said of how often a program asks again in vain: there is a run to the
end, from every state that the invariant holds in.

A program that is given fuel may be cut off where it asks again too often.  `Resilient` says that
this is the only place: from every other one the replies that take it on do not lead to it.

Two endings are distinguished.  `exists_end` gives one run to the end, which is what can be said
where a party may ask in vain for ever.  `inevitable_end` is for parties whose calls wait instead:
then all runs come to the end, by a measure on the programs, which are well-founded trees, and on
the medium.
-/

namespace Progress

open Programs Systems Monitors

variable {P C D M α β σ : Type} {R : C → Type}

/-! ## Smaller states -/

/-- `q` is where a call of `p` leads. -/
inductive Child : Prog C R α → Prog C R α → Prop
  | of {c : C} {k : R c → Prog C R α} (r : R c) : Child (k r) (.call c k)

lemma child_wf : WellFounded (Child : Prog C R α → Prog C R α → Prop) := by
  refine ⟨fun p => ?_⟩
  induction p with
  | ret a => exact ⟨_, fun q hq => by cases hq⟩
  | call c k ih =>
      refine ⟨_, fun q hq => ?_⟩
      cases hq with
      | of r => exact ih r
  | halt => exact ⟨_, fun q hq => by cases hq⟩

/-- A party has made a call, or the medium has moved by itself and has less to do. -/
def Smaller [DecidableEq P] (todo : M → ℕ) (s' s : State P C R α M) : Prop :=
  (∃ p q, Child q (s.procs p) ∧ s'.procs = Function.update s.procs p q) ∨
    s'.procs = s.procs ∧ todo s'.shared < todo s.shared

/-- That cannot go on for ever. -/
theorem smaller_wf [DecidableEq P] [Finite P] (todo : M → ℕ) :
    WellFounded (Smaller todo : State P C R α M → State P C R α M → Prop) := by
  classical
  have hprocs : WellFounded (Pi.Lex (WellOrderingRel : P → P → Prop)
      fun {_ : P} => (Child : Prog C R α → Prog C R α → Prop)) :=
    Pi.Lex.wellFounded _ fun _ => child_wf
  refine Subrelation.wf (r := InvImage (Prod.Lex _ (· < ·)) fun s : State P C R α M =>
    (s.procs, todo s.shared)) ?_ (InvImage.wf _ (WellFounded.prod_lex hprocs Nat.lt_wfRel.wf))
  rintro ⟨procs', m'⟩ ⟨procs, m⟩ (⟨p, q, hq, rfl⟩ | ⟨rfl, hm⟩)
  · refine Prod.Lex.left _ _ ⟨p, fun p' hp' => ?_, ?_⟩
    · refine Function.update_of_ne ?_ _ _
      rintro rfl
      exact irrefl _ hp'
    · show Child (Function.update procs p q p) (procs p)
      rw [Function.update_self]
      exact hq
  · exact Prod.Lex.right _ hm

/-! ## Runs to the end -/

section

variable [DecidableEq P] [Finite P] [∀ c, Nonempty (R c)] {medium : Medium P C R D M}
  {cond : M → P → Event C R → Prop} {I : State P C R α M → Prop} {todo : M → ℕ}

/-- What keeps a system going: a party makes a call that meets a condition, or the medium moves. -/
def Goes (medium : Medium P C R D M) (cond : M → P → Event C R → Prop)
    (I : State P C R α M → Prop) (todo : M → ℕ) (s : State P C R α M) : Prop :=
  (∃ p c k r m, s.procs p = .call c k ∧ cond s.shared p ⟨c, r⟩ ∧
    medium.answer s.shared p ⟨c, r⟩ = some m ∧ I ⟨Function.update s.procs p (k r), m⟩) ∨
  ∃ d m, medium.device s.shared d = some m ∧ todo m < todo s.shared ∧ I ⟨s.procs, m⟩

omit [Finite P] [∀ c, Nonempty (R c)] in
/-- The replies of a run meet its condition. -/
lemma run_meets {procs : P → Prog C R α} {m₀ : M} {tr : List (Label P C R D)} {s : State P C R α M}
    {cond : Event C R → Prop}
    (h : Runs.Run (next medium) (Meets fun _ _ => cond) ⟨procs, m₀⟩ tr s) (p : P) :
    ∀ e ∈ traceOf p tr, cond e := by
  revert p
  refine h.invariant (I := fun tr _ => ∀ p, ∀ e ∈ traceOf p tr, cond e)
    (fun p => List.forall_mem_nil _) ?_
  intro tr s choice s' es ih hmeets hs p e he
  rw [traceOf_append, List.mem_append] at he
  rcases he with hbefore | hnow
  · exact ih p e hbefore
  · cases choice with
    | call q reply =>
        obtain ⟨c, k, m, hq, -, -, rfl⟩ := next_call hs
        by_cases hpq : q = p
        · subst hpq
          rw [traceOf_self, List.mem_singleton] at hnow
          subst hnow
          exact hmeets c k hq
        · rw [traceOf_ne hpq] at hnow
          exact absurd hnow List.not_mem_nil
    | device d =>
        obtain ⟨-, -, -, rfl⟩ := next_device hs
        rw [traceOf_device] at hnow
        exact absurd hnow List.not_mem_nil

/-- **A system that keeps going comes to its end.**  By induction on the programs and the measure
of the medium together (`smaller_wf`): a call makes one program smaller whatever it does to the
medium, and a move of the medium leaves the programs as they are. -/
theorem exists_end
    (hgoes : ∀ s, I s → (∃ p c k, s.procs p = .call c k) → Goes medium cond I todo s)
    (s : State P C R α M) (hI : I s) :
    ∃ tr s', Runs.Run (next medium) (Meets cond) s tr s' ∧ I s' ∧
      ∀ p c k, s'.procs p ≠ .call c k := by
  refine (smaller_wf todo).induction (C := fun s => I s → ∃ tr s', Runs.Run (next medium)
    (Meets cond) s tr s' ∧ I s' ∧ ∀ p c k, s'.procs p ≠ .call c k) s ?_ hI
  intro s ih hI
  by_cases hend : ∃ p c k, s.procs p = .call c k
  · rcases hgoes s hI hend with ⟨p, c, k, r, m, hp, hcond, hm, hI'⟩ | ⟨d, m, hm, hless, hI'⟩
    · classical
      obtain ⟨tr, s', hrun, hend'⟩ := ih _ (Or.inl ⟨p, k r, hp ▸ Child.of r, rfl⟩) hI'
      let others : (c : C) → R c := fun c => Classical.arbitrary (R c)
      have hself : Function.update others c r c = r := Function.update_self _ _ _
      have hstep : next medium s (.call p (Function.update others c r)) =
          some (⟨Function.update s.procs p (k r), m⟩, [.call p ⟨c, r⟩]) := by
        have hanswer : medium.answer s.shared p ⟨c, Function.update others c r c⟩ = some m := by
          rw [hself]
          exact hm
        have hnext := next_of_call hp hanswer
        rwa [hself] at hnext
      have hmeets : Meets cond s (.call p (Function.update others c r) : Choice P C R D) := by
        intro c' k' hp'
        obtain ⟨rfl, -⟩ := Prog.call.inj (hp.symm.trans hp')
        rw [hself]
        exact hcond
      exact ⟨_, s', (Runs.Run.start.step hmeets hstep).append hrun, hend'⟩
    · obtain ⟨tr, s', hrun, hend'⟩ := ih ⟨s.procs, m⟩ (Or.inr ⟨rfl, hless⟩) hI'
      have hstep : next medium s (.device d : Choice P C R D) =
          some (⟨s.procs, m⟩, [.device d]) := next_of_device hm
      exact ⟨_, s', (Runs.Run.start.step trivial hstep).append hrun, hend'⟩
  · refine ⟨[], s, Runs.Run.start, hI, fun p c k hp => hend ⟨p, c, k, hp⟩⟩

omit [∀ c, Nonempty (R c)] in
/-- **A system that never gets stuck must come to its end**, in whichever order its parties move:
each call takes a program on, and the medium has less and less to do. -/
theorem inevitable_end {ok : State P C R α M → Choice P C R D → Prop}
    (hless : ∀ m d m', medium.device m d = some m' → todo m' < todo m)
    (hstep : ∀ s choice s' es, I s → ok s choice → next medium s choice = some (s', es) → I s')
    (hstuck : ∀ s, I s → (∀ choice s' es, ok s choice → next medium s choice ≠ some (s', es)) →
      ∀ p c k, s.procs p ≠ .call c k)
    (s : State P C R α M) (hI : I s) :
    Runs.Inevitable (next medium) ok (fun s => I s ∧ ∀ p c k, s.procs p ≠ .call c k) s := by
  refine (smaller_wf todo).induction (C := fun s => I s → Runs.Inevitable (next medium) ok
    (fun s => I s ∧ ∀ p c k, s.procs p ≠ .call c k) s) s ?_ hI
  intro s ih hI
  by_cases hmoves : ∃ choice s' es, ok s choice ∧ next medium s choice = some (s', es)
  · refine Runs.Inevitable.later hmoves fun choice s' es hok hs => ?_
    refine ih s' ?_ (hstep s choice s' es hI hok hs)
    rcases next_cases hs with ⟨p, c, k, r, m, hp, -, rfl, -⟩ | ⟨d, m, hm, rfl, -⟩
    · exact Or.inl ⟨p, k r, hp ▸ Child.of r, rfl⟩
    · exact Or.inr ⟨rfl, hless _ _ _ hm⟩
  · refine Runs.Inevitable.now ⟨hI, hstuck s hI fun choice s' es hok hs => ?_⟩
    exact hmoves ⟨choice, s', es, hok, hs⟩

end

/-! ## Programs that are cut off -/

/-- As long as the replies are of the first kind, those of the second do not lead to where the
program is cut off. -/
def Resilient (ok on : Event C R → Prop) : Prog C R α → Prop
  | .ret _ => True
  | .call c k => ∀ r, ok ⟨c, r⟩ → Resilient ok on (k r) ∧ (on ⟨c, r⟩ → k r ≠ .halt)
  | .halt => True

namespace Resilient

variable {ok on : Event C R → Prop} {s : σ} {c : C}

/-- Sequences. -/
theorem prog_bind {p : Prog C R α} {f : α → Prog C R β} (hp : Resilient ok on p)
    (hf : ∀ a, Resilient ok on (f a) ∧ f a ≠ .halt) : Resilient ok on (p >>= f) := by
  induction p with
  | ret a => exact (hf a).1
  | call c k ih =>
      intro r hr
      refine ⟨ih r (hp r hr).1, fun hon => ?_⟩
      have hk := (hp r hr).2 hon
      show k r >>= f ≠ .halt
      cases hkr : k r with
      | ret a => exact (hf a).2
      | call c' k' => simp
      | halt => exact absurd hkr hk
  | halt => trivial

/-- Where a program stands after replies of the first kind. -/
theorem steps {p q : Prog C R α} {t : List (Event C R)} (h : Resilient ok on p)
    (ht : Steps p t q) (hok : ∀ e ∈ t, ok e) : Resilient ok on q := by
  induction ht with
  | here p => exact h
  | call _ ih =>
      refine ih (h _ (hok _ List.mem_cons_self)).1 fun e he => ?_
      exact hok e (List.mem_cons_of_mem _ he)

end Resilient

/-- A program that is not cut off where it stands, and that the right replies do not lead to where
it is. -/
def Sturdy (ok on : Event C R → Prop) (p : Prog C R α) : Prop := Resilient ok on p ∧ p ≠ .halt

namespace Sturdy

variable {ok on : Event C R → Prop} {s : σ} {a : α} {c : C} {m m' : StateProg C R σ α}
  {f : α → StateProg C R σ β}

/-- A reply that takes the program on. -/
lemma next {k : R c → Prog C R α} {r : R c} (h : Sturdy ok on (.call c k)) (hok : ok ⟨c, r⟩)
    (hon : on ⟨c, r⟩) : Sturdy ok on (k r) := ⟨(h.1 r hok).1, (h.1 r hok).2 hon⟩

lemma pure : Sturdy ok on ((Pure.pure a : StateProg C R σ α).run s) := ⟨trivial, by simp⟩

lemma bind (hm : Sturdy ok on (m.run s)) (hf : ∀ a s', Sturdy ok on ((f a).run s')) :
    Sturdy ok on ((m >>= f).run s) := by
  refine ⟨hm.1.prog_bind fun r => hf r.1 r.2, ?_⟩
  show m.run s >>= (fun r => (f r.1).run r.2) ≠ .halt
  cases hp : m.run s with
  | ret r => exact (hf r.1 r.2).2
  | call c k => simp
  | halt => exact absurd hp hm.2

lemma perform : Sturdy ok on ((Programs.perform c : StateProg C R σ (R c)).run s) := by
  rw [run_perform]
  exact ⟨fun r _ => ⟨trivial, fun _ => by simp⟩, by simp⟩

lemma perform_bind {f : R c → StateProg C R σ β}
    (h : ∀ r, ok ⟨c, r⟩ → Sturdy ok on ((f r).run s)) :
    Sturdy ok on ((Programs.perform c >>= f).run s) := by
  rw [run_perform_bind]
  exact ⟨fun r hr => ⟨(h r hr).1, fun _ => (h r hr).2⟩, by simp⟩

/-- A call that may be the last one that there is fuel for. -/
lemma last {f : R c → StateProg C R σ β}
    (h : ∀ r, ok ⟨c, r⟩ → Sturdy ok on ((f r).run s) ∨
      ¬ on ⟨c, r⟩ ∧ (f r).run s = .halt) :
    Sturdy ok on ((Programs.perform c >>= f).run s) := by
  rw [run_perform_bind]
  refine ⟨fun r hr => ?_, by simp⟩
  rcases h r hr with hsturdy | ⟨hon, hhalt⟩
  · exact ⟨hsturdy.1, fun _ => hsturdy.2⟩
  · have hresilient : Resilient ok on ((f r).run s) := by
      rw [hhalt]
      trivial
    exact ⟨hresilient, fun h => absurd h hon⟩

lemma get_bind {f : σ → StateProg C R σ β} (h : Sturdy ok on ((f s).run s)) :
    Sturdy ok on ((get >>= f).run s) := h

lemma modify_bind {u : σ → σ} {f : PUnit → StateProg C R σ β}
    (h : Sturdy ok on ((f ⟨⟩).run (u s))) : Sturdy ok on ((modify u >>= f).run s) := h

lemma modify {u : σ → σ} : Sturdy ok on ((modify u : StateProg C R σ PUnit).run s) :=
  ⟨trivial, by rw [StateT.run_modify, Prog.pure_eq_ret]; simp⟩

lemma ite {b : Prop} [Decidable b] (h : b → Sturdy ok on (m.run s))
    (h' : ¬ b → Sturdy ok on (m'.run s)) :
    Sturdy ok on ((if b then m else m' : StateProg C R σ α).run s) := by
  split
  · exact h ‹_›
  · exact h' ‹_›

end Sturdy

end Progress
