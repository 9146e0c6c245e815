import RdmaExamples.Library.Systems

/-!
# Monitors

A monitor watches the calls of one party.  It keeps a record of what it has seen, and says from it
which call the party may make next and which reply the party may count on.

* `Obeys mon Q p g` — from the record `g` on, `p` makes only calls that it may make, as long as it
  gets replies that it may count on, and ends as `Q` says.
* `Run.monitored` — parties that obey their monitors, on a medium that gives each of them what it
  may count on: what one step keeps up, of the records and of the medium, holds in every run.

The use of a monitor is to prove something about many programs that run together by looking at one
program at a time.  The record takes the place of the program's state: it says what a program has
done, and the invariant of the whole system is stated with the records and the medium only.
-/

namespace Monitors

open Programs Systems

variable {P C D M G α β σ : Type} {R : C → Type}

/-- What a party may do, and what it may count on. -/
structure Monitor (C : Type) (R : C → Type) (G : Type) where
  allowed : G → C → Prop
  expected : G → Event C R → Prop
  after : G → Event C R → G

/-- The program keeps to what it may do, as long as it gets what it may count on. -/
def Obeys (mon : Monitor C R G) (Q : G → α → Prop) : Prog C R α → G → Prop
  | .ret a, g => Q g a
  | .call c k, g =>
      mon.allowed g c ∧ ∀ r, mon.expected g ⟨c, r⟩ → Obeys mon Q (k r) (mon.after g ⟨c, r⟩)
  | .halt, _ => True

/-- The replies of a run, from a record on, are those that the party may count on. -/
def Monitor.CountsOn (mon : Monitor C R G) : G → List (Event C R) → Prop
  | _, [] => True
  | g, e :: t => mon.expected g e ∧ mon.CountsOn (mon.after g e) t

/-- The calls of a run, from a record on, are those that the party may make. -/
def Monitor.Allows (mon : Monitor C R G) : G → List (Event C R) → Prop
  | _, [] => True
  | g, e :: t => mon.allowed g e.1 ∧ mon.Allows (mon.after g e) t

lemma Monitor.countsOn_append {mon : Monitor C R G} {g : G} {t t' : List (Event C R)} :
    mon.CountsOn g (t ++ t') ↔ mon.CountsOn g t ∧ mon.CountsOn (t.foldl mon.after g) t' := by
  induction t generalizing g with
  | nil => simp [Monitor.CountsOn]
  | cons e t ih => simp [Monitor.CountsOn, ih, and_assoc]

/-- It is enough that every reply is one to count on where it comes. -/
lemma Monitor.countsOn_of_forall {mon : Monitor C R G} {g : G} {t : List (Event C R)}
    (h : ∀ t₁ e t₂, t = t₁ ++ e :: t₂ → mon.expected (t₁.foldl mon.after g) e) :
    mon.CountsOn g t := by
  induction t generalizing g with
  | nil => trivial
  | cons e t ih =>
      refine ⟨h [] e t rfl, ih fun t₁ e' t₂ ht => ?_⟩
      exact h (e :: t₁) e' t₂ (by rw [ht, List.cons_append])

/-- Every call may be made where it comes. -/
lemma Monitor.Allows.at {mon : Monitor C R G} {g : G} {t₁ t₂ : List (Event C R)} {e : Event C R}
    (h : mon.Allows g (t₁ ++ e :: t₂)) : mon.allowed (t₁.foldl mon.after g) e.1 := by
  induction t₁ generalizing g with
  | nil => exact h.1
  | cons e' t₁ ih => exact ih h.2

/-- What may be said of every record may be said of every call that is made. -/
lemma Monitor.Allows.forall {mon : Monitor C R G} {g : G} {t : List (Event C R)} {ok : C → Prop}
    (h : mon.Allows g t) (hok : ∀ g c, mon.allowed g c → ok c) : ∀ e ∈ t, ok e.1 := by
  intro e he
  obtain ⟨t₁, t₂, rfl⟩ := List.append_of_mem he
  exact hok _ _ h.at

/-- The monitor that only looks at the calls. -/
def watch (ok : C → Prop) : Monitor C R Unit := ⟨fun _ c => ok c, fun _ _ => True, fun g _ => g⟩

/-- Calls that may be made at a record, and leave it as it is. -/
def Free (mon : Monitor C R G) (ok : C → Prop) (g : G) : Prop :=
  ∀ c, ok c → mon.allowed g c ∧ ∀ r, mon.after g ⟨c, r⟩ = g

namespace Obeys

variable {mon : Monitor C R G} {g : G}

lemma weaken {Q Q' : G → α → Prop} (hQ : ∀ g a, Q g a → Q' g a) {p : Prog C R α}
    (h : Obeys mon Q p g) : Obeys mon Q' p g := by
  induction p generalizing g with
  | ret a => exact hQ _ _ h
  | call c k ih => exact ⟨h.1, fun r hr => ih r (h.2 r hr)⟩
  | halt => trivial

/-- **Sequences.** -/
theorem prog_bind {Q : G → α → Prop} {Q' : G → β → Prop} {p : Prog C R α} {f : α → Prog C R β}
    (hp : Obeys mon Q p g) (hf : ∀ g a, Q g a → Obeys mon Q' (f a) g) :
    Obeys mon Q' (p >>= f) g := by
  induction p generalizing g with
  | ret a => exact hf _ _ hp
  | call c k ih => exact ⟨hp.1, fun r hr => ih r (hp.2 r hr)⟩
  | halt => trivial

/-- A program that is only watched makes no other calls. -/
theorem calls {ok : C → Prop} {Q : Unit → α → Prop} {p q : Prog C R α} {t : List (Event C R)}
    (h : Obeys (watch ok) Q p ()) (ht : Steps p t q) : ∀ e ∈ t, ok e.1 := by
  induction ht with
  | here p => simp
  | call _ ih =>
      rintro e he
      rcases List.mem_cons.mp he with rfl | he
      · exact h.1
      · exact ih (h.2 _ trivial) e he

/-- **A run of a party that obeys its monitor**, and got what it may count on. -/
theorem steps {Q : G → α → Prop} {p q : Prog C R α} {t : List (Event C R)} (h : Obeys mon Q p g)
    (ht : Steps p t q) (hcounts : mon.CountsOn g t) :
    mon.Allows g t ∧ Obeys mon Q q (t.foldl mon.after g) := by
  induction ht generalizing g with
  | here p => exact ⟨trivial, h⟩
  | call _ ih =>
      obtain ⟨hallows, hobeys⟩ := ih (h.2 _ hcounts.1) hcounts.2
      exact ⟨⟨h.1, hallows⟩, hobeys⟩

/-- **A part that makes only calls of some kind** keeps up what each of these keeps up. -/
theorem of_watch {ok : C → Prop} {J : G → Prop} {Q : Unit → α → Prop} {p : Prog C R α}
    (hJ : ∀ g c, J g → ok c → mon.allowed g c ∧ ∀ r, J (mon.after g ⟨c, r⟩))
    (h : Obeys (watch ok) Q p ()) (hg : J g) : Obeys mon (fun g a => J g ∧ Q () a) p g := by
  induction p generalizing g with
  | ret a => exact ⟨hg, h⟩
  | call c k ih =>
      refine ⟨(hJ g c hg h.1).1, fun r _ => ?_⟩
      exact ih r (h.2 r trivial) ((hJ g c hg h.1).2 r)
  | halt => trivial

/-! ### Programs over a state -/

variable {s : σ} {a : α} {c : C} {m : StateProg C R σ α} {f : α → StateProg C R σ β}
  {Q : G → α × σ → Prop} {Q' : G → β × σ → Prop}

lemma pure (h : Q g (a, s)) : Obeys mon Q ((Pure.pure a : StateProg C R σ α).run s) g := h

lemma bind (hm : Obeys mon Q (m.run s) g)
    (hf : ∀ g a s', Q g (a, s') → Obeys mon Q' ((f a).run s') g) :
    Obeys mon Q' ((m >>= f).run s) g :=
  prog_bind hm fun g r hr => hf g r.1 r.2 hr

lemma get_bind {f : σ → StateProg C R σ β} (h : Obeys mon Q' ((f s).run s) g) :
    Obeys mon Q' ((get >>= f).run s) g := h

lemma modify_bind {u : σ → σ} {f : PUnit → StateProg C R σ β}
    (h : Obeys mon Q' ((f ⟨⟩).run (u s)) g) : Obeys mon Q' ((modify u >>= f).run s) g := h

lemma modify {u : σ → σ} {Q : G → PUnit × σ → Prop} (h : Q g (⟨⟩, u s)) :
    Obeys mon Q ((modify u : StateProg C R σ PUnit).run s) g := h

lemma perform {Q : G → R c × σ → Prop} (hallowed : mon.allowed g c)
    (h : ∀ r, mon.expected g ⟨c, r⟩ → Q (mon.after g ⟨c, r⟩) (r, s)) :
    Obeys mon Q ((perform c : StateProg C R σ (R c)).run s) g := ⟨hallowed, h⟩

lemma perform_bind {f : R c → StateProg C R σ β} (hallowed : mon.allowed g c)
    (h : ∀ r, mon.expected g ⟨c, r⟩ → Obeys mon Q' ((f r).run s) (mon.after g ⟨c, r⟩)) :
    Obeys mon Q' ((Programs.perform c >>= f).run s) g := ⟨hallowed, h⟩

lemma free_bind {ok : C → Prop} {f : R c → StateProg C R σ β} (h : Free mon ok g) (hc : ok c)
    (hf : ∀ r, Obeys mon Q' ((f r).run s) g) :
    Obeys mon Q' ((Programs.perform c >>= f).run s) g := by
  refine perform_bind (h c hc).1 fun r _ => ?_
  rw [(h c hc).2 r]
  exact hf r

lemma free {ok : C → Prop} {Q : G → R c × σ → Prop} (h : Free mon ok g) (hc : ok c)
    (hQ : ∀ r, Q g (r, s)) :
    Obeys mon Q ((Programs.perform c : StateProg C R σ (R c)).run s) g := by
  refine perform (h c hc).1 fun r _ => ?_
  rw [(h c hc).2 r]
  exact hQ r

/-- **Calls that are free everywhere**: a program that makes no others is not seen at all. -/
theorem of_calls {ok : C → Prop} {Q : α → Prop} [∀ c, Nonempty (R c)] {p : Prog C R α}
    (hfree : Free mon ok g) (hcalls : ∀ t, CanDo p t → ∀ e ∈ t, ok e.1) (hends : Ends Q p) :
    Obeys mon (fun g' a => g' = g ∧ Q a) p g := by
  induction p with
  | ret a => exact ⟨rfl, hends [] a (Steps.here _)⟩
  | call c k ih =>
      have hc : ok c := by
        obtain ⟨r⟩ := ‹∀ c, Nonempty (R c)› c
        exact hcalls [⟨c, r⟩] (canDo_call.mpr (Or.inr ⟨r, [], rfl, canDo_nil _⟩)) _
          List.mem_cons_self
      refine ⟨(hfree c hc).1, fun r _ => ?_⟩
      rw [(hfree c hc).2 r]
      refine ih r (fun t ht e he => ?_) fun t a ha => ?_
      · exact hcalls (⟨c, r⟩ :: t) (canDo_call.mpr (Or.inr ⟨r, t, rfl, ht⟩)) e
          (List.mem_cons_of_mem _ he)
      · exact hends (⟨c, r⟩ :: t) a (Steps.call ha)
  | halt => trivial

/-- The same for a program over a state, with what it leaves alone. -/
lemma of_keeps {γ : Type} {view : σ → γ} {ok : C → Prop} [∀ c, Nonempty (R c)]
    (h : Keeps view ok m) (hfree : Free mon ok g) :
    Obeys mon (fun g' r => g' = g ∧ view r.2 = view s) (m.run s) g :=
  of_calls hfree (h.calls s) fun t r hr => h.state s t r.1 r.2 hr

lemma halt : Obeys mon Q ((StateProg.halt : StateProg C R σ α).run s) g := trivial

lemma ite {b : Prop} [Decidable b] {m' : StateProg C R σ α} (h : b → Obeys mon Q (m.run s) g)
    (h' : ¬ b → Obeys mon Q (m'.run s) g) :
    Obeys mon Q ((if b then m else m' : StateProg C R σ α).run s) g := by
  split
  · exact h ‹_›
  · exact h' ‹_›

end Obeys

/-! ## Runs -/

/-- The records of the parties. -/
def record [DecidableEq P] (mon : P → Monitor C R G) (start : P → G)
    (tr : List (Label P C R D)) (p : P) : G :=
  (traceOf p tr).foldl (mon p).after (start p)

/-- A step whose call meets a condition on the medium before it. -/
def Meets (cond : M → P → Event C R → Prop) (s : State P C R α M) : Choice P C R D → Prop
  | .call p reply => ∀ c k, s.procs p = .call c k → cond s.shared p ⟨c, reply c⟩
  | .device _ => True

instance {cond : M → P → Event C R → Prop} [∀ m p e, Decidable (cond m p e)]
    (s : State P C R α M) : (choice : Choice P C R D) → Decidable (Meets cond s choice)
  | .call p reply =>
      match hp : s.procs p with
      | .call c _ => decidable_of_iff (cond s.shared p ⟨c, reply c⟩)
          ⟨fun h c' _ hp' => by obtain ⟨rfl, -⟩ := Prog.call.inj (hp.symm.trans hp'); exact h,
            fun h => h c _ hp⟩
      | .ret _ => isTrue fun _ _ hp' => absurd (hp.symm.trans hp') (by simp)
      | .halt => isTrue fun _ _ hp' => absurd (hp.symm.trans hp') (by simp)
  | .device _ => isTrue trivial

section

variable [DecidableEq P] {medium : Medium P C R D M} {mon : P → Monitor C R G}
  {Q : P → G → α → Prop} {start : P → G} {procs : P → Prog C R α} {m₀ : M}
  {s : State P C R α M} {tr : List (Label P C R D)} {cond : M → P → Event C R → Prop}

@[simp] lemma record_nil : record mon start ([] : List (Label P C R D)) = start := rfl

omit [DecidableEq P] in
lemma meets_true {s : State P C R α M} (choice : Choice P C R D) :
    Meets (fun _ _ _ => True) s choice := by
  cases choice with
  | call p reply => exact fun _ _ _ => trivial
  | device d => trivial

lemma record_call (p : P) (e : Event C R) :
    record mon start (tr ++ [.call p e] : List (Label P C R D)) =
      Function.update (record mon start tr) p ((mon p).after (record mon start tr p) e) := by
  funext q
  by_cases hq : p = q
  · subst hq
    rw [record, traceOf_append, traceOf_self, List.foldl_append, Function.update_self]
    rfl
  · rw [record, traceOf_append, traceOf_ne hq, List.append_nil,
      Function.update_of_ne (Ne.symm hq)]
    rfl

lemma record_device (d : D) :
    record mon start (tr ++ [.device d] : List (Label P C R D)) = record mon start tr := by
  funext q
  rw [record, traceOf_append, traceOf_device, List.append_nil]
  rfl

/-- **The rule for monitored parties.**  `A` is assumed of the medium at the end of the run, and
handed back to every state before.  The monitors say which call a party may make, and the step
lemma that it gets what it may count on; so the two are shown together, by induction on the run. -/
theorem Run.monitored (mon : P → Monitor C R G) (start : P → G) (cond : M → P → Event C R → Prop)
    {I : List (Label P C R D) → (P → G) → M → Prop} {A : M → Prop}
    (hcallBack : ∀ m p e m', medium.answer m p e = some m' → A m' → A m)
    (hdeviceBack : ∀ m d m', medium.device m d = some m' → A m' → A m)
    (hstart : I [] start m₀) (hprocs : ∀ p, Obeys (mon p) (Q p) (procs p) (start p))
    (hcall : ∀ tr g m p e m', I tr g m → (mon p).allowed (g p) e.1 → cond m p e →
      medium.answer m p e = some m' → A m' → (mon p).expected (g p) e ∧
        I (tr ++ [.call p e]) (Function.update g p ((mon p).after (g p) e)) m')
    (hdevice : ∀ tr g m d m', I tr g m → medium.device m d = some m' → A m' →
      I (tr ++ [.device d]) g m')
    (h : Runs.Run (next medium) (Meets cond) ⟨procs, m₀⟩ tr s) (hA : A s.shared) :
    I tr (record mon start tr) s.shared ∧
      ∀ p, Obeys (mon p) (Q p) (s.procs p) (record mon start tr p) := by
  revert hA
  refine h.invariant (I := fun tr s => A s.shared → I tr (record mon start tr) s.shared ∧
    ∀ p, Obeys (mon p) (Q p) (s.procs p) (record mon start tr p)) ?_ ?_
  · intro _
    rw [record_nil]
    exact ⟨hstart, hprocs⟩
  · intro tr s choice s' es ih hmeets hs hA
    cases choice with
    | call p reply =>
        obtain ⟨c, k, m, hp, hm, rfl, rfl⟩ := next_call hs
        obtain ⟨hI, hall⟩ := ih (hcallBack _ _ _ _ hm hA)
        have hobeys := hall p
        rw [hp] at hobeys
        obtain ⟨hexpected, hI'⟩ := hcall _ _ _ _ _ _ hI hobeys.1 (hmeets c k hp) hm hA
        rw [record_call]
        refine ⟨hI', fun q => ?_⟩
        by_cases hq : q = p
        · subst hq
          simp only [Function.update_self]
          exact hobeys.2 _ hexpected
        · simp only [Function.update_of_ne hq]
          exact hall q
    | device d =>
        obtain ⟨m, hm, rfl, rfl⟩ := next_device hs
        obtain ⟨hI, hall⟩ := ih (hdeviceBack _ _ _ hm hA)
        rw [record_device]
        exact ⟨hdevice _ _ _ _ _ hI hm hA, hall⟩

end

end Monitors
