import Mathlib

/-!
# Programs that call an outside world

`Prog C R α` is a sequential program whose only contact with the world is a call `c : C`, answered
by some reply in `R c`.  The program is a tree: what it does next depends on the reply.  What the
world would answer is not part of it, so one program stands for all its runs.

* `Steps p t q` — `p` makes the calls of `t`, gets the replies recorded there, and is then at `q`.
* `Returns p t a` — the run `t` ends with the value `a`.
* `CanDo p t` — `t` is the beginning of a run.
* `Ends Q p` — what `p` returns satisfies `Q`.

`returns_bind` and `canDo_bind` take the runs of a sequence apart; every fact about a program's runs
is read off with them.  `Keeps` packages the most common one, for programs over a state: what a
program leaves of the state, and which calls it makes, is settled part by part.  `Recorded` has the
rules of pre- and postconditions.  `play` finds a concrete run by evaluation.

`halt` is where a program is followed no further.  A loop that may go round for ever is given fuel,
and comes to `halt` where the fuel ends; its runs are those of all fuels together.
-/

namespace Programs

/-- A sequential program over the calls `C`. -/
inductive Prog (C : Type) (R : C → Type) (α : Type) : Type
  | ret (a : α)
  | call (c : C) (k : R c → Prog C R α)
  | halt

variable {C : Type} {R : C → Type} {α β σ : Type}

/-- A call with its reply. -/
abbrev Event (C : Type) (R : C → Type) := Σ c : C, R c

namespace Prog

/-- Run `p`, then go on with what it returned. -/
def bind : Prog C R α → (α → Prog C R β) → Prog C R β
  | ret a, f => f a
  | call c k, f => call c fun r => (k r).bind f
  | halt, _ => halt

instance : Monad (Prog C R) where
  pure := ret
  bind := bind

@[simp] lemma pure_eq_ret (a : α) : (pure a : Prog C R α) = ret a := rfl
@[simp] lemma ret_bind (a : α) (f : α → Prog C R β) : (ret a >>= f) = f a := rfl
@[simp] lemma call_bind (c : C) (k : R c → Prog C R α) (f : α → Prog C R β) :
    (call c k >>= f) = call c fun r => k r >>= f := rfl
@[simp] lemma halt_bind (f : α → Prog C R β) : ((halt : Prog C R α) >>= f) = halt := rfl

instance : LawfulMonad (Prog C R) := by
  refine LawfulMonad.mk' (Prog C R) ?_ (fun _ _ => rfl) ?_
  · intro α p
    show p.bind (fun a => ret a) = p
    induction p with
    | ret a => rfl
    | call c k ih => exact congrArg (call c) (funext ih)
    | halt => rfl
  · intro α β γ p f g
    show (p.bind f).bind g = p.bind fun a => (f a).bind g
    induction p with
    | ret a => rfl
    | call c k ih => exact congrArg (call c) (funext ih)
    | halt => rfl

/-- One call, and its reply. -/
def request (c : C) : Prog C R (R c) := call c ret

end Prog

open Prog

/-! ## Runs -/

/-- `p` makes the calls of a trace and is then at `q`. -/
inductive Steps : Prog C R α → List (Event C R) → Prog C R α → Prop
  | here (p : Prog C R α) : Steps p [] p
  | call {c : C} {k : R c → Prog C R α} {r : R c} {t : List (Event C R)} {q : Prog C R α} :
      Steps (k r) t q → Steps (Prog.call c k) (⟨c, r⟩ :: t) q

/-- The run `t` of `p` ends with the value `a`. -/
abbrev Returns (p : Prog C R α) (t : List (Event C R)) (a : α) : Prop := Steps p t (ret a)

/-- `t` is the beginning of a run of `p`. -/
def CanDo (p : Prog C R α) (t : List (Event C R)) : Prop := ∃ q, Steps p t q

@[simp] lemma steps_nil {p q : Prog C R α} : Steps p [] q ↔ p = q :=
  ⟨fun h => by cases h; rfl, fun h => h ▸ Steps.here p⟩

@[simp] lemma returns_ret {a b : α} {t : List (Event C R)} :
    Returns (ret a) t b ↔ t = [] ∧ a = b := by
  constructor
  · intro h
    cases h
    exact ⟨rfl, rfl⟩
  · rintro ⟨rfl, rfl⟩
    exact Steps.here _

@[simp] lemma returns_halt {a : α} {t : List (Event C R)} :
    ¬ Returns (halt : Prog C R α) t a := by
  intro h
  cases h

lemma returns_call {c : C} {k : R c → Prog C R α} {t : List (Event C R)} {a : α} :
    Returns (Prog.call c k) t a ↔ ∃ r t', t = ⟨c, r⟩ :: t' ∧ Returns (k r) t' a := by
  constructor
  · intro h
    cases h with
    | call h => exact ⟨_, _, rfl, h⟩
  · rintro ⟨r, t', rfl, h⟩
    exact Steps.call h

@[simp] lemma returns_request {c : C} {t : List (Event C R)} {r : R c} :
    Returns (request c) t r ↔ t = [⟨c, r⟩] := by
  rw [request, returns_call]
  constructor
  · rintro ⟨r', t', rfl, h⟩
    rw [returns_ret] at h
    rw [h.1, h.2]
  · rintro rfl
    exact ⟨r, [], rfl, by simp⟩

lemma Returns.canDo {p : Prog C R α} {t : List (Event C R)} {a : α} (h : Returns p t a) :
    CanDo p t := ⟨_, h⟩

lemma canDo_nil (p : Prog C R α) : CanDo p [] := ⟨p, Steps.here p⟩

@[simp] lemma canDo_ret {a : α} {t : List (Event C R)} :
    CanDo (ret a : Prog C R α) t ↔ t = [] := by
  constructor
  · rintro ⟨q, h⟩
    cases h
    rfl
  · rintro rfl
    exact canDo_nil _

@[simp] lemma canDo_halt {t : List (Event C R)} :
    CanDo (halt : Prog C R α) t ↔ t = [] := by
  constructor
  · rintro ⟨q, h⟩
    cases h
    rfl
  · rintro rfl
    exact canDo_nil _

lemma canDo_call {c : C} {k : R c → Prog C R α} {t : List (Event C R)} :
    CanDo (Prog.call c k) t ↔ t = [] ∨ ∃ r t', t = ⟨c, r⟩ :: t' ∧ CanDo (k r) t' := by
  constructor
  · rintro ⟨q, h⟩
    cases h with
    | here => exact Or.inl rfl
    | call h => exact Or.inr ⟨_, _, rfl, _, h⟩
  · rintro (rfl | ⟨r, t', rfl, q, h⟩)
    · exact canDo_nil _
    · exact ⟨q, Steps.call h⟩

/-- **The complete runs of a sequence.** -/
theorem returns_bind {p : Prog C R α} {f : α → Prog C R β} {t : List (Event C R)} {b : β} :
    Returns (p >>= f) t b ↔
      ∃ t₁ t₂ a, t = t₁ ++ t₂ ∧ Returns p t₁ a ∧ Returns (f a) t₂ b := by
  constructor
  · intro h
    induction p generalizing t with
    | ret a => exact ⟨[], t, a, rfl, by simp, h⟩
    | call c k ih =>
        rw [call_bind, returns_call] at h
        obtain ⟨r, t', rfl, h⟩ := h
        obtain ⟨t₁, t₂, a, rfl, h₁, h₂⟩ := ih r h
        exact ⟨⟨c, r⟩ :: t₁, t₂, a, rfl, Steps.call h₁, h₂⟩
    | halt => exact absurd h returns_halt
  · rintro ⟨t₁, t₂, a, rfl, h₁, h₂⟩
    induction p generalizing t₁ with
    | ret a' =>
        rw [returns_ret] at h₁
        obtain ⟨rfl, rfl⟩ := h₁
        exact h₂
    | call c k ih =>
        rw [returns_call] at h₁
        obtain ⟨r, t', rfl, h₁⟩ := h₁
        exact Steps.call (ih r t' h₁)
    | halt => exact absurd h₁ returns_halt

/-- **A program follows its replies**: of two complete runs in one trace, none goes on behind the
other. -/
theorem Returns.unique {p : Prog C R α} {t t' u u' : List (Event C R)} {a a' : α}
    (h : Returns p t a) (h' : Returns p t' a') (heq : t ++ u = t' ++ u') :
    t = t' ∧ u = u' ∧ a = a' := by
  induction p generalizing t t' with
  | ret b =>
      obtain ⟨rfl, rfl⟩ := returns_ret.mp h
      obtain ⟨rfl, rfl⟩ := returns_ret.mp h'
      exact ⟨rfl, heq, rfl⟩
  | call c k ih =>
      obtain ⟨r, t₁, rfl, h₁⟩ := returns_call.mp h
      obtain ⟨r', t₁', rfl, h₁'⟩ := returns_call.mp h'
      simp only [List.cons_append, List.cons.injEq, Sigma.mk.injEq, heq_eq_eq, true_and] at heq
      obtain ⟨rfl, heq⟩ := heq
      obtain ⟨rfl, hu, ha⟩ := ih r h₁ h₁' heq
      exact ⟨rfl, hu, ha⟩
  | halt => exact absurd h returns_halt

/-- **The beginnings of a sequence's runs**: still in the first part, or past it. -/
theorem canDo_bind {p : Prog C R α} {f : α → Prog C R β} {t : List (Event C R)} :
    CanDo (p >>= f) t ↔
      CanDo p t ∨ ∃ t₁ t₂ a, t = t₁ ++ t₂ ∧ Returns p t₁ a ∧ CanDo (f a) t₂ := by
  constructor
  · intro h
    induction p generalizing t with
    | ret a => exact Or.inr ⟨[], t, a, rfl, by simp, h⟩
    | call c k ih =>
        rw [call_bind, canDo_call] at h
        rcases h with rfl | ⟨r, t', rfl, h⟩
        · exact Or.inl (canDo_nil _)
        · rcases ih r h with h | ⟨t₁, t₂, a, rfl, h₁, h₂⟩
          · exact Or.inl (canDo_call.mpr (Or.inr ⟨r, t', rfl, h⟩))
          · exact Or.inr ⟨⟨c, r⟩ :: t₁, t₂, a, rfl, Steps.call h₁, h₂⟩
    | halt => exact Or.inl (canDo_halt.mpr (canDo_halt.mp h))
  · rintro (h | ⟨t₁, t₂, a, rfl, h₁, h₂⟩)
    · induction p generalizing t with
      | ret a =>
          rw [canDo_ret] at h
          subst h
          exact canDo_nil _
      | call c k ih =>
          rcases canDo_call.mp h with rfl | ⟨r, t', rfl, h'⟩
          · exact canDo_nil _
          · exact canDo_call.mpr (Or.inr ⟨r, t', rfl, ih r h'⟩)
      | halt => exact canDo_halt.mpr (canDo_halt.mp h)
    · induction p generalizing t₁ with
      | ret a' =>
          rw [returns_ret] at h₁
          obtain ⟨rfl, rfl⟩ := h₁
          exact h₂
      | call c k ih =>
          rw [returns_call] at h₁
          obtain ⟨r, t', rfl, h₁⟩ := h₁
          exact canDo_call.mpr (Or.inr ⟨r, _, rfl, ih r t' h₁⟩)
      | halt => exact absurd h₁ returns_halt

/-- What comes after a part of a run is decided by where the part leads. -/
theorem Steps.canDo_append {p q : Prog C R α} {t t' : List (Event C R)} (h : Steps p t q) :
    CanDo p (t ++ t') ↔ CanDo q t' := by
  induction h with
  | here p => rfl
  | call h ih =>
      rw [List.cons_append, canDo_call]
      constructor
      · rintro (h' | ⟨r', t'', heq, h'⟩)
        · exact absurd h' (by simp)
        · simp only [List.cons.injEq, Sigma.mk.injEq, heq_eq_eq, true_and] at heq
          obtain ⟨rfl, rfl⟩ := heq
          exact ih.mp h'
      · exact fun h' => Or.inr ⟨_, _, rfl, ih.mpr h'⟩

/-- One more call. -/
lemma Steps.snoc {p : Prog C R α} {t : List (Event C R)} {c : C} {k : R c → Prog C R α}
    (h : Steps p t (Prog.call c k)) (r : R c) : Steps p (t ++ [⟨c, r⟩]) (k r) := by
  generalize hq : Prog.call c k = q at h
  induction h with
  | here p =>
      subst hq
      exact Steps.call (Steps.here _)
  | call _ ih => exact Steps.call (ih hq)

lemma Steps.bind {p q : Prog C R α} {t : List (Event C R)} (h : Steps p t q)
    (f : α → Prog C R β) : Steps (p >>= f) t (q >>= f) := by
  induction h with
  | here p => exact Steps.here _
  | call h ih => exact Steps.call ih

/-- The first call of a program is the only one its runs can begin with. -/
lemma canDo_call_cons {c : C} {k : R c → Prog C R α} {e : Event C R} {t : List (Event C R)}
    (h : CanDo (Prog.call c k) (e :: t)) : e.1 = c := by
  rcases canDo_call.mp h with h | ⟨r, t', heq, -⟩
  · exact absurd h (by simp)
  · rw [(List.cons.inj heq).1]

/-! ## What a program ends with -/

/-- Every complete run of `p` ends with a value that satisfies `Q`. -/
def Ends (Q : α → Prop) (p : Prog C R α) : Prop := ∀ t a, Returns p t a → Q a

lemma Ends.ret {Q : α → Prop} {a : α} (h : Q a) : Ends Q (Prog.ret a : Prog C R α) := by
  intro t b hb
  obtain ⟨-, rfl⟩ := returns_ret.mp hb
  exact h

lemma Ends.halt {Q : α → Prop} : Ends Q (Prog.halt : Prog C R α) :=
  fun _ _ h => absurd h returns_halt

lemma Ends.call {Q : α → Prop} {c : C} {k : R c → Prog C R α} (h : ∀ r, Ends Q (k r)) :
    Ends Q (Prog.call c k) := by
  intro t a ha
  obtain ⟨r, t', rfl, hk⟩ := returns_call.mp ha
  exact h r t' a hk

theorem Ends.bind {Q : α → Prop} {Q' : β → Prop} {p : Prog C R α} {f : α → Prog C R β}
    (h : Ends Q p) (hf : ∀ a, Q a → Ends Q' (f a)) : Ends Q' (p >>= f) := by
  intro t b hb
  obtain ⟨t₁, t₂, a, rfl, h₁, h₂⟩ := returns_bind.mp hb
  exact hf a (h t₁ a h₁) t₂ b h₂

section Play

variable {S : Type}

/-- The run of `p` against a world that is a function: in its state `w` it answers a call and moves
on. -/
def play (answer : S → (c : C) → R c × S) : S → Prog C R α → List (Event C R) × Option α
  | _, ret a => ([], some a)
  | w, call c k =>
      let rest := play answer (answer w c).2 (k (answer w c).1)
      (⟨c, (answer w c).1⟩ :: rest.1, rest.2)
  | _, halt => ([], none)

variable (answer : S → (c : C) → R c × S)

/-- What `play` computes is a run. -/
theorem returns_play {p : Prog C R α} {w : S} {a : α} (h : (play answer w p).2 = some a) :
    Returns p (play answer w p).1 a := by
  induction p generalizing w with
  | ret a' =>
      simp only [play, Option.some.injEq] at h
      exact h ▸ Steps.here _
  | call c k ih => exact Steps.call (ih _ h)
  | halt => exact absurd h (by simp [play])

/-- So is what it computes of a program that does not end. -/
lemma canDo_play (w : S) (p : Prog C R α) : CanDo p (play answer w p).1 := by
  induction p generalizing w with
  | ret a => exact canDo_nil _
  | call c k ih => exact canDo_call.mpr (Or.inr ⟨_, _, rfl, ih _ _⟩)
  | halt => exact canDo_nil _

/-- **A concrete run is found by evaluation**, with a test of its calls and of its result. -/
theorem exists_of_play (w : S) (p : Prog C R α) (test : List (Event C R) → α → Bool)
    (h : (play answer w p).2.any (test (play answer w p).1) = true) :
    ∃ t a, Returns p t a ∧ test t a = true := by
  cases hp : (play answer w p).2 with
  | none => simp [hp] at h
  | some a => exact ⟨_, a, returns_play answer hp, by simpa [hp] using h⟩

end Play

/-! ## Programs over a state -/

/-- A program over a state `σ`. -/
abbrev StateProg (C : Type) (R : C → Type) (σ α : Type) := StateT σ (Prog C R) α

/-- One call of a program over a state. -/
def perform (c : C) : StateProg C R σ (R c) := StateT.lift (request c)

/-- Where a program over a state is followed no further. -/
def StateProg.halt : StateProg C R σ α := StateT.lift Prog.halt

section Run

variable {f : α → StateProg C R σ β} {s : σ}

lemma run_get_bind {f : σ → StateProg C R σ β} :
    ((get : StateProg C R σ σ) >>= f).run s = (f s).run s := rfl

lemma run_modify_bind {g : σ → σ} {f : PUnit → StateProg C R σ β} :
    ((modify g : StateProg C R σ PUnit) >>= f).run s = (f ⟨⟩).run (g s) := rfl

lemma run_perform_bind {c : C} {f : R c → StateProg C R σ β} :
    ((perform c : StateProg C R σ (R c)) >>= f).run s = call c fun r => (f r).run s := rfl

lemma run_perform {c : C} :
    (perform c : StateProg C R σ (R c)).run s = call c fun r => ret (r, s) := rfl

end Run

section Runs

variable {m : StateProg C R σ α} {f : α → StateProg C R σ β} {s s' : σ} {t : List (Event C R)}
  {a : α} {b : β}

/-- The complete runs of a sequence over a state. -/
theorem returns_run_bind : Returns ((m >>= f).run s) t (b, s') ↔
    ∃ t₁ t₂ a s₁, t = t₁ ++ t₂ ∧ Returns (m.run s) t₁ (a, s₁) ∧
      Returns ((f a).run s₁) t₂ (b, s') := by
  rw [StateT.run_bind, returns_bind]
  constructor
  · rintro ⟨t₁, t₂, ⟨a, s₁⟩, rfl, h₁, h₂⟩
    exact ⟨t₁, t₂, a, s₁, rfl, h₁, h₂⟩
  · rintro ⟨t₁, t₂, a, s₁, rfl, h₁, h₂⟩
    exact ⟨t₁, t₂, (a, s₁), rfl, h₁, h₂⟩

/-- The beginnings of a sequence's runs over a state. -/
theorem canDo_run_bind : CanDo ((m >>= f).run s) t ↔
    CanDo (m.run s) t ∨ ∃ t₁ t₂ a s₁, t = t₁ ++ t₂ ∧ Returns (m.run s) t₁ (a, s₁) ∧
      CanDo ((f a).run s₁) t₂ := by
  rw [StateT.run_bind, canDo_bind]
  constructor
  · rintro (h | ⟨t₁, t₂, ⟨a, s₁⟩, rfl, h₁, h₂⟩)
    · exact Or.inl h
    · exact Or.inr ⟨t₁, t₂, a, s₁, rfl, h₁, h₂⟩
  · rintro (h | ⟨t₁, t₂, a, s₁, rfl, h₁, h₂⟩)
    · exact Or.inl h
    · exact Or.inr ⟨t₁, t₂, (a, s₁), rfl, h₁, h₂⟩

@[simp] theorem returns_run_pure {a' : α} :
    Returns ((pure a : StateProg C R σ α).run s) t (a', s') ↔ t = [] ∧ a = a' ∧ s = s' := by
  rw [StateT.run_pure, pure_eq_ret, returns_ret, Prod.mk.injEq]

@[simp] theorem canDo_run_pure : CanDo ((pure a : StateProg C R σ α).run s) t ↔ t = [] := by
  rw [StateT.run_pure, pure_eq_ret, canDo_ret]

@[simp] theorem returns_run_perform {c : C} {r : R c} :
    Returns ((perform c : StateProg C R σ (R c)).run s) t (r, s') ↔ t = [⟨c, r⟩] ∧ s = s' := by
  rw [perform, StateT.run_lift, returns_bind]
  constructor
  · rintro ⟨t₁, t₂, a, rfl, h₁, h₂⟩
    simp only [returns_request, pure_eq_ret, returns_ret, Prod.mk.injEq] at h₁ h₂
    obtain ⟨rfl, rfl, rfl⟩ := h₂
    simp [h₁]
  · rintro ⟨rfl, rfl⟩
    exact ⟨[⟨c, r⟩], [], r, by simp, by simp, by simp⟩

@[simp] theorem returns_run_get {s₁ : σ} :
    Returns ((get : StateProg C R σ σ).run s) t (s₁, s') ↔ t = [] ∧ s = s₁ ∧ s = s' := by
  rw [StateT.run_get, pure_eq_ret, returns_ret, Prod.mk.injEq]

@[simp] theorem returns_run_modify {g : σ → σ} {u : PUnit} :
    Returns ((modify g : StateProg C R σ PUnit).run s) t (u, s') ↔ t = [] ∧ g s = s' := by
  rw [StateT.run_modify, pure_eq_ret, returns_ret, Prod.mk.injEq]
  simp

theorem canDo_run_perform {c : C} :
    CanDo ((perform c : StateProg C R σ (R c)).run s) t ↔ t = [] ∨ ∃ r, t = [⟨c, r⟩] := by
  rw [perform, StateT.run_lift, canDo_bind]
  constructor
  · rintro (h | ⟨t₁, t₂, r, rfl, h₁, h₂⟩)
    · rw [request, canDo_call] at h
      rcases h with rfl | ⟨r, t', rfl, h⟩
      · exact Or.inl rfl
      · rw [canDo_ret] at h
        exact Or.inr ⟨r, by rw [h]⟩
    · rw [pure_eq_ret, canDo_ret] at h₂
      exact Or.inr ⟨r, by rw [h₂, List.append_nil]; exact returns_request.mp h₁⟩
  · rintro (rfl | ⟨r, rfl⟩)
    · exact Or.inl (canDo_nil _)
    · exact Or.inl (returns_request.mpr rfl).canDo

/-- Past a complete run of its first part, a sequence goes on with the second. -/
theorem canDo_run_bind_append {t' : List (Event C R)} (h : Returns (m.run s) t (a, s')) :
    CanDo ((m >>= f).run s) (t ++ t') ↔ CanDo ((f a).run s') t' := by
  rw [StateT.run_bind]
  exact (Steps.bind h _).canDo_append

/-- A call at the head of a sequence. -/
theorem returns_run_perform_bind {c : C} {f : R c → StateProg C R σ β} :
    Returns ((perform c >>= f).run s) t (b, s') ↔
      ∃ r t', t = ⟨c, r⟩ :: t' ∧ Returns ((f r).run s) t' (b, s') := by
  rw [run_perform_bind, returns_call]

theorem canDo_run_perform_bind {c : C} {f : R c → StateProg C R σ β} :
    CanDo ((perform c >>= f).run s) t ↔
      t = [] ∨ ∃ r t', t = ⟨c, r⟩ :: t' ∧ CanDo ((f r).run s) t' := by
  rw [run_perform_bind, canDo_call]

/-- A result other than the early one: the sequence went on. -/
theorem returns_run_guard {c : Prop} [Decidable c] {a a' : α} (hne : a ≠ a') :
    Returns ((if c then pure a else m).run s) t (a', s') ↔
      ¬ c ∧ Returns (m.run s) t (a', s') := by
  by_cases hc : c
  · simp [hc, hne]
  · simp [hc]

/-- The same where the early result is the value that was tested. -/
theorem returns_run_check [DecidableEq α] {a z : α} :
    Returns ((if a ≠ z then pure a else m).run s) t (z, s') ↔
      a = z ∧ Returns (m.run s) t (z, s') := by
  by_cases hc : a = z
  · simp [hc]
  · simp [hc]

@[simp] theorem returns_run_halt :
    ¬ Returns ((StateProg.halt : StateProg C R σ α).run s) t (a, s') := by
  rw [StateProg.halt, StateT.run_lift, halt_bind]
  exact returns_halt

@[simp] theorem canDo_run_halt :
    CanDo ((StateProg.halt : StateProg C R σ α).run s) t ↔ t = [] := by
  rw [StateProg.halt, StateT.run_lift, halt_bind, canDo_halt]

end Runs

/-! ## What a program leaves alone -/

/-- Every complete run of `m` leaves `view` of the state as it was, and every call `m` makes
satisfies `Q`. -/
structure Keeps {γ : Type} (view : σ → γ) (Q : C → Prop) (m : StateProg C R σ α) : Prop where
  state : ∀ s t a s', Returns (m.run s) t (a, s') → view s' = view s
  calls : ∀ s t, CanDo (m.run s) t → ∀ e ∈ t, Q e.1

namespace Keeps

variable {γ : Type} {view : σ → γ} {Q : C → Prop}

lemma pure (a : α) : Keeps view Q (pure a : StateProg C R σ α) where
  state s t b s' h := by
    rw [returns_run_pure] at h
    rw [h.2.2]
  calls s t h := by
    rw [canDo_run_pure] at h
    simp [h]

lemma get : Keeps view Q (get : StateProg C R σ σ) where
  state s t b s' h := by
    rw [returns_run_get] at h
    rw [h.2.2]
  calls s t h := by
    rw [StateT.run_get, pure_eq_ret, canDo_ret] at h
    simp [h]

lemma modify {g : σ → σ} (hg : ∀ s, view (g s) = view s) :
    Keeps view Q (modify g : StateProg C R σ PUnit) where
  state s t b s' h := by
    rw [returns_run_modify] at h
    rw [← h.2, hg]
  calls s t h := by
    rw [StateT.run_modify, pure_eq_ret, canDo_ret] at h
    simp [h]

lemma perform {c : C} (hQ : Q c) : Keeps view Q (perform c : StateProg C R σ (R c)) where
  state s t b s' h := by
    rw [returns_run_perform] at h
    rw [h.2]
  calls s t h e he := by
    rcases canDo_run_perform.mp h with rfl | ⟨r, rfl⟩
    · exact absurd he (by simp)
    · rw [List.mem_singleton.mp he]
      exact hQ

lemma halt : Keeps view Q (StateProg.halt : StateProg C R σ α) where
  state _ _ _ _ h := absurd h returns_run_halt
  calls s t h := by
    rw [canDo_run_halt] at h
    simp [h]

lemma bind {m : StateProg C R σ α} {f : α → StateProg C R σ β} (hm : Keeps view Q m)
    (hf : ∀ a, Keeps view Q (f a)) : Keeps view Q (m >>= f) where
  state s t b s' h := by
    obtain ⟨t₁, t₂, a, s₁, rfl, h₁, h₂⟩ := returns_run_bind.mp h
    rw [(hf a).state _ _ _ _ h₂, hm.state _ _ _ _ h₁]
  calls s t h e he := by
    rcases canDo_run_bind.mp h with h | ⟨t₁, t₂, a, s₁, rfl, h₁, h₂⟩
    · exact hm.calls _ _ h e he
    · rcases List.mem_append.mp he with he | he
      · exact hm.calls _ _ h₁.canDo e he
      · exact (hf a).calls _ _ h₂ e he

lemma ite {c : Prop} [Decidable c] {m m' : StateProg C R σ α} (h : Keeps view Q m)
    (h' : Keeps view Q m') : Keeps view Q (if c then m else m') := by
  split
  · exact h
  · exact h'

/-- A part that is left out at times. -/
lemma when {c : Prop} [Decidable c] {m : StateProg C R σ PUnit} {f : PUnit → StateProg C R σ β}
    (hm : Keeps view Q m) (hf : ∀ u, Keeps view Q (f u)) :
    Keeps view Q (if c then m >>= f else f ⟨⟩) :=
  ite (bind hm hf) (hf ⟨⟩)

/-- Less is said of the calls. -/
lemma calls_mono {Q' : C → Prop} {m : StateProg C R σ α} (h : Keeps view Q m)
    (hQ : ∀ c, Q c → Q' c) : Keeps view Q' m where
  state := h.state
  calls s t hr e he := hQ _ (h.calls s t hr e he)

/-- Less is left alone, and less is said of the calls. -/
lemma weaken {δ : Type} {f : γ → δ} {Q' : C → Prop} (hQ : ∀ c, Q c → Q' c)
    {m : StateProg C R σ α} (h : Keeps view Q m) : Keeps (f ∘ view) Q' m where
  state s t a s' hr := congrArg f (h.state s t a s' hr)
  calls s t hr e he := hQ _ (h.calls s t hr e he)

end Keeps

/-! ## Pre- and postconditions -/

/-- Conditions on the state and on the run up to here: every complete run of `m` that starts with
`P` ends in a result with `Q`. -/
def Recorded (P : List (Event C R) → σ → Prop) (m : StateProg C R σ α)
    (Q : α → List (Event C R) → σ → Prop) : Prop :=
  ∀ past s t a s', P past s → Returns (m.run s) t (a, s') → Q a (past ++ t) s'

namespace Recorded

variable {P P' : List (Event C R) → σ → Prop} {Q Q' : α → List (Event C R) → σ → Prop}
  {S : β → List (Event C R) → σ → Prop} {m m' : StateProg C R σ α}

lemma pure {a : α} (h : ∀ past s, P past s → Q a past s) :
    Recorded P (pure a : StateProg C R σ α) Q := by
  intro past s t b s' hs hr
  obtain ⟨rfl, rfl, rfl⟩ := returns_run_pure.mp hr
  rw [List.append_nil]
  exact h past s hs

lemma halt : Recorded P (StateProg.halt : StateProg C R σ α) Q :=
  fun _ _ _ _ _ _ hr => absurd hr returns_run_halt

/-- The rule of sequences. -/
lemma bind {f : α → StateProg C R σ β} (hm : Recorded P m Q)
    (hf : ∀ a, Recorded (Q a) (f a) S) : Recorded P (m >>= f) S := by
  intro past s t b s' hs hr
  obtain ⟨t₁, t₂, a, s₁, rfl, h₁, h₂⟩ := returns_run_bind.mp hr
  rw [← List.append_assoc]
  exact hf a _ _ _ _ _ (hm _ _ _ _ _ hs h₁) h₂

/-- A program that looks at the state goes on with the state it saw. -/
lemma get_bind {f : σ → StateProg C R σ β}
    (hf : ∀ s₀, Recorded (fun past s => s = s₀ ∧ P past s₀) (f s₀) S) :
    Recorded P (get >>= f) S := by
  intro past s t b s' hs hr
  rw [run_get_bind] at hr
  exact hf s past s t b s' ⟨rfl, hs⟩ hr

lemma modify_bind {K : List (Event C R) → σ → Prop} {g : σ → σ}
    {f : PUnit → StateProg C R σ β} (hf : Recorded K (f ⟨⟩) S)
    (hg : ∀ past s, P past s → K past (g s)) : Recorded P (modify g >>= f) S := by
  intro past s t b s' hs hr
  rw [run_modify_bind] at hr
  exact hf past _ t b s' (hg past s hs) hr

/-- A call is put down with its reply. -/
lemma perform_bind {c : C} {K : R c → List (Event C R) → σ → Prop} {f : R c → StateProg C R σ β}
    (hf : ∀ r, Recorded (K r) (f r) S) (hc : ∀ r past s, P past s → K r (past ++ [⟨c, r⟩]) s) :
    Recorded P (Programs.perform c >>= f) S := by
  intro past s t b s' hs hr
  obtain ⟨r, t', rfl, h⟩ := returns_run_perform_bind.mp hr
  rw [List.append_cons]
  exact hf r _ _ _ _ _ (hc r past s hs) h

lemma ite {c : Prop} [Decidable c] (h : c → Recorded P m Q) (h' : ¬ c → Recorded P m' Q) :
    Recorded P (if c then m else m') Q := by
  split
  · rename_i hc
    exact h hc
  · rename_i hc
    exact h' hc

/-- The rule of consequence. -/
lemma weaken (h : Recorded P m Q) (hpre : ∀ past s, P' past s → P past s)
    (hpost : ∀ a past s, Q a past s → Q' a past s) : Recorded P' m Q' :=
  fun past s t a s' hs hr => hpost a _ s' (h past s t a s' (hpre past s hs) hr)

/-- What a program leaves alone stays true, if a longer run does not change it either. -/
lemma of_keeps {γ : Type} {view : σ → γ} {K : C → Prop} (h : Keeps view K m)
    (hview : ∀ past t s s', view s' = view s → (∀ e ∈ t, K e.1) → P past s → P (past ++ t) s') :
    Recorded P m fun _ => P :=
  fun past s t a s' hs hr =>
    hview past t s s' (h.state s t a s' hr) (h.calls s t hr.canDo) hs

end Recorded

/-! ## Programs that do not run out of fuel -/

/-- A run of `m` whose events satisfy `Q` does not halt. -/
def NeverHalts (Q : Event C R → Prop) (m : StateProg C R σ α) : Prop :=
  ∀ s t q, Steps (m.run s) t q → (∀ e ∈ t, Q e) → q ≠ .halt

/-- A program does not halt if its parts do not. -/
lemma Steps.ne_halt_bind {Q : Event C R → Prop} {p : Prog C R α} {f : α → Prog C R β}
    (hp : ∀ t q, Steps p t q → (∀ e ∈ t, Q e) → q ≠ .halt)
    (hf : ∀ a t q, Steps (f a) t q → (∀ e ∈ t, Q e) → q ≠ .halt) {t : List (Event C R)}
    {q : Prog C R β} (h : Steps (p >>= f) t q) (hQ : ∀ e ∈ t, Q e) : q ≠ .halt := by
  induction p generalizing t with
  | ret a => exact hf a t q h hQ
  | call c k ih =>
      rw [Prog.call_bind] at h
      cases h with
      | here => simp
      | @call _ _ r t _ h =>
          refine ih r (fun t' q' h' hQ' => ?_) h fun e he => hQ e (List.mem_cons_of_mem _ he)
          refine hp (⟨c, r⟩ :: t') q' (Steps.call h') fun e he => ?_
          rcases List.mem_cons.mp he with rfl | he
          · exact hQ _ List.mem_cons_self
          · exact hQ' e he
  | halt => exact absurd rfl (hp [] _ (Steps.here _) (by simp))

namespace NeverHalts

variable {Q : Event C R → Prop} {m m' : StateProg C R σ α}

lemma pure {a : α} : NeverHalts Q (pure a : StateProg C R σ α) := by
  intro s t q h _
  cases h with
  | here => simp

lemma perform {c : C} : NeverHalts Q (perform c : StateProg C R σ (R c)) := by
  intro s t q h _
  rw [run_perform] at h
  cases h with
  | here => simp
  | call h =>
      cases h with
      | here => simp

lemma bind {f : α → StateProg C R σ β} (hm : NeverHalts Q m) (hf : ∀ a, NeverHalts Q (f a)) :
    NeverHalts Q (m >>= f) :=
  fun s _ _ h hQ => Steps.ne_halt_bind (hm s) (fun r => hf r.1 r.2) h hQ

lemma get_bind {f : σ → StateProg C R σ β} (hf : ∀ s, NeverHalts Q (f s)) :
    NeverHalts Q (get >>= f) := fun s => hf s s

lemma modify_bind {g : σ → σ} {f : PUnit → StateProg C R σ β} (hf : ∀ u, NeverHalts Q (f u)) :
    NeverHalts Q (modify g >>= f) := fun s => hf ⟨⟩ (g s)

lemma ite {c : Prop} [Decidable c] (h : NeverHalts Q m) (h' : NeverHalts Q m') :
    NeverHalts Q (if c then m else m') := by
  split
  · exact h
  · exact h'

end NeverHalts

end Programs
