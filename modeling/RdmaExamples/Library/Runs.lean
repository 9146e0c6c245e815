import Mathlib

/-!
# Runs of a transition system

A system is a partial function `next`: in state `s` the choice `c` is refused, or it leads to a
state and emits the events an observer may see.  A choice stands for everything the system does
not decide itself: which party moves, what a device answers, which message arrives.

* `Run next ok s₀ tr s` — `s` is reached from `s₀` with the events `tr`, every step of the run
  taken in a state and under a choice that `ok` admits.
* `Run.invariant` — the induction over a run, packaged once: what holds at the start and is
  preserved by one admitted step holds in every state reached.
* `play` and `drive` — run a list of choices, or a scheduler, so that a concrete run is found by
  evaluation (`Run.of_play`, `Run.of_drive`).
* `Ordered` — a schedule each choice of which meets a condition on the choices before it;
  `Ordered.invariant` is the induction over a run that follows such a schedule.
* `Endless` — a run without end; a number that no step raises settles on it.
* `Inevitable` — every run that goes on comes to a state with a property after finitely many steps.

The condition `ok` is on the state before the step and the choice, so that an assumption about a
run is an assumption about its steps.  A result with a weaker condition is about more runs
(`Run.weaken`).
-/

namespace Runs

variable {S C E : Type}

/-- The states reached from `s₀`, with the events emitted on the way. -/
inductive Run (next : S → C → Option (S × List E)) (ok : S → C → Prop) (s₀ : S) :
    List E → S → Prop
  | start : Run next ok s₀ [] s₀
  | step {tr : List E} {s s' : S} {c : C} {es : List E} :
      Run next ok s₀ tr s → ok s c → next s c = some (s', es) → Run next ok s₀ (tr ++ es) s'

/-- The condition every step meets. -/
abbrev always : S → C → Prop := fun _ _ => True

variable {next : S → C → Option (S × List E)} {ok : S → C → Prop} {s₀ : S}

/-- **The invariant rule.**  The invariant may speak of the events emitted so far. -/
theorem Run.invariant {I : List E → S → Prop} (hstart : I [] s₀)
    (hstep : ∀ tr s c s' es, I tr s → ok s c → next s c = some (s', es) → I (tr ++ es) s')
    {tr : List E} {s : S} (h : Run next ok s₀ tr s) : I tr s := by
  induction h with
  | start => exact hstart
  | step _ hok hs ih => exact hstep _ _ _ _ _ ih hok hs

/-- A run of one step. -/
theorem Run.single {s : S} {c : C} {es : List E} (h : next s₀ c = some (s, es)) :
    Run next always s₀ es s := Run.step (E := E) Run.start trivial h

/-- A run whose steps meet a condition meets every weaker one. -/
theorem Run.weaken {ok' : S → C → Prop} (himp : ∀ s c, ok s c → ok' s c)
    {tr : List E} {s : S} (h : Run next ok s₀ tr s) : Run next ok' s₀ tr s := by
  induction h with
  | start => exact Run.start
  | step _ hok hs ih => exact Run.step ih (himp _ _ hok) hs

/-- Runs compose. -/
theorem Run.append {tr₁ tr₂ : List E} {s₁ s₂ : S} (h₁ : Run next ok s₀ tr₁ s₁)
    (h₂ : Run next ok s₁ tr₂ s₂) : Run next ok s₀ (tr₁ ++ tr₂) s₂ := by
  induction h₂ with
  | start => simpa using h₁
  | step _ hok hs ih =>
      rw [← List.append_assoc]
      exact Run.step ih hok hs

/-- Take a list of choices one after the other. -/
def play (next : S → C → Option (S × List E)) : S → List C → Option (S × List E)
  | s, [] => some (s, [])
  | s, c :: cs =>
      match next s c with
      | none => none
      | some (s', es) =>
          match play next s' cs with
          | none => none
          | some (s'', es') => some (s'', es ++ es')

/-- What `play` computes is a run. -/
theorem Run.of_play : ∀ {cs : List C} {s s' : S} {es : List E},
    play next s cs = some (s', es) → Run next always s es s'
  | [], s, s', es, h => by
      simp only [play, Option.some.injEq, Prod.mk.injEq] at h
      obtain ⟨rfl, rfl⟩ := h
      exact Run.start
  | c :: cs, s, s', es, h => by
      simp only [play] at h
      split at h
      · exact absurd h (by simp)
      · rename_i s₁ es₁ hs
        split at h
        · exact absurd h (by simp)
        · rename_i s₂ es₂ hp
          simp only [Option.some.injEq, Prod.mk.injEq] at h
          obtain ⟨rfl, rfl⟩ := h
          exact Run.append (Run.single hs) (Run.of_play hp)

/-- Each of the choices meets a condition on those before it, of which `past` are the first. -/
def Ordered (ok : List C → C → Prop) : List C → List C → Prop
  | _, [] => True
  | past, c :: cs => ok past c ∧ Ordered ok (past ++ [c]) cs

instance Ordered.decidable {ok : List C → C → Prop} [∀ past c, Decidable (ok past c)] :
    ∀ past cs, Decidable (Ordered ok past cs)
  | _, [] => isTrue trivial
  | past, c :: cs =>
      haveI : Decidable (Ordered ok (past ++ [c]) cs) := Ordered.decidable (past ++ [c]) cs
      inferInstanceAs (Decidable (ok past c ∧ Ordered ok (past ++ [c]) cs))

/-- **The invariant rule for a schedule.**  The invariant may speak of the choices made so far. -/
theorem Ordered.invariant {ok : List C → C → Prop} {I : List C → S → Prop}
    (hstep : ∀ past s c s' es, I past s → ok past c → next s c = some (s', es) →
      I (past ++ [c]) s') :
    ∀ {cs past : List C} {s s' : S} {es : List E}, Ordered ok past cs → I past s →
      play next s cs = some (s', es) → I (past ++ cs) s'
  | [], past, s, s', es, _, hstart, h => by
      obtain ⟨rfl, -⟩ := Prod.mk.inj (Option.some.inj h)
      rwa [List.append_nil]
  | c :: cs, past, s, s', es, ⟨hok, hrest⟩, hstart, h => by
      simp only [play] at h
      split at h
      · exact absurd h (by simp)
      · rename_i s₁ es₁ hs
        split at h
        · exact absurd h (by simp)
        · rename_i s₂ es₂ hp
          obtain ⟨rfl, -⟩ := Prod.mk.inj (Option.some.inj h)
          rw [List.append_cons]
          exact Ordered.invariant hstep hrest (hstep _ _ _ _ _ hstart hok hs) hp

/-- Let a scheduler choose, until its choice is refused or the fuel ends. -/
def drive (next : S → C → Option (S × List E)) (pick : S → C) : ℕ → S → S × List E
  | 0, s => (s, [])
  | fuel + 1, s =>
      match next s (pick s) with
      | none => (s, [])
      | some (s', es) =>
          let rest := drive next pick fuel s'
          (rest.1, es ++ rest.2)

/-- What a scheduler reaches is reached by a run. -/
theorem Run.of_drive (next : S → C → Option (S × List E)) (pick : S → C) : ∀ (fuel : ℕ) (s : S),
    Run next always s (drive next pick fuel s).2 (drive next pick fuel s).1
  | 0, _ => Run.start
  | fuel + 1, s => by
      rw [drive]
      split
      · exact Run.start
      · rename_i s' es hs
        exact Run.append (Run.single hs) (Run.of_drive next pick fuel s')

/-- A concrete run is found by evaluating a test of its last state and its events. -/
theorem Run.exists_of_play (next : S → C → Option (S × List E)) (s : S) (cs : List C)
    (p : S × List E → Bool) (h : (play next s cs).any p = true) :
    ∃ es s', Run next always s es s' ∧ p (s', es) = true := by
  cases hp : play next s cs with
  | none => simp [hp] at h
  | some r =>
      obtain ⟨s', es⟩ := r
      exact ⟨es, s', Run.of_play hp, by simpa [hp] using h⟩

/-- A run in which the condition is part of the system. -/
theorem Run.of_guarded {ok : S → C → Prop} [∀ s c, Decidable (ok s c)] {tr : List E} {s : S}
    (h : Run (fun s c => if ok s c then next s c else none) always s₀ tr s) :
    Run next ok s₀ tr s := by
  induction h with
  | start => exact Run.start
  | step _ _ hs ih =>
      split at hs
      · rename_i hok
        exact Run.step ih hok hs
      · exact absurd hs (by simp)

/-! ## Runs without end -/

/-- The states `f 0`, `f 1`, ... follow each other for ever, by admitted steps. -/
def Endless (next : S → C → Option (S × List E)) (ok : S → C → Prop) (f : ℕ → S) : Prop :=
  ∀ n, ∃ c es, ok (f n) c ∧ next (f n) c = some (f (n + 1), es)

/-- All its states are reached. -/
lemma Endless.run {f : ℕ → S} {tr : List E} (hf : Endless next ok f)
    (h : Run next ok s₀ tr (f 0)) (n : ℕ) : ∃ tr', Run next ok s₀ tr' (f n) := by
  induction n with
  | zero => exact ⟨tr, h⟩
  | succ n ih =>
      obtain ⟨tr', hrun⟩ := ih
      obtain ⟨c, es, hok, hs⟩ := hf n
      exact ⟨tr' ++ es, Run.step hrun hok hs⟩

/-- **A run without end falls silent** when no step raises a number and every event lowers it: from
some step on the number stays the same and there are no events. -/
theorem Endless.silent {f : ℕ → S} {μ : S → ℕ} (hf : Endless next ok f)
    (hlow : ∀ n c es, next (f n) c = some (f (n + 1), es) →
      μ (f (n + 1)) ≤ μ (f n) ∧ (es ≠ [] → μ (f (n + 1)) < μ (f n))) :
    ∃ N, ∀ n, N ≤ n → μ (f (n + 1)) = μ (f n) ∧
      ∀ c es, next (f n) c = some (f (n + 1), es) → es = [] := by
  have hle : ∀ n, μ (f (n + 1)) ≤ μ (f n) := by
    intro n
    obtain ⟨c, es, -, hs⟩ := hf n
    exact (hlow n c es hs).1
  have hanti : Antitone fun n => μ (f n) := antitone_nat_of_succ_le hle
  obtain ⟨N, hN⟩ : ∃ N, ∀ n, μ (f N) ≤ μ (f n) :=
    ⟨Function.argmin fun n => μ (f n), fun n => Function.argmin_le (fun n => μ (f n)) n⟩
  refine ⟨N, fun n hn => ?_⟩
  have hsame : μ (f (n + 1)) = μ (f n) :=
    le_antisymm (hle n) ((hanti hn).trans (hN (n + 1)))
  refine ⟨hsame, fun c es hs => ?_⟩
  by_contra hne
  exact absurd ((hlow n c es hs).2 hne) (by omega)

/-- However the run goes on from `s`, it goes on until it reaches a state with `P`. -/
inductive Inevitable (next : S → C → Option (S × List E)) (ok : S → C → Prop) (P : S → Prop) :
    S → Prop
  | now {s : S} : P s → Inevitable next ok P s
  | later {s : S} : (∃ c s' es, ok s c ∧ next s c = some (s', es)) →
      (∀ c s' es, ok s c → next s c = some (s', es) → Inevitable next ok P s') →
      Inevitable next ok P s

/-- What follows from it is inevitable as well. -/
lemma Inevitable.weaken {P Q : S → Prop} (hPQ : ∀ s, P s → Q s) {s : S}
    (h : Inevitable next ok P s) : Inevitable next ok Q s := by
  induction h with
  | now hp => exact Inevitable.now (hPQ _ hp)
  | later hex _ ih => exact Inevitable.later hex ih

/-- Nothing is inevitable that a run can avoid for ever: each state of `I` is a dead end, or has a
step that stays in `I`. -/
theorem Inevitable.not_of_avoids {P I : S → Prop} (hP : ∀ s, I s → ¬ P s)
    (hI : ∀ s, I s → (∀ c s' es, ok s c → next s c ≠ some (s', es)) ∨
      ∃ c s' es, ok s c ∧ next s c = some (s', es) ∧ I s')
    {s : S} (h : Inevitable next ok P s) : ¬ I s := by
  induction h with
  | now hp => exact fun hi => hP _ hi hp
  | later hex _ ih =>
      intro hi
      rcases hI _ hi with hdead | ⟨c, s', es, hok, hs, hi'⟩
      · obtain ⟨c, s', es, hok, hs⟩ := hex
        exact hdead c s' es hok hs
      · exact ih c s' es hok hs hi'

end Runs
