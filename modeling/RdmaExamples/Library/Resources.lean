import RdmaExamples.Library.Monitors

/-!
# Resources

A program acquires resources with some of its calls, needs them in others, and releases them again.
`Use` says which call does what, and which resource is built on which other one.

* `Use.expecting` — the monitor whose record is what the program holds.  It may need and release
  only what it holds, may not acquire what it holds already, and may not release what something it
  holds is built on.  What it may count on is a parameter.
* `Use.Sound` — a run in which all calls were of that kind.
* `Use.Sound.accounted` — then what was acquired is what was released, and what is still held.
* `Use.Tidy` — nothing is still held.

A run that was cut off is `Sound` as well as one that has returned; only `Tidy` is about the end.
What a program counts on is a parameter since some programs release everything only as long as
certain calls succeed.
-/

namespace Resources

open Programs Monitors

variable {C Res α β σ : Type} {R : C → Type}

/-- What an event does to a resource. -/
inductive Effect (Res : Type)
  | acquire (r : Res)
  | release (r : Res)
  | none

/-- How a program's calls concern its resources. -/
structure Use (C : Type) (R : C → Type) (Res : Type) where
  effect : Event C R → Effect Res
  needs : C → List Res
  builtOn : Res → Res → Prop

variable [DecidableEq Res]

/-- What is held after an event. -/
def Use.after (use : Use C R Res) (held : List Res) (e : Event C R) : List Res :=
  match use.effect e with
  | .acquire r => r :: held
  | .release r => held.erase r
  | .none => held

/-- What may happen to a resource, with these held.  What is acquired must be new, and what is
released must be held and carry nothing else that is held: both double releases and releases in the
wrong order are excluded here. -/
def Use.Fits (use : Use C R Res) (held : List Res) : Effect Res → Prop
  | .acquire r => r ∉ held
  | .release r => r ∈ held ∧ ∀ q ∈ held, ¬ use.builtOn q r
  | .none => True

/-- The monitor of a program that holds resources, and counts on these replies. -/
def Use.expecting (use : Use C R Res) (expected : List Res → Event C R → Prop) :
    Monitor C R (List Res) where
  allowed held c := (∀ r ∈ use.needs c, r ∈ held) ∧ ∀ reply, use.Fits held (use.effect ⟨c, reply⟩)
  expected := expected
  after := use.after

/-- The monitor of a program that counts on nothing. -/
abbrev Use.monitor (use : Use C R Res) : Monitor C R (List Res) := use.expecting fun _ _ => True

/-- The resource that an event acquires. -/
def Use.acquiredBy (use : Use C R Res) (e : Event C R) : Option Res :=
  match use.effect e with
  | .acquire r => some r
  | _ => none

/-- The resource that an event releases. -/
def Use.releasedBy (use : Use C R Res) (e : Event C R) : Option Res :=
  match use.effect e with
  | .release r => some r
  | _ => none

/-- What a run acquires, in order. -/
def Use.acquired (use : Use C R Res) (t : List (Event C R)) : List Res :=
  t.filterMap use.acquiredBy

/-- What a run releases, in order. -/
def Use.released (use : Use C R Res) (t : List (Event C R)) : List Res :=
  t.filterMap use.releasedBy

/-- What a run that started with nothing holds. -/
def Use.held (use : Use C R Res) (t : List (Event C R)) : List Res := t.foldl use.after []

/-- A run that needs and releases only what it holds, and never releases what it still builds on. -/
def Use.Sound (use : Use C R Res) (t : List (Event C R)) : Prop := use.monitor.Allows [] t

/-- A sound run that releases all that it has acquired. -/
structure Use.Tidy (use : Use C R Res) (t : List (Event C R)) : Prop where
  sound : use.Sound t
  released : (use.released t).Perm (use.acquired t)

section

variable {use : Use C R Res} {held : List Res} {t : List (Event C R)} {Q : List Res → α → Prop}
  {p q : Prog C R α} {a : α}

/-- **Nothing is lost**: what is held at first and what is acquired is what is released and what is
held in the end. -/
theorem Use.accounted (h : use.monitor.Allows held t) :
    (use.acquired t ++ held).Perm (use.released t ++ t.foldl use.after held) := by
  induction t generalizing held with
  | nil => exact List.Perm.refl _
  | cons e t ih =>
      have hrest := ih h.2
      have hfits := h.1.2 e.2
      rw [List.foldl_cons, Use.acquired, Use.released, List.filterMap_cons, List.filterMap_cons]
      change (use.acquired t ++ use.after held e).Perm
        (use.released t ++ t.foldl use.after (use.after held e)) at hrest
      change use.Fits held (use.effect e) at hfits
      cases heff : use.effect e with
      | acquire r =>
          simp only [Use.after, heff] at hrest ⊢
          simp only [Use.acquiredBy, Use.releasedBy, heff]
          exact List.perm_middle.symm.trans hrest
      | release r =>
          rw [heff] at hfits
          simp only [Use.after, heff] at hrest ⊢
          simp only [Use.acquiredBy, Use.releasedBy, heff]
          refine List.Perm.trans ?_ (hrest.cons r)
          refine List.Perm.trans ?_ List.perm_middle
          exact (List.perm_cons_erase hfits.1).append_left _
      | none =>
          simp only [Use.after, heff] at hrest ⊢
          simp only [Use.acquiredBy, Use.releasedBy, heff]
          exact hrest

omit [DecidableEq Res] in
lemma Use.mem_acquired {r : Res} :
    r ∈ use.acquired t ↔ ∃ e ∈ t, use.effect e = .acquire r := by
  have heff : ∀ e, use.acquiredBy e = some r ↔ use.effect e = .acquire r := by
    intro e
    rw [Use.acquiredBy]
    cases use.effect e <;> simp
  simp only [Use.acquired, List.mem_filterMap, heff]

omit [DecidableEq Res] in
lemma Use.mem_released {r : Res} :
    r ∈ use.released t ↔ ∃ e ∈ t, use.effect e = .release r := by
  have heff : ∀ e, use.releasedBy e = some r ↔ use.effect e = .release r := by
    intro e
    rw [Use.releasedBy]
    cases use.effect e <;> simp
  simp only [Use.released, List.mem_filterMap, heff]

/-- What is held was held before, or was acquired. -/
lemma Use.mem_acquired_of_mem_held {r : Res} (h : r ∈ t.foldl use.after held) :
    r ∈ held ∨ r ∈ use.acquired t := by
  induction t generalizing held with
  | nil => exact Or.inl h
  | cons e t ih =>
      rw [List.foldl_cons] at h
      simp only [Use.mem_acquired, List.exists_mem_cons_iff] at ih ⊢
      rcases ih h with hafter | hlater
      · rw [Use.after] at hafter
        cases heff : use.effect e with
        | acquire q =>
            rw [heff] at hafter
            rcases List.mem_cons.mp hafter with rfl | hheld
            · exact Or.inr (Or.inl rfl)
            · exact Or.inl hheld
        | release q =>
            rw [heff] at hafter
            exact Or.inl (List.mem_of_mem_erase hafter)
        | none =>
            rw [heff] at hafter
            exact Or.inl hafter
      · exact Or.inr (Or.inr hlater)

lemma Use.Sound.accounted (h : use.Sound t) :
    (use.acquired t).Perm (use.released t ++ use.held t) := by
  have hperm := Use.accounted h
  rwa [List.append_nil] at hperm

/-- A sound run is tidy just if it holds nothing in the end. -/
theorem Use.Sound.tidy_iff (h : use.Sound t) :
    (use.released t).Perm (use.acquired t) ↔ use.held t = [] := by
  have hperm := h.accounted
  constructor
  · intro hsame
    have hlen := (hsame.trans hperm).length_eq
    rw [List.length_append] at hlen
    exact List.length_eq_zero_iff.mp (by omega)
  · intro hnone
    rw [hnone, List.append_nil] at hperm
    exact hperm.symm

lemma allows_expecting {expected : List Res → Event C R → Prop} :
    (use.expecting expected).Allows held t ↔ use.monitor.Allows held t := by
  induction t generalizing held with
  | nil => exact Iff.rfl
  | cons e t ih => exact and_congr Iff.rfl ih

variable {expected : List Res → Event C R → Prop}

/-- **A run of a program that keeps to its resources** is sound, as far as it goes. -/
theorem sound_of_obeys (h : Obeys (use.expecting expected) Q p []) (ht : CanDo p t)
    (hcounts : (use.expecting expected).CountsOn [] t) : use.Sound t := by
  obtain ⟨q, hsteps⟩ := ht
  exact allows_expecting.mp (h.steps hsteps hcounts).1

/-- **A program that holds nothing in the end** leaves nothing behind. -/
theorem tidy_of_obeys (h : Obeys (use.expecting expected) (fun held _ => held = []) p [])
    (ht : Returns p t a) (hcounts : (use.expecting expected).CountsOn [] t) : use.Tidy t where
  sound := sound_of_obeys h ht.canDo hcounts
  released := (sound_of_obeys h ht.canDo hcounts).tidy_iff.mpr (h.steps ht hcounts).2

/-! ### Rules -/

variable {s : σ} {c : C} {r : Res} {f : R c → StateProg C R σ α} {Q' : List Res → α × σ → Prop}

/-- A call that acquires a resource, if it succeeds. -/
lemma obeys_acquire (r : Res) (success : R c → Prop) [DecidablePred success]
    (heffect : ∀ reply, use.effect ⟨c, reply⟩ = if success reply then .acquire r else .none)
    (hneeds : ∀ q ∈ use.needs c, q ∈ held) (hnew : r ∉ held)
    (hyes : ∀ reply, expected held ⟨c, reply⟩ → success reply →
      Obeys (use.expecting expected) Q' ((f reply).run s) (r :: held))
    (hno : ∀ reply, expected held ⟨c, reply⟩ → ¬ success reply →
      Obeys (use.expecting expected) Q' ((f reply).run s) held) :
    Obeys (use.expecting expected) Q' ((Programs.perform c >>= f).run s) held := by
  refine Obeys.perform_bind ⟨hneeds, fun reply => ?_⟩ fun reply hreply => ?_
  · rw [heffect reply]
    split
    · exact hnew
    · trivial
  · show Obeys _ _ _ (use.after held ⟨c, reply⟩)
    rw [Use.after, heffect reply]
    by_cases hs : success reply
    · rw [if_pos hs]
      exact hyes reply hreply hs
    · rw [if_neg hs]
      exact hno reply hreply hs

/-- A call that releases the resource acquired last. -/
lemma obeys_release (heffect : ∀ reply, use.effect ⟨c, reply⟩ = .release r)
    (hneeds : ∀ q ∈ use.needs c, q ∈ r :: held) (hbuilt : ∀ q ∈ r :: held, ¬ use.builtOn q r)
    (hrest : ∀ reply, expected (r :: held) ⟨c, reply⟩ →
      Obeys (use.expecting expected) Q' ((f reply).run s) held) :
    Obeys (use.expecting expected) Q' ((Programs.perform c >>= f).run s) (r :: held) := by
  refine Obeys.perform_bind ⟨hneeds, fun reply => ?_⟩ fun reply hreply => ?_
  · rw [heffect reply]
    exact ⟨List.mem_cons_self, hbuilt⟩
  · show Obeys _ _ _ (use.after (r :: held) ⟨c, reply⟩)
    rw [Use.after, heffect reply]
    show Obeys _ _ _ ((r :: held).erase r)
    rw [List.erase_cons_head]
    exact hrest reply hreply

/-- A call that only uses resources. -/
lemma obeys_use (heffect : ∀ reply, use.effect ⟨c, reply⟩ = .none)
    (hneeds : ∀ q ∈ use.needs c, q ∈ held)
    (hrest : ∀ reply, expected held ⟨c, reply⟩ →
      Obeys (use.expecting expected) Q' ((f reply).run s) held) :
    Obeys (use.expecting expected) Q' ((Programs.perform c >>= f).run s) held := by
  refine Obeys.perform_bind ⟨hneeds, fun reply => ?_⟩ fun reply hreply => ?_
  · rw [heffect reply]
    trivial
  · show Obeys _ _ _ (use.after held ⟨c, reply⟩)
    rw [Use.after, heffect reply]
    exact hrest reply hreply

/-- A program that counts on nothing gets what it counts on. -/
lemma countsOn_monitor (t : List (Event C R)) : use.monitor.CountsOn held t :=
  Monitor.countsOn_of_forall fun _ _ _ _ => trivial

end

end Resources
