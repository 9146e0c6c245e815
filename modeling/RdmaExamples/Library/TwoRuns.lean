import RdmaExamples.Library.Programs

/-!
# Two programs side by side

`Follows Q p p'` — every run of `p` is a run of `p'`, and where it ends `p'` ends too, with a result
that `Q` relates to that of `p`.  Two programs that follow each other cannot be told apart from the
outside, whatever the calls answer.  For programs over a state the results include the states they
end in, so that a relation between states is carried along a sequence by `Follows.bind`: it is the
one rule that composes, the others are one for each constructor of a program.
-/

namespace Programs

open Prog

variable {C : Type} {R : C → Type} {α β α' β' σ : Type}

/-- `p'` follows `p`: it can do what `p` can, and ends where `p` ends, with a related result. -/
def Follows (Q : α → β → Prop) (p : Prog C R α) (p' : Prog C R β) : Prop :=
  ∀ t, (CanDo p t → CanDo p' t) ∧ ∀ a, Returns p t a → ∃ b, Returns p' t b ∧ Q a b

namespace Follows

variable {Q : α → β → Prop} {Q' : α' → β' → Prop}

lemma ret {a : α} {b : β} (h : Q a b) : Follows Q (Prog.ret a : Prog C R α) (Prog.ret b) := by
  intro t
  refine ⟨fun hc => canDo_ret.mpr (canDo_ret.mp hc), fun a' ha => ?_⟩
  obtain ⟨rfl, rfl⟩ := returns_ret.mp ha
  exact ⟨b, returns_ret.mpr ⟨rfl, rfl⟩, h⟩

/-- A program follows itself. -/
lemma refl {Q : α → α → Prop} (h : ∀ a, Q a a) (p : Prog C R α) : Follows Q p p :=
  fun _ => ⟨id, fun a ha => ⟨a, ha, h a⟩⟩

lemma halt : Follows Q (Prog.halt : Prog C R α) Prog.halt := by
  intro t
  exact ⟨fun hc => canDo_halt.mpr (canDo_halt.mp hc), fun a ha => absurd ha returns_halt⟩

/-- Both make the same call, and go on side by side whatever it answers. -/
lemma call {c : C} {k : R c → Prog C R α} {k' : R c → Prog C R β}
    (h : ∀ r, Follows Q (k r) (k' r)) :
    Follows Q (Prog.call c k) (Prog.call c k') := by
  intro t
  constructor
  · intro hc
    rcases canDo_call.mp hc with rfl | ⟨r, t', rfl, hk⟩
    · exact canDo_nil _
    · exact canDo_call.mpr (Or.inr ⟨r, t', rfl, (h r t').1 hk⟩)
  · intro a ha
    obtain ⟨r, t', rfl, hk⟩ := returns_call.mp ha
    obtain ⟨b, hb, hQ⟩ := (h r t').2 a hk
    exact ⟨b, returns_call.mpr ⟨r, t', rfl, hb⟩, hQ⟩

/-- **Sequences go on side by side.**  The runs of a sequence are the runs of its first part, cut
off or followed by one of the second; the relation between the results of the first parts is what
the second ones start from. -/
theorem bind {p : Prog C R α} {p' : Prog C R β} {f : α → Prog C R α'} {f' : β → Prog C R β'}
    (h : Follows Q p p') (hf : ∀ a b, Q a b → Follows Q' (f a) (f' b)) :
    Follows Q' (p >>= f) (p' >>= f') := by
  intro t
  constructor
  · intro hc
    rcases canDo_bind.mp hc with hc | ⟨t₁, t₂, a, rfl, h₁, h₂⟩
    · exact canDo_bind.mpr (Or.inl ((h t).1 hc))
    · obtain ⟨b, hb, hQ⟩ := (h t₁).2 a h₁
      exact canDo_bind.mpr (Or.inr ⟨t₁, t₂, b, rfl, hb, (hf a b hQ t₂).1 h₂⟩)
  · intro a' ha'
    obtain ⟨t₁, t₂, a, rfl, h₁, h₂⟩ := returns_bind.mp ha'
    obtain ⟨b, hb, hQ⟩ := (h t₁).2 a h₁
    obtain ⟨b', hb', hQ'⟩ := (hf a b hQ t₂).2 a' h₂
    exact ⟨b', returns_bind.mpr ⟨t₁, t₂, b, rfl, hb, hb'⟩, hQ'⟩

end Follows

end Programs
