import Mathlib

/-!
# Segments that tile an interval

A segment is a pair of an offset and a length.  `Tiles lo segs hi` says that `segs`, in order,
cut `[lo, hi)` into non-empty pieces: the first starts at `lo`, each next one where the one before
it ends, and the last ends at `hi`.  So there is no gap, no overlap and nothing past the end; what
a reader of the bytes needs of it is `Tiles.covers` and `Tiles.inside`.

The pieces are taken in their order, since that is how a loop makes them: a new piece goes to the
end of the list, and `Tiles` grows with it.
-/

namespace Tiling

/-- An offset and a length. -/
abbrev Segment := ℕ × ℕ

/-- `segs` cuts `[lo, hi)`, in order, into non-empty segments. -/
def Tiles : ℕ → List Segment → ℕ → Prop
  | lo, [], hi => lo = hi
  | lo, (off, len) :: segs, hi => off = lo ∧ 0 < len ∧ Tiles (lo + len) segs hi

@[simp] lemma tiles_nil (lo hi : ℕ) : Tiles lo [] hi ↔ lo = hi := Iff.rfl

@[simp] lemma tiles_cons (lo hi off len : ℕ) (segs : List Segment) :
    Tiles lo ((off, len) :: segs) hi ↔ off = lo ∧ 0 < len ∧ Tiles (lo + len) segs hi := Iff.rfl

/-- Two adjacent tilings join. -/
theorem Tiles.append {lo mid hi : ℕ} : ∀ {segs segs' : List Segment},
    Tiles lo segs mid → Tiles mid segs' hi → Tiles lo (segs ++ segs') hi
  | [], _, h, h' => by rw [tiles_nil] at h; subst h; simpa using h'
  | (off, len) :: segs, segs', ⟨hoff, hlen, h⟩, h' => ⟨hoff, hlen, Tiles.append h h'⟩

/-- One more segment at the end. -/
theorem Tiles.snoc {lo hi len : ℕ} {segs : List Segment} (h : Tiles lo segs hi) (hlen : 0 < len) :
    Tiles lo (segs ++ [(hi, len)]) (hi + len) :=
  h.append ⟨rfl, hlen, rfl⟩

/-- The end of a tiling is fixed by the lengths. -/
theorem Tiles.hi_eq {lo hi : ℕ} : ∀ {segs : List Segment},
    Tiles lo segs hi → hi = lo + (segs.map Prod.snd).sum
  | [], h => by simpa using h.symm
  | (off, len) :: segs, ⟨_, _, h⟩ => by
      have ih := h.hi_eq
      simp only [List.map_cons, List.sum_cons]
      omega

theorem Tiles.le {lo hi : ℕ} {segs : List Segment} (h : Tiles lo segs hi) : lo ≤ hi := by
  have := h.hi_eq
  omega

/-- Nothing before the start, nothing past the end. -/
theorem Tiles.inside {lo hi : ℕ} : ∀ {segs : List Segment}, Tiles lo segs hi →
    ∀ s ∈ segs, lo ≤ s.1 ∧ s.1 + s.2 ≤ hi
  | [], _, s, hs => absurd hs (by simp)
  | (off, len) :: segs, ⟨hoff, hlen, h⟩, s, hs => by
      rcases List.mem_cons.mp hs with rfl | hs
      · have := h.le
        simp only
        omega
      · have := h.inside s hs
        omega

/-- No gap: every point of the interval lies in a segment. -/
theorem Tiles.covers {lo hi : ℕ} : ∀ {segs : List Segment}, Tiles lo segs hi →
    ∀ x, lo ≤ x → x < hi → ∃ s ∈ segs, s.1 ≤ x ∧ x < s.1 + s.2
  | [], h, x, hlo, hhi => by rw [tiles_nil] at h; omega
  | (off, len) :: segs, ⟨hoff, _, h⟩, x, hlo, hhi => by
      by_cases hx : x < lo + len
      · exact ⟨(off, len), by simp, by simp only; omega, by simp only; omega⟩
      · obtain ⟨s, hs, h₁, h₂⟩ := h.covers x (by omega) hhi
        exact ⟨s, List.mem_cons_of_mem _ hs, h₁, h₂⟩

/-- An interval that is not empty needs a segment, and the first one starts where it starts. -/
theorem Tiles.exists_first {lo hi : ℕ} (hlt : lo < hi) : ∀ {segs : List Segment},
    Tiles lo segs hi → ∃ len rest, segs = (lo, len) :: rest ∧ 0 < len
  | [], h => by rw [tiles_nil] at h; omega
  | (off, len) :: segs, ⟨hoff, hlen, _⟩ => ⟨len, segs, by rw [hoff], hlen⟩

end Tiling
