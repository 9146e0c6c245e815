import RdmaExamples.Rcopy.Receive

/-!
# When `_recv` can be trusted

`recv_ret` says what `_recv` returns.  Here is what is expected of it: the offset moves forward and
stays within the message, and the full length is returned exactly for a message that is there
(`Delivers`).  That is so as long as no `rrecv` fails (`recv_delivers_iff`): after a failure the
offset goes back by one, and from `0` it goes around.

* `offsets` — the values that `offset` has at the test of the loop.
* `recvFrom_steps` — one round of the loop, in a run that may be under way.
-/

namespace Rcopy

open ByteStrings MachineWords Programs

/-! ## What is expected -/

/-- `offset += ret`. -/
def offsetAfter (offset : ℕ) : Event Call Reply → ℕ
  | ⟨.rrecv _ _ _, reply⟩ => (offset + rrecvSize reply) % 2 ^ 64
  | _ => offset

/-- The values of `offset` at the test of the loop. -/
def offsets : ℕ → Trace → List ℕ
  | offset, [] => [offset]
  | offset, e :: t => offset :: offsets (offsetAfter offset e) t

/-- What is expected of `_recv` in a run that has come to `q`.  `whole` says that the full length
is returned where the bytes arrived, and only there; `short` that the end of the stream or an error
is never taken for it. -/
structure Delivers (dest : Dest) (len : ℕ) (t : Trace)
    (q : Prog Call Reply ((ℕ × List UInt8) × Globals)) : Prop where
  forward : (offsets 0 t).Pairwise (· ≤ ·)
  inside : ∀ offset ∈ offsets 0 t, offset ≤ len
  goesOn : q ≠ .halt
  whole : ∀ n buf g', q = .ret ((n, buf), g') →
    (n = len ↔ (received dest t).length = len ∧ buf.take len = received dest t)
  short : ∀ n buf g', q = .ret ((n, buf), g') → 0 < len → HasEof t ∨ HasError t → n ≠ len

/-! ## The loop -/

section Loop

variable {dest : Dest} {len fuel offset : ℕ} {msg : List UInt8} {g : Globals} {t : Trace}
  {q : Prog Call Reply ((ℕ × List UInt8) × Globals)}

@[simp] lemma offsets_nil : offsets offset [] = [offset] := rfl

@[simp] lemma offsets_cons (e : Event Call Reply) :
    offsets offset (e :: t) = offset :: offsets (offsetAfter offset e) t := rfl

/-- The offset to start with is one of them. -/
lemma mem_offsets (t : Trace) : offset ∈ offsets offset t := by
  cases t with
  | nil => exact List.mem_singleton_self _
  | cons e t => exact List.mem_cons_self

/-- **One round of the loop**: it has not begun, it is over, the stream ends, `rrecv` fails, or it
brings some bytes. -/
lemma recvFrom_steps (hlen : len < 2 ^ 64)
    (h : Steps ((recvFrom dest len (fuel + 1) offset msg).run g) t q) :
    (len ≤ offset ∧ t = [] ∧ q = .ret ((len, msg), g)) ∨
    (offset < len ∧ t = [] ∧ q ≠ .halt ∧ ∀ r, q ≠ .ret r) ∨
    (offset < len ∧ ∃ c, c.bs = [] ∧ t = [⟨.rrecv dest offset (len - offset), some c⟩] ∧
      q = .ret ((0, msg), g)) ∨
    (offset < len ∧ ∃ t', t = ⟨.rrecv dest offset (len - offset), none⟩ :: t' ∧
      Steps ((recvFrom dest len fuel ((offset + (2 ^ 64 - 1)) % 2 ^ 64) msg).run g) t' q) ∨
    (offset < len ∧ ∃ t' c, c.bs ≠ [] ∧
      t = ⟨.rrecv dest offset (len - offset), some c⟩ :: t' ∧ offset + c.bs.length ≤ len ∧
      Steps ((recvFrom dest len fuel (offset + c.bs.length) (store msg offset c.bs)).run g) t' q) :=
    by
  rw [recvFrom] at h
  by_cases hoff : offset < len
  · right
    rw [if_pos hoff, run_perform_bind] at h
    cases h with
    | here => exact Or.inl ⟨hoff, rfl, by simp, by simp⟩
    | @call _ _ reply t' _ h =>
        right
        dsimp only at h
        cases reply with
        | none =>
            have hsize : rrecvSize (none : Option (Chunk (len - offset))) = 2 ^ 64 - 1 :=
              (by decide : toUnsigned 64 (-1) = 2 ^ 64 - 1)
            rw [hsize, if_neg (by norm_num)] at h
            exact Or.inr (Or.inl ⟨hoff, t', rfl, h⟩)
        | some c =>
            have hsize : rrecvSize (some c) = c.bs.length := rfl
            rw [hsize] at h
            by_cases hc : c.bs = []
            · rw [if_pos (by simp [hc]), rrecvStore, hc, store_nil] at h
              cases h with
              | here => exact Or.inl ⟨hoff, c, hc, rfl, by simp⟩
            · have hpos : 0 < c.bs.length := List.length_pos_iff.mpr hc
              have hle := c.length_le
              rw [if_neg (by omega), Nat.mod_eq_of_lt (by omega)] at h
              exact Or.inr (Or.inr ⟨hoff, t', c, hc, rfl, by omega, h⟩)
  · rw [if_neg hoff] at h
    cases h with
    | here => exact Or.inl ⟨not_lt.mp hoff, rfl, rfl⟩

/-- What the loop is expected to do from an offset on. -/
structure DeliversFrom (dest : Dest) (len offset : ℕ) (msg : List UInt8) (t : Trace)
    (q : Prog Call Reply ((ℕ × List UInt8) × Globals)) : Prop where
  forward : (offsets offset t).Pairwise (· ≤ ·)
  inside : ∀ x ∈ offsets offset t, offset ≤ x ∧ x ≤ len
  goesOn : q ≠ .halt
  whole : ∀ n buf g', q = .ret ((n, buf), g') →
    (n = len ↔ offset + (received dest t).length = len ∧
      buf.take len = msg.take offset ++ received dest t)
  short : ∀ n buf g', q = .ret ((n, buf), g') → HasEof t → n ≠ len

/-- **The loop delivers** as long as no `rrecv` fails.  The induction is on the fuel; what is left
of the message is less. -/
theorem recvFrom_delivers (hlen : len < 2 ^ 64) :
    ∀ {fuel offset : ℕ} {msg : List UInt8} {t : Trace},
    offset ≤ len → len ≤ msg.length → len - offset < fuel →
    Steps ((recvFrom dest len fuel offset msg).run g) t q → ¬ HasError t →
    DeliversFrom dest len offset msg t q := by
  intro fuel
  induction fuel with
  | zero => exact fun _ _ hfuel => absurd hfuel (Nat.not_lt_zero _)
  | succ fuel ih =>
      intro offset msg t hoff hle hfuel h herror
      rcases recvFrom_steps hlen h with ⟨hge, rfl, rfl⟩ | ⟨hlt, rfl, hq, hret⟩ |
        ⟨hlt, c, hc, rfl, rfl⟩ | ⟨-, t', rfl, -⟩ | ⟨hlt, t', c, hc, rfl, hle', h'⟩
      · obtain rfl := le_antisymm hoff hge
        refine ⟨List.pairwise_singleton _ _, ?_, by simp, ?_, ?_⟩
        · intro x hx
          rw [List.mem_singleton.mp hx]
          exact ⟨le_rfl, le_rfl⟩
        · rintro n buf g' hq
          cases hq
          simp
        · exact fun _ _ _ _ heof => absurd heof hasEof_nil
      · refine ⟨List.pairwise_singleton _ _, ?_, hq, ?_, ?_⟩
        · intro x hx
          rw [List.mem_singleton.mp hx]
          exact ⟨le_rfl, hoff⟩
        · exact fun n buf g' hq' => absurd hq' (hret _)
        · exact fun _ _ _ _ heof => absurd heof hasEof_nil
      · have hstays : offsetAfter offset ⟨.rrecv dest offset (len - offset), some c⟩ = offset := by
          have hsize : rrecvSize (some c) = 0 := by
            rw [rrecvSize, hc]
            rfl
          simp only [offsetAfter, hsize, Nat.add_zero]
          exact Nat.mod_eq_of_lt (by omega)
        refine ⟨?_, ?_, by simp, ?_, ?_⟩
        · rw [offsets_cons, hstays]
          simp
        · intro x hx
          rw [offsets_cons, hstays] at hx
          simp only [offsets_nil, List.mem_cons, List.not_mem_nil, or_false, or_self] at hx
          rw [hx]
          exact ⟨le_rfl, hoff⟩
        · rintro n buf g' hq
          cases hq
          simp only [received_cons, receivedOf, if_true, hc, received_nil, List.append_nil,
            List.length_nil, Nat.add_zero]
          constructor
          · exact fun hn => absurd hn (by omega)
          · exact fun hn => absurd hn.1 (by omega)
        · rintro n buf g' hq -
          cases hq
          omega
      · exact absurd (by simp [got]) herror
      · have hpos : 0 < c.bs.length := List.length_pos_iff.mpr hc
        have hlen' : (store msg offset c.bs).length = msg.length := length_store (by omega)
        rw [hasError_cons, not_or] at herror
        have hnext : offsetAfter offset ⟨.rrecv dest offset (len - offset), some c⟩ =
            offset + c.bs.length := by
          have hsize : rrecvSize (some c) = c.bs.length := rfl
          simp only [offsetAfter, hsize]
          exact Nat.mod_eq_of_lt (by omega)
        have hrest := ih hle' (by omega) (by omega) h' herror.2
        refine ⟨?_, ?_, hrest.goesOn, ?_, ?_⟩
        · rw [offsets_cons, hnext, List.pairwise_cons]
          exact ⟨fun x hx => (Nat.le_add_right _ _).trans (hrest.inside x hx).1, hrest.forward⟩
        · intro x hx
          rw [offsets_cons, hnext] at hx
          rcases List.mem_cons.mp hx with rfl | hx
          · exact ⟨le_rfl, hoff⟩
          · have hin := hrest.inside x hx
            exact ⟨by omega, hin.2⟩
        · intro n buf g' hq
          rw [hrest.whole n buf g' hq, take_store (by omega), received_cons, receivedOf, if_pos rfl,
            List.length_append, List.append_assoc, Nat.add_assoc]
        · intro n buf g' hq heof
          rw [hasEof_cons] at heof
          refine hrest.short n buf g' hq (heof.resolve_left ?_)
          simp [got, hc]

/-- After a failure behind the start of the message the offset goes back. -/
lemma recvFrom_goesBack (hlen : len < 2 ^ 64) :
    ∀ {fuel offset : ℕ} {msg : List UInt8} {t : Trace}, 0 < offset → offset ≤ len →
    Steps ((recvFrom dest len fuel offset msg).run g) t q → HasError t →
    ¬ (offsets offset t).Pairwise (· ≤ ·) := by
  intro fuel
  induction fuel with
  | zero =>
      intro offset msg t _ _ h herror
      cases h with
      | here => exact absurd herror hasError_nil
  | succ fuel ih =>
      intro offset msg t hpos hoff h herror
      rcases recvFrom_steps hlen h with ⟨-, rfl, -⟩ | ⟨-, rfl, -⟩ | ⟨-, c, hc, rfl, -⟩ |
        ⟨hlt, t', rfl, -⟩ | ⟨hlt, t', c, hc, rfl, hle', h'⟩
      · exact absurd herror hasError_nil
      · exact absurd herror hasError_nil
      · exact absurd herror (by simp [got])
      · have hback : offsetAfter offset ⟨.rrecv dest offset (len - offset), none⟩ = offset - 1 := by
          have hsize : rrecvSize (none : Option (Chunk (len - offset))) = 2 ^ 64 - 1 :=
            (by decide : toUnsigned 64 (-1) = 2 ^ 64 - 1)
          simp only [offsetAfter, hsize]
          omega
        intro hforward
        rw [offsets_cons, hback, List.pairwise_cons] at hforward
        have hle := hforward.1 _ (mem_offsets t')
        omega
      · have hnext : offsetAfter offset ⟨.rrecv dest offset (len - offset), some c⟩ =
            offset + c.bs.length := by
          have hsize : rrecvSize (some c) = c.bs.length := rfl
          simp only [offsetAfter, hsize]
          exact Nat.mod_eq_of_lt (by omega)
        intro hforward
        rw [offsets_cons, hnext, List.pairwise_cons] at hforward
        refine ih (by omega) hle' h' ?_ hforward.2
        rw [hasError_cons] at herror
        exact herror.resolve_left (by simp [got])

end Loop

/-! ## The function -/

section Recv

variable {dest : Dest} {len fuel : ℕ} {msg : List UInt8} {g : Globals} {t : Trace}
  {q : Prog Call Reply ((ℕ × List UInt8) × Globals)}

/-- A failure of the first `rrecv` takes the offset past the message, or `_recv` returns the length
of a message of which it has nothing. -/
lemma recv_goesAround (hlen : len < 2 ^ 64) (hfuel : len < fuel)
    (h : Steps ((recv fuel dest msg len).run g) t q) (herror : HasError t) :
    ¬ Delivers dest len t q := by
  intro hdelivers
  obtain ⟨fuel, rfl⟩ : ∃ n, fuel = n + 1 := ⟨fuel - 1, by omega⟩
  rcases recvFrom_steps hlen h with ⟨-, rfl, -⟩ | ⟨-, rfl, -⟩ | ⟨-, c, hc, rfl, -⟩ |
    ⟨hlt, t', rfl, h'⟩ | ⟨hlt, t', c, hc, rfl, hle', h'⟩
  · exact absurd herror hasError_nil
  · exact absurd herror hasError_nil
  · exact absurd herror (by simp [got])
  · have haround : offsetAfter 0 ⟨.rrecv dest 0 (len - 0), none⟩ = 2 ^ 64 - 1 := by
      have hsize : rrecvSize (none : Option (Chunk (len - 0))) = 2 ^ 64 - 1 :=
        (by decide : toUnsigned 64 (-1) = 2 ^ 64 - 1)
      simp only [offsetAfter, hsize]
      norm_num
    have hinside := hdelivers.inside (2 ^ 64 - 1) (by
      rw [offsets_cons, haround]
      exact List.mem_cons_of_mem _ (mem_offsets t'))
    -- the only message that reaches so far is the longest one
    obtain rfl : len = 2 ^ 64 - 1 := by omega
    obtain ⟨fuel, rfl⟩ : ∃ n, fuel = n + 1 := ⟨fuel - 1, by omega⟩
    rcases recvFrom_steps hlen h' with ⟨-, rfl, rfl⟩ | ⟨hlt', -⟩ | ⟨hlt', -⟩ | ⟨hlt', -⟩ | ⟨hlt', -⟩
    · refine hdelivers.short _ _ _ rfl hlt (Or.inr herror) rfl
    all_goals omega
  · have hpos : 0 < c.bs.length := List.length_pos_iff.mpr hc
    have hnext : offsetAfter 0 ⟨.rrecv dest 0 (len - 0), some c⟩ = 0 + c.bs.length := by
      have hsize : rrecvSize (some c) = c.bs.length := rfl
      simp only [offsetAfter, hsize]
      exact Nat.mod_eq_of_lt (by omega)
    have hforward := hdelivers.forward
    rw [offsets_cons, hnext, List.pairwise_cons] at hforward
    refine recvFrom_goesBack hlen (by omega) hle' h' ?_ hforward.2
    rw [hasError_cons] at herror
    exact herror.resolve_left (by simp [got])

/-- What `_recv` does while no `rrecv` fails. -/
lemma recv_delivers (hlen : len < 2 ^ 64) (hle : len ≤ msg.length) (hfuel : len < fuel)
    (h : Steps ((recv fuel dest msg len).run g) t q) (herror : ¬ HasError t) :
    Delivers dest len t q := by
  have hfrom := recvFrom_delivers hlen (Nat.zero_le _) hle (by omega) h herror
  refine ⟨hfrom.forward, fun x hx => (hfrom.inside x hx).2, hfrom.goesOn, ?_, ?_⟩
  · intro n buf g' hq
    rw [hfrom.whole n buf g' hq, Nat.zero_add, List.take_zero, List.nil_append]
  · intro n buf g' hq _ hbad
    exact hfrom.short n buf g' hq (hbad.resolve_right herror)

/-- **`_recv` can be trusted exactly as long as no `rrecv` fails.**  Each piece moves the offset on
by its length; a failure behind the start moves it back by one, and a failure at the start takes it
past every message there is.

The offset is a `size_t`, and a failure adds `-1` to it.  Behind the start that is a step back.  At
the start it is the largest `size_t`, the loop is over, and the full length is returned for
nothing.  Where no call fails each step goes forward by at least one byte and not past the end, by
induction on the fuel with the bytes stored so far. -/
theorem recv_delivers_iff (hlen : len < 2 ^ 64) (hle : len ≤ msg.length) (hfuel : len < fuel)
    (h : Steps ((recv fuel dest msg len).run g) t q) :
    Delivers dest len t q ↔ ¬ HasError t :=
  ⟨fun hdelivers herror => recv_goesAround hlen hfuel h herror hdelivers,
    recv_delivers hlen hle hfuel h⟩

/-! ### Two bytes -/

/-- The reply of an `rrecv` that brings one byte. -/
def oneByte (b : UInt8) {len : ℕ} (h : 1 ≤ len) : Option (Chunk len) := some ⟨[b], h⟩

/-- Two bytes, one at a time. -/
theorem recv_delivers_twoBytes :
    Delivers .path 2 [⟨.rrecv .path 0 2, oneByte 7 (by decide)⟩,
      ⟨.rrecv .path 1 1, oneByte 8 (by decide)⟩] (.ret ((2, [7, 8]), {})) := by
  have hrun : Returns ((recv 3 .path [0, 0] 2).run {}) [⟨.rrecv .path 0 2, oneByte 7 (by decide)⟩,
      ⟨.rrecv .path 1 1, oneByte 8 (by decide)⟩] ((2, [7, 8]), {}) :=
    Steps.call (Steps.call (Steps.here _))
  exact (recv_delivers_iff (by decide) (by decide) (by decide) hrun).mpr (by simp [got, oneByte])

/-- **A failure at the start**: `_recv` returns the length of a message of which it has nothing. -/
theorem firstFails_notDelivers : ∃ t, Returns ((recv 3 .path [0, 0] 2).run {}) t ((2, [0, 0]), {}) ∧
    received .path t = [] ∧ ¬ Delivers .path 2 t (.ret ((2, [0, 0]), {})) := by
  have hrun : Returns ((recv 3 .path [0, 0] 2).run {}) [⟨.rrecv .path 0 2, none⟩]
      ((2, [0, 0]), {}) := Steps.call (Steps.here _)
  refine ⟨_, hrun, rfl, fun hdelivers => ?_⟩
  exact hdelivers.short 2 [0, 0] {} rfl (by decide) (Or.inr (by simp [got])) rfl

end Recv

end Rcopy
