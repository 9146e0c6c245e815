import RdmaExamples.Rcopy.Receive

/-!
# Streams

A byte stream hands out its bytes in order, in pieces of any size, and reports its end once it is
empty (`Feeds`).  On a stream `_recv` either gets its whole message, in order, or meets the end of a
stream that is too short for it (`recv_feeds`): how the stream was cut does not matter.

That the pieces do not matter is the reason why no later module speaks of them: a lemma about
`_recv` on a stream has the stream before and the stream behind, and the bytes between them.
`recv_exists` is for the other direction: where a run is to be shown that takes what a stream has.
-/

namespace Rcopy

open ByteStrings Programs

/-- An event takes its bytes from a stream; nothing is lost, and nothing fails. -/
def Takes (s : List UInt8) (e : Event Call Reply) (s' : List UInt8) : Prop :=
  match got e with
  | .nothing => s' = s
  | .error => False
  | .data bs => s = bs ++ s' ∧ (bs = [] → s = [])

/-- The events of a trace take their bytes from a stream, and leave `s'` of it. -/
def Feeds : List UInt8 → Trace → List UInt8 → Prop
  | s, [], s' => s' = s
  | s, e :: t, s'' => ∃ s', Takes s e s' ∧ Feeds s' t s''

/-- What an event takes from its stream. -/
def takenOf (e : Event Call Reply) : List UInt8 :=
  match got e with
  | .data bs => bs
  | _ => []

/-- The bytes that a trace takes. -/
def taken (t : Trace) : List UInt8 := t.flatMap takenOf

/-- What a call sends. -/
def sentOf : Event Call Reply → List UInt8
  | ⟨.rsend bs, _⟩ => bs
  | _ => []

/-- The bytes that a trace sends, all of them taken. -/
def sentBytes (t : Trace) : List UInt8 := t.flatMap sentOf

section

variable {s s' s'' : List UInt8} {e : Event Call Reply} {t t' : Trace} {dest : Dest}
  {len fuel offset n : ℕ} {msg buf : List UInt8} {g g' : Globals}

@[simp] lemma feeds_nil : Feeds s [] s' ↔ s' = s := Iff.rfl

@[simp] lemma feeds_cons : Feeds s (e :: t) s'' ↔ ∃ s', Takes s e s' ∧ Feeds s' t s'' := Iff.rfl

/-- An event that is not a receive. -/
lemma feeds_cons_nothing (h : got e = .nothing) : Feeds s (e :: t) s' ↔ Feeds s t s' := by
  simp [Takes, h]

/-- Events none of which is a receive. -/
lemma feeds_of_nothing (h : ∀ e ∈ t, got e = .nothing) : Feeds s t s' ↔ s' = s := by
  induction t with
  | nil => rfl
  | cons e t ih =>
      rw [feeds_cons_nothing (h e List.mem_cons_self)]
      exact ih fun e' he => h e' (List.mem_cons_of_mem _ he)

lemma feeds_append : Feeds s (t ++ t') s'' ↔ ∃ s', Feeds s t s' ∧ Feeds s' t' s'' := by
  induction t generalizing s with
  | nil => simp
  | cons e t ih =>
      simp only [List.cons_append, feeds_cons, ih]
      constructor
      · rintro ⟨s₁, h₁, s₂, h₂, h₃⟩
        exact ⟨s₂, ⟨s₁, h₁, h₂⟩, h₃⟩
      · rintro ⟨s₂, ⟨s₁, h₁, h₂⟩, h₃⟩
        exact ⟨s₁, h₁, s₂, h₂, h₃⟩

@[simp] lemma sentBytes_nil : sentBytes [] = [] := rfl

@[simp] lemma sentBytes_cons : sentBytes (e :: t) = sentOf e ++ sentBytes t := rfl

@[simp] lemma sentBytes_append : sentBytes (t ++ t') = sentBytes t ++ sentBytes t' :=
  List.flatMap_append ..

@[simp] lemma taken_nil : taken [] = [] := rfl

@[simp] lemma taken_cons : taken (e :: t) = takenOf e ++ taken t := rfl

@[simp] lemma taken_append : taken (t ++ t') = taken t ++ taken t' := List.flatMap_append ..

lemma OnlyInto.taken_eq (h : OnlyInto dest t) : taken t = received dest t := by
  induction t with
  | nil => rfl
  | cons e t ih =>
      obtain ⟨c, r⟩ := e
      obtain ⟨offset, n, rfl⟩ := h _ List.mem_cons_self
      rw [taken_cons, received_cons, ih fun e' he => h e' (List.mem_cons_of_mem _ he)]
      cases r <;> simp [takenOf, got, receivedOf]

lemma OnlyInto.sentBytes_eq (h : OnlyInto dest t) : sentBytes t = [] := by
  rw [sentBytes, List.flatMap_eq_nil_iff]
  rintro ⟨c, r⟩ he
  obtain ⟨offset, n, rfl⟩ := h _ he
  rfl

/-- What was taken was at the head of the stream. -/
lemma Feeds.taken_append : ∀ {t : Trace} {s s' : List UInt8}, Feeds s t s' → s = taken t ++ s'
  | [], _, _, h => h.symm
  | e :: t, s, s'', ⟨s', htakes, h⟩ => by
      rw [taken_cons, List.append_assoc, ← h.taken_append, takenOf]
      rw [Takes] at htakes
      split at htakes
      · rename_i hgot
        rw [hgot, htakes, List.nil_append]
      · exact htakes.elim
      · rename_i bs hgot
        rw [hgot]
        exact htakes.1

/-- Nothing on a stream fails. -/
lemma Feeds.not_hasError : ∀ {t : Trace} {s s' : List UInt8}, Feeds s t s' → ¬ HasError t
  | [], _, _, _ => hasError_nil
  | e :: t, s, s'', ⟨s', htakes, h⟩ => by
      rw [hasError_cons]
      rintro (herr | herr)
      · rw [Takes, herr] at htakes
        exact htakes
      · exact h.not_hasError herr

/-- More is written to a stream whose end was not reported. -/
lemma Feeds.extend (bs : List UInt8) : ∀ {t : Trace} {s s' : List UInt8},
    Feeds s t s' → ¬ HasEof t → Feeds (s ++ bs) t (s' ++ bs)
  | [], _, _, h, _ => by rw [feeds_nil.mp h]; rfl
  | e :: t, s, s'', ⟨s', htakes, h⟩, heof => by
      rw [hasEof_cons, not_or] at heof
      refine ⟨s' ++ bs, ?_, h.extend bs heof.2⟩
      rw [Takes] at htakes ⊢
      split at htakes
      · rw [htakes]
      · exact htakes
      · rename_i bs' hgot
        refine ⟨by rw [htakes.1, List.append_assoc], fun hnil => absurd ?_ heof.1⟩
        rw [hgot, hnil]

/-- **`_recv` on a stream.**  By induction on the fuel: a piece of any length takes that much off
the stream, and what is left of the message is less. -/
theorem recvFrom_feeds (hlen : len < 2 ^ 64) :
    ∀ {fuel offset : ℕ} {msg : List UInt8} {t : Trace} {s : List UInt8}, offset ≤ len →
    Returns ((recvFrom dest len fuel offset msg).run g) t ((n, buf), g') → Feeds s t s' →
    (len - offset ≤ s.length ∧ n = len ∧ received dest t = s.take (len - offset) ∧
      s' = s.drop (len - offset) ∧ ¬ HasEof t) ∨
    (s.length < len - offset ∧ n = 0 ∧ s' = [] ∧ HasEof t)
  | 0, _, _, _, _, _, h => absurd h returns_run_halt
  | fuel + 1, offset, msg, t, s, hoff, h => by
      intro hfeeds
      rcases recvFrom_cases hlen h with ⟨hge, rfl, rfl, -⟩ | ⟨hlt, c, hc, rfl, rfl, -⟩ |
        ⟨-, t', rfl, -⟩ | ⟨hlt, t', c, hc, rfl, hle, h'⟩
      · left
        obtain rfl : offset = n := le_antisymm hoff hge
        rw [feeds_nil.mp hfeeds]
        simp
      · right
        obtain ⟨s₁, ⟨hs, hnil⟩, hs'⟩ := feeds_cons.mp hfeeds
        obtain rfl := hnil hc
        rw [hc, List.nil_append] at hs
        rw [feeds_nil.mp hs', ← hs]
        exact ⟨by simp; omega, rfl, rfl, by simp [got, hc]⟩
      · obtain ⟨s₁, htakes, -⟩ := feeds_cons.mp hfeeds
        exact htakes.elim
      · obtain ⟨s₁, ⟨rfl, -⟩, hs'⟩ := feeds_cons.mp hfeeds
        have htake : (c.bs ++ s₁).take (len - offset)
            = c.bs ++ s₁.take (len - (offset + c.bs.length)) := by
          rw [List.take_append, List.take_of_length_le c.length_le, Nat.sub_sub]
        have hdrop : (c.bs ++ s₁).drop (len - offset)
            = s₁.drop (len - (offset + c.bs.length)) := by
          rw [List.drop_append, List.drop_of_length_le c.length_le, Nat.sub_sub, List.nil_append]
        rcases recvFrom_feeds hlen hle h' hs' with ⟨hlong, rfl, hrecv, rfl, heof⟩ |
          ⟨hshort, rfl, rfl, heof⟩
        · left
          refine ⟨by rw [List.length_append]; omega, rfl, ?_, hdrop.symm, by simp [got, hc, heof]⟩
          rw [received_cons, receivedOf, if_pos rfl, hrecv, htake]
        · right
          exact ⟨by rw [List.length_append]; omega, rfl, rfl, by simp [heof]⟩

theorem recv_feeds (hlen : len < 2 ^ 64)
    (h : Returns ((recv fuel dest msg len).run g) t ((n, buf), g')) (hfeeds : Feeds s t s') :
    (len ≤ s.length ∧ n = len ∧ received dest t = s.take len ∧ s' = s.drop len ∧ ¬ HasEof t) ∨
    (s.length < len ∧ n = 0 ∧ s' = [] ∧ HasEof t) :=
  recvFrom_feeds hlen (Nat.zero_le _) h hfeeds

/-- A message that is all there is received. -/
lemma recv_message {message rest : List UInt8} (hlen : len < 2 ^ 64)
    (hmessage : message.length = len)
    (h : Returns ((recv fuel dest msg len).run g) t ((n, buf), g'))
    (hfeeds : Feeds (message ++ rest) t s') :
    n = len ∧ received dest t = message ∧ s' = rest ∧ ¬ HasEof t := by
  rcases recv_feeds hlen h hfeeds with ⟨-, hn, hrecv, hs', heof⟩ | ⟨hshort, -⟩
  · exact ⟨hn, by rw [hrecv, List.take_left' hmessage], by rw [hs', List.drop_left' hmessage], heof⟩
  · rw [List.length_append] at hshort
    omega

/-- A header that is accepted is the next one in the stream. -/
lemma msgRecvHdr_feeds {hdr hdr' : MsgHdr}
    (h : Returns ((msgRecvHdr fuel hdr).run g) t ((sizeofHdr, hdr'), g')) (hfeeds : Feeds s t s') :
    sizeofHdr ≤ s.length ∧ hdr' = MsgHdr.decode (s.take sizeofHdr) ∧ hdr'.version = 0 ∧
      sizeofHdr ≤ hdr'.len.toNat ∧ s' = s.drop sizeofHdr := by
  obtain ⟨-, hhdr, -⟩ := msgRecvHdr_received h hfeeds.not_hasError
  obtain ⟨-, n, buf, hrecv, -, ⟨hret, -⟩ | ⟨-, rfl, hversion, hlen⟩⟩ := msgRecvHdr_cases h
  · exact absurd hret (by decide)
  · rcases recv_feeds (by decide) hrecv hfeeds with ⟨hlong, -, hgot, rfl, -⟩ | ⟨-, hzero, -⟩
    · rw [hgot] at hhdr
      exact ⟨hlong, hhdr, hversion, hlen, rfl⟩
    · exact absurd hzero (by decide)

/-- The end of the stream, somewhere in the message. -/
lemma recvFrom_end (fuel offset : ℕ) (buf : List UInt8) (g : Globals) (hoff : offset < len) :
    Returns ((recvFrom dest len (fuel + 1) offset buf).run g)
      [⟨.rrecv dest offset (len - offset), some ⟨[], Nat.zero_le _⟩⟩] ((0, buf), g) := by
  rw [recvFrom, if_pos hoff, returns_run_perform_bind]
  refine ⟨some ⟨[], Nat.zero_le _⟩, [], rfl, ?_⟩
  dsimp only
  rw [if_pos (by exact le_rfl), returns_run_pure]
  exact ⟨rfl, by simp [rrecvSize, rrecvStore], rfl⟩

/-- A message that is cut off after its first bytes. -/
lemma recv_cut (fuel : ℕ) (msg s : List UInt8) (g : Globals) (hpos : 0 < s.length)
    (hshort : s.length < len) (hlen : len < 2 ^ 64) :
    Returns ((recv (fuel + 2) dest msg len).run g)
      [⟨.rrecv dest 0 len, some ⟨s, hshort.le⟩⟩,
        ⟨.rrecv dest s.length (len - s.length), some ⟨[], Nat.zero_le _⟩⟩]
      ((0, store msg 0 s), g) := by
  rw [recv, recvFrom, if_pos (by omega), returns_run_perform_bind]
  refine ⟨some ⟨s, hshort.le⟩, _, rfl, ?_⟩
  have hsize : rrecvSize (some (⟨s, hshort.le⟩ : Chunk len)) = s.length := rfl
  dsimp only [Nat.sub_zero]
  rw [hsize, if_neg (by omega), Nat.zero_add, Nat.mod_eq_of_lt (by omega)]
  exact recvFrom_end fuel s.length _ g hshort

/-- **On every stream there is a run of `_recv`**: it takes the message, or what there is of it. -/
theorem recv_exists (fuel : ℕ) (dest : Dest) (msg s : List UInt8) (g : Globals)
    (hlen : len < 2 ^ 64) : ∃ t n buf,
      Returns ((recv (fuel + 3) dest msg len).run g) t ((n, buf), g) ∧ Feeds s t (s.drop len) ∧
      (n = len ∨ (s.length < len ∧ n = 0)) := by
  rcases Nat.eq_zero_or_pos len with rfl | hpos
  · refine ⟨[], 0, msg, ?_, by simp, Or.inl rfl⟩
    rw [recv, recvFrom, if_neg (lt_irrefl _), returns_run_pure]
    exact ⟨rfl, rfl, rfl⟩
  · rcases Nat.lt_or_ge s.length len with hshort | hlong
    · rw [List.drop_of_length_le hshort.le]
      rcases Nat.eq_zero_or_pos s.length with hnil | hs
      · obtain rfl := List.length_eq_zero_iff.mp hnil
        refine ⟨_, 0, msg, recvFrom_end (fuel + 2) 0 msg g hpos, ?_, Or.inr ⟨hshort, rfl⟩⟩
        exact ⟨[], ⟨rfl, fun _ => rfl⟩, rfl⟩
      · refine ⟨_, 0, _, recv_cut (fuel + 1) msg s g hs hshort hlen, ?_, Or.inr ⟨hshort, rfl⟩⟩
        exact ⟨[], ⟨(List.append_nil s).symm, fun hnil => hnil⟩, [], ⟨rfl, fun _ => rfl⟩, rfl⟩
    · have htake : (s.take len).length = len := List.length_take_of_le hlong
      refine ⟨_, len, _, recv_whole htake hpos hlen, ?_, Or.inl rfl⟩
      refine ⟨s.drop len, ⟨(List.take_append_drop len s).symm, fun hnil => ?_⟩, rfl⟩
      have hzero : (s.take len).length = 0 := List.length_eq_zero_iff.mpr hnil
      omega

end

end Rcopy
