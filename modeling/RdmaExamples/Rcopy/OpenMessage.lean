import RdmaExamples.Rcopy.ClientTruthful
import RdmaExamples.Rcopy.Copy
import RdmaExamples.Rcopy.Delivered
import RdmaExamples.Rcopy.Grammar

/-!
# The OPEN and its path

The client rounds the length of the path up to a multiple of eight, puts the length of the message
into the 16 bits of `hdr.len`, and sends as many bytes as that says.  The server should accept the
header, receive the path with its terminator and open the file of that name with the mode of the
source (`OpenRoundTrips`).  It does for the paths whose message fits into 16 bits
(`open_roundTrips_iff`): for a longer one `hdr.len` comes out smaller, and the server gets half a
header, or a path without an end.

* `OpenArrives` — what is expected of the bytes that were sent, whatever follows them and however
  they arrive.
* `OpenRoundTrips` — that it holds of all that `client_open` sends, with the mode of the source.
* `openArrives_short`, `not_openArrives_long` — the two halves, by what the server can do with
  these bytes.

That the path has no zero byte inside is no restriction: it is a C string on the client's side.
-/

namespace Rcopy

open ByteStrings MachineWords Programs

/-! ## What is expected -/

/-- A call of `open`. -/
def openCall : Event Call Reply → Option (List UInt8 × OpenFlags × UInt32)
  | ⟨.openFile path flags mode, _⟩ => some (path, flags, mode)
  | _ => none

/-- The calls of `open` in a run. -/
def openCalls (t : Trace) : List (List UInt8 × OpenFlags × UInt32) := t.filterMap openCall

/-- Memory was found. -/
def MallocOk : Event Call Reply → Prop
  | ⟨.malloc _, heap⟩ => heap.isSome
  | _ => True

/-- What is expected of the bytes `bs` that were sent for an OPEN, whatever follows them on the
stream and however the stream is cut: they are as many as the header says, `msg_recv_hdr` accepts
the header, and `server_open`, where no file is open, receives the path with its terminator and
opens it. -/
structure OpenArrives (dstFile : List UInt8) (mode : UInt32) (bs : List UInt8) : Prop where
  announced : bs.length = (openHdr dstFile mode).len.toNat
  accepted : ∀ fuel msg g t q more s', Steps ((msgRecvHdr fuel msg).run g) t q →
    Feeds (bs ++ more) t s' → (sizeofHdr < fuel → q ≠ .halt) ∧
      ∀ r, q = .ret r → r = (((sizeofHdr : Int), openHdr dstFile mode), g) ∧
        s' = bs.drop sizeofHdr ++ more
  opened : ∀ fuel g t q more s', g.fileAddr = 0 → g.fd ≤ 0 →
    Steps ((serverOpen fuel (openHdr dstFile mode)).run g) t q →
    Feeds (bs.drop sizeofHdr ++ more) t s' → (∀ e ∈ t, MallocOk e) →
    (2 ^ 16 ≤ fuel → q ≠ .halt) ∧ ∀ r, q = .ret r → dstFile ++ [0] <+: received .path t ∧
      openCalls t = [(dstFile, .rdwrCreatTrunc, mode)] ∧ s' = more

/-- Whatever `client_open` sends arrives, with the mode of the source. -/
def OpenRoundTrips (dstFile : List UInt8) : Prop :=
  ∀ fuel srcFile g t bs (sent : Reply (.rsend bs)),
    CanDo ((clientOpen fuel srcFile dstFile).run g) t → ⟨.rsend bs, sent⟩ ∈ t →
    ∃ fd stats, (⟨.fstat fd, .ok stats⟩ : Event Call Reply) ∈ t ∧
      OpenArrives dstFile stats.mode bs

section

variable {srcFile dstFile bs s s' more : List UInt8} {mode : UInt32} {fuel : ℕ} {t : Trace}
  {g g' : Globals} {msg hdr : MsgHdr} {cmd : UInt8}

/-! ## The client -/

/-- The call sends no other bytes. -/
def SendsOnly (bs : List UInt8) (c : Call) : Prop := ∀ bs', c = .rsend bs' → bs' = bs

lemma msgGetResp_noSend : Keeps (fun _ => ()) NoSend (msgGetResp fuel msg cmd) := by
  refine Keeps.bind (Keeps.bind (keeps_recv (by simp [NoSend])) fun _ => ?_) fun _ => ?_
  · exact Keeps.ite (Keeps.pure _) (Keeps.ite (Keeps.pure _) (Keeps.pure _))
  · exact Keeps.ite (Keeps.pure _) (Keeps.ite (Keeps.pure _) (Keeps.pure _))

lemma clientOpenSend_sends :
    Keeps (fun _ => ()) (SendsOnly (openBytesOf dstFile mode))
      (clientOpenSend fuel dstFile mode) := by
  refine Keeps.bind (Keeps.perform (by simp [SendsOnly])) fun block => Keeps.ite ?_ (Keeps.pure _)
  refine Keeps.bind (Keeps.perform (by simp [SendsOnly, openBytesOf])) fun sent =>
    Keeps.ite (Keeps.pure _) ?_
  refine Keeps.bind (msgGetResp_noSend.weaken ?_ (f := fun _ => ())) fun ret =>
    Keeps.ite (Keeps.pure _) (Keeps.pure _)
  exact fun c hc bs' hbs => absurd hbs (hc bs')

/-- **What `client_open` sends** is its OPEN, with the mode that `fstat` found. -/
lemma clientOpen_sends {sent : Reply (.rsend bs)}
    (h : CanDo ((clientOpen fuel srcFile dstFile).run g) t) (hmem : ⟨.rsend bs, sent⟩ ∈ t) :
    ∃ fd stats, (⟨.fstat fd, .ok stats⟩ : Event Call Reply) ∈ t ∧
      bs = openBytesOf dstFile stats.mode := by
  rw [clientOpen] at h
  rcases canDo_run_perform_bind.mp h with rfl | ⟨opened, t₁, rfl, h₁⟩
  · simp at hmem
  · cases opened with
    | error e =>
        dsimp only at h₁
        rw [run_modify_bind, canDo_run_pure] at h₁
        simp [h₁] at hmem
    | ok fd =>
        dsimp only at h₁
        rw [run_modify_bind] at h₁
        rcases canDo_run_perform_bind.mp h₁ with rfl | ⟨stats, t₂, rfl, h₂⟩
        · simp at hmem
        · cases stats with
          | error e =>
              rcases canDo_run_perform_bind.mp h₂ with rfl | ⟨u, t₃, rfl, h₃⟩
              · simp at hmem
              · rw [canDo_run_pure] at h₃
                simp [h₃] at hmem
          | ok stats =>
              refine ⟨fd, stats, by simp, ?_⟩
              dsimp only at h₂
              rw [run_modify_bind] at h₂
              rcases canDo_run_perform_bind.mp h₂ with rfl | ⟨mapped, t₃, rfl, h₃⟩
              · simp at hmem
              · cases mapped with
                | error e =>
                    dsimp only at h₃
                    rw [run_modify_bind] at h₃
                    rcases canDo_run_perform_bind.mp h₃ with rfl | ⟨u, t₄, rfl, h₄⟩
                    · simp at hmem
                    · rw [canDo_run_pure] at h₄
                      simp [h₄] at hmem
                | ok mapping =>
                    dsimp only at h₃
                    rw [run_modify_bind] at h₃
                    refine (?_ : Keeps (fun _ => ()) (SendsOnly (openBytesOf dstFile stats.mode))
                      _).calls _ _ h₃ ⟨.rsend bs, sent⟩ (by simpa using hmem) bs rfl
                    refine Keeps.bind clientOpenSend_sends fun res => ?_
                    cases res with
                    | some ret =>
                        exact Keeps.bind (Keeps.perform (by simp [SendsOnly])) fun _ =>
                          Keeps.bind (Keeps.perform (by simp [SendsOnly])) fun _ => Keeps.pure _
                    | none => exact Keeps.pure _

/-! ## The server -/

/-- The bytes of an OPEN whose message fits: the header, and the path with its terminator in a
block of zeros. -/
lemma openBytesOf_short (mode : UInt32) (h : dstFile.length ≤ 65511) : ∃ n,
    openBytesOf dstFile mode = (openHdr dstFile mode).encode ++
      (dstFile ++ [0] ++ List.replicate n 0) ∧
    (dstFile ++ [0] ++ List.replicate n (0 : UInt8)).length = pathSize (openHdr dstFile mode) := by
  have hall : openBytesOf dstFile mode = openMsg dstFile mode :=
    (List.take_prefix _ _).eq_of_length ((openBytesOf_eq_iff dstFile mode).mpr h)
  have hmsg : openMsg dstFile mode = (openHdr dstFile mode).encode ++ (dstFile ++ [0] ++
      List.replicate (pathLen dstFile - (dstFile.length + 1)) 0) := by
    rw [openMsg, store, List.take_zero, List.nil_append, List.drop_replicate, Nat.zero_add,
      List.length_append, List.length_singleton]
  refine ⟨_, hall.trans hmsg, ?_⟩
  have hlen := length_openBytesOf dstFile mode
  rw [hall, hmsg, List.length_append, MsgHdr.length_encode] at hlen
  rw [pathSize]
  omega

/-- No `rrecv` fails. -/
lemma recv_neverHalts {dest : Dest} {len : ℕ} {buf : List UInt8} (hlen : len < 2 ^ 64)
    (hle : len ≤ buf.length) (hfuel : len < fuel) :
    NeverHalts (fun e => got e ≠ .error) (recv fuel dest buf len) := by
  intro g t q h hQ
  refine (recv_delivers hlen hle hfuel h ?_).goesOn
  rintro ⟨e, he, herror⟩
  exact hQ e he herror

lemma msgRecvHdr_neverHalts (hfuel : sizeofHdr < fuel) :
    NeverHalts (fun e => got e ≠ .error) (msgRecvHdr fuel msg) := by
  refine NeverHalts.bind (recv_neverHalts (by decide) (by simp) hfuel) fun r => ?_
  exact NeverHalts.ite NeverHalts.pure (NeverHalts.ite NeverHalts.pure NeverHalts.pure)

lemma serverOpen_neverHalts (hfuel : 2 ^ 16 ≤ fuel) :
    NeverHalts (fun e => got e ≠ .error) (serverOpen fuel hdr) := by
  have hpath : pathSize hdr < fuel := by
    have hlt := hdr.len.toNat_lt
    rw [pathSize]
    omega
  refine NeverHalts.bind ?_ fun ret => NeverHalts.bind
    (NeverHalts.bind NeverHalts.perform fun _ => NeverHalts.pure) fun _ => NeverHalts.pure
  refine NeverHalts.get_bind fun g => NeverHalts.ite NeverHalts.pure ?_
  refine NeverHalts.bind NeverHalts.perform fun heap => ?_
  cases heap with
  | none => exact NeverHalts.pure
  | some heap =>
      refine NeverHalts.bind (recv_neverHalts (pathSize_lt hdr) heap.le_length hpath) fun r =>
        NeverHalts.ite NeverHalts.pure (NeverHalts.bind NeverHalts.perform fun opened => ?_)
      cases opened with
      | error e => exact NeverHalts.modify_bind fun _ => NeverHalts.pure
      | ok fd => exact NeverHalts.modify_bind fun _ => NeverHalts.pure

lemma Feeds.got_ne_error (h : Feeds s t s') : ∀ e ∈ t, got e ≠ .error :=
  fun e he herror => h.not_hasError ⟨e, he, herror⟩

/-- A header at the head of a stream is accepted. -/
lemma msgRecvHdr_accepts {r : (Int × MsgHdr) × Globals} (hversion : hdr.version = 0)
    (hlen : sizeofHdr ≤ hdr.len.toNat) (h : Returns ((msgRecvHdr fuel msg).run g) t r)
    (hfeeds : Feeds (hdr.encode ++ more) t s') : r = (((sizeofHdr : Int), hdr), g) ∧ s' = more := by
  obtain ⟨⟨ret, hdr'⟩, g'⟩ := r
  obtain ⟨rfl, n, buf, hrecv, rfl, hret⟩ := msgRecvHdr_cases h
  obtain ⟨rfl, hgot, rfl, heof⟩ := recv_message (by decide) (MsgHdr.length_encode hdr) hrecv hfeeds
  have hbuf := recv_buf_eq (by decide) (by simp) hrecv heof hfeeds.not_hasError
  rw [hgot] at hbuf
  subst hbuf
  rw [MsgHdr.decode_encode] at hret ⊢
  rcases hret with ⟨-, hbad | hbad | hbad⟩ | ⟨rfl, -⟩
  · exact absurd rfl hbad
  · exact absurd hversion hbad
  · exact absurd hlen (not_le.mpr hbad)
  · exact ⟨rfl, rfl⟩

lemma cString_append (h : (0 : UInt8) ∉ dstFile) (tail : List UInt8) :
    cString (dstFile ++ [0] ++ tail) = dstFile := by
  rw [cString, List.append_assoc, List.takeWhile_append_of_pos]
  · simp
  · intro b hb
    have hne : b ≠ 0 := fun hzero => h (hzero ▸ hb)
    simpa using hne

lemma OnlyInto.openCalls_eq {dest : Dest} (h : OnlyInto dest t) : openCalls t = [] := by
  rw [openCalls, List.filterMap_eq_nil_iff]
  rintro ⟨c, r⟩ he
  obtain ⟨offset, n, rfl⟩ := h _ he
  rfl

lemma openCalls_cons (e : Event Call Reply) (t : Trace) :
    openCalls (e :: t) = (openCall e).toList ++ openCalls t := by
  rw [openCalls, List.filterMap_cons]
  cases openCall e <;> rfl

lemma openCalls_append (t t' : Trace) : openCalls (t ++ t') = openCalls t ++ openCalls t' :=
  List.filterMap_append

/-- **A path with its terminator is opened.** -/
lemma serverOpen_opens {r : Int × Globals} {tail : List UInt8} (hnul : (0 : UInt8) ∉ dstFile)
    (hpath : (dstFile ++ [0] ++ tail).length = pathSize hdr) (haddr : g.fileAddr = 0)
    (hfd : g.fd ≤ 0) (h : Returns ((serverOpen fuel hdr).run g) t r)
    (hfeeds : Feeds (dstFile ++ [0] ++ tail ++ more) t s') (hmalloc : ∀ e ∈ t, MallocOk e) :
    dstFile ++ [0] <+: received .path t ∧
      openCalls t = [(dstFile, .rdwrCreatTrunc, hdr.data)] ∧ s' = more := by
  obtain ⟨ret, g'⟩ := r
  obtain ⟨t', sent, rfl, h'⟩ := returns_respond h
  obtain ⟨s₁, hs₁, hs₂⟩ := feeds_append.mp hfeeds
  rw [feeds_cons_nothing rfl, feeds_nil] at hs₂
  subst hs₂
  -- however `open` ends, the path was received before it
  have hopens : ∀ heap : Heap (pathSize hdr), ∀ (t₁ : Trace) mem opened,
      Returns ((recv fuel .path heap.mem (pathSize hdr)).run g) t₁ ((pathSize hdr, mem), g) →
      Feeds (dstFile ++ [0] ++ tail ++ more) (⟨.malloc (pathSize hdr), some heap⟩ :: (t₁ ++
        [⟨.openFile (cString mem) .rdwrCreatTrunc hdr.data, opened⟩])) s' →
      dstFile ++ [0] <+: received .path t₁ ∧ cString mem = dstFile ∧ s' = more := by
    intro heap t₁ mem opened hrecv hfeeds
    rw [feeds_cons_nothing rfl] at hfeeds
    obtain ⟨s₂, hs₂, hs₃⟩ := feeds_append.mp hfeeds
    rw [feeds_cons_nothing rfl, feeds_nil] at hs₃
    subst hs₃
    obtain ⟨-, hgot, hrest, heof⟩ := recv_message (pathSize_lt hdr) hpath hrecv hs₂
    have hbuf := recv_buf (pathSize_lt hdr) heap.le_length hrecv heof hs₂.not_hasError
    refine ⟨hgot ▸ List.prefix_append _ _, ?_, hrest⟩
    rw [← List.take_append_drop (pathSize hdr) mem, hbuf, hgot, List.append_assoc (dstFile ++ [0])]
    exact cString_append hnul _
  cases serverOpenFile_run h' with
  | busy hbusy => omega
  | noMemory _ =>
      exact absurd (hmalloc ⟨.malloc (pathSize hdr), none⟩ (by simp)) (by simp [MallocOk])
  | noPath _ heap t₁ n mem hrecv hn =>
      rw [feeds_cons_nothing rfl] at hs₁
      exact absurd (recv_message (pathSize_lt hdr) hpath hrecv hs₁).1 hn
  | notOpened _ heap t₁ mem e hrecv =>
      obtain ⟨hfront, hname, hrest⟩ := hopens heap t₁ mem _ hrecv hs₁
      have hcalls := (recv_onlyInto hrecv.canDo).openCalls_eq
      refine ⟨?_, ?_, hrest⟩
      · simpa [receivedOf] using hfront
      · rw [openCalls_append, openCalls_cons, openCalls_append, hcalls, hname]
        rfl
  | opened _ heap t₁ mem fd hrecv =>
      obtain ⟨hfront, hname, hrest⟩ := hopens heap t₁ mem _ hrecv hs₁
      have hcalls := (recv_onlyInto hrecv.canDo).openCalls_eq
      refine ⟨?_, ?_, hrest⟩
      · simpa [receivedOf] using hfront
      · rw [openCalls_append, openCalls_cons, openCalls_append, hcalls, hname]
        rfl

/-- **A path that fits arrives.**  The length is right, and the path ends at its first zero byte,
which is the one that the client put there. -/
theorem openArrives_short (mode : UInt32) (hnul : (0 : UInt8) ∉ dstFile)
    (hlen : dstFile.length ≤ 65511) : OpenArrives dstFile mode (openBytesOf dstFile mode) := by
  obtain ⟨n, hbytes, hpath⟩ := openBytesOf_short mode hlen
  have hhdr : sizeofHdr ≤ (openHdr dstFile mode).len.toNat := by
    rw [List.length_append, List.length_append, List.length_singleton, pathSize] at hpath
    omega
  have hdrop : (openBytesOf dstFile mode).drop sizeofHdr
      = dstFile ++ [0] ++ List.replicate n 0 := by
    rw [hbytes, List.drop_left' (MsgHdr.length_encode _)]
  constructor
  · exact length_openBytesOf dstFile mode
  · intro fuel msg g t q more s' h hfeeds
    refine ⟨fun hfuel => msgRecvHdr_neverHalts hfuel g t q h hfeeds.got_ne_error, ?_⟩
    rintro r rfl
    rw [hdrop]
    rw [hbytes, List.append_assoc] at hfeeds
    exact msgRecvHdr_accepts rfl hhdr h hfeeds
  · intro fuel g t q more s' haddr hfd h hfeeds hmalloc
    refine ⟨fun hfuel => serverOpen_neverHalts hfuel g t q h hfeeds.got_ne_error, ?_⟩
    rintro r rfl
    rw [hdrop] at hfeeds
    exact serverOpen_opens hnul hpath haddr hfd h hfeeds hmalloc

/-! ## A path that does not fit

The length that the header says is the true one modulo `2 ^ 16`.  If it is below the size of a
header, the server cannot accept it; else the path that it receives has no end. -/

/-- On every stream there is a run of `msg_recv_hdr`. -/
lemma msgRecvHdr_exists (msg : MsgHdr) (s : List UInt8) (g : Globals) : ∃ t r,
    Returns ((msgRecvHdr 3 msg).run g) t (r, g) ∧ Feeds s t (s.drop sizeofHdr) := by
  have hsize : sizeofHdr < 2 ^ 64 := by decide
  obtain ⟨t, n, buf, hrecv, hfeeds, -⟩ := recv_exists 0 .header msg.encode s g hsize
  suffices hrest : ∃ r, Returns ((if n ≠ sizeofHdr then return (-1, MsgHdr.decode buf)
      else if (MsgHdr.decode buf).version ≠ 0 ∨ (MsgHdr.decode buf).len.toNat < sizeofHdr then
        return (-1, MsgHdr.decode buf)
      else return (sizeofHdr, MsgHdr.decode buf) : Rcp (Int × MsgHdr)).run g) [] (r, g) by
    obtain ⟨r, hr⟩ := hrest
    exact ⟨t, r, returns_run_bind.mpr ⟨t, [], _, g, (List.append_nil t).symm, hrecv, hr⟩, hfeeds⟩
  split
  · exact ⟨_, returns_run_pure.mpr ⟨rfl, rfl, rfl⟩⟩
  · split
    · exact ⟨_, returns_run_pure.mpr ⟨rfl, rfl, rfl⟩⟩
    · exact ⟨_, returns_run_pure.mpr ⟨rfl, rfl, rfl⟩⟩

/-- A `server_open` that succeeds found memory. -/
lemma serverOpen_mallocOk {ret : Int} (h : Returns ((serverOpen fuel hdr).run g) t (ret, g'))
    (hret : ret = 0) : ∀ e ∈ t, MallocOk e := by
  obtain ⟨t', sent, rfl, h'⟩ := returns_respond h
  have hquiet : ∀ {t₁ : Trace}, OnlyInto .path t₁ → ∀ e ∈ t₁, MallocOk e := by
    rintro t₁ honly ⟨c, r⟩ he
    obtain ⟨offset, n, rfl⟩ := honly _ he
    trivial
  intro e he
  cases serverOpenFile_run h' with
  | busy _ => exact absurd hret (by decide)
  | noMemory _ => exact absurd hret (by decide)
  | noPath _ heap t₁ n mem hrecv _ =>
      simp only [List.cons_append, List.mem_cons, List.mem_append, List.not_mem_nil, or_false] at he
      rcases he with rfl | he | rfl
      · rfl
      · exact hquiet (recv_onlyInto hrecv.canDo) e he
      · trivial
  | notOpened _ heap t₁ mem e' hrecv => exact absurd hret e'.pos.ne'
  | opened _ heap t₁ mem fd hrecv =>
      simp only [List.cons_append, List.append_assoc, List.mem_cons, List.mem_append,
        List.not_mem_nil, or_false, false_or] at he
      rcases he with rfl | he | rfl | rfl
      · rfl
      · exact hquiet (recv_onlyInto hrecv.canDo) e he
      · trivial
      · trivial

/-- What went into one buffer was taken from the stream. -/
lemma length_received_le {dest : Dest} : (received dest t).length ≤ (taken t).length := by
  induction t with
  | nil => exact le_rfl
  | cons e t ih =>
      rw [received_cons, taken_cons, List.length_append, List.length_append]
      refine Nat.add_le_add ?_ ih
      obtain ⟨c, r⟩ := e
      cases c with
      | rrecv dest' offset len =>
          cases r with
          | none => exact le_rfl
          | some chunk =>
              show (if dest' = dest then chunk.bs else []).length ≤ chunk.bs.length
              split
              · exact le_rfl
              · exact Nat.zero_le _
      | _ => exact le_rfl

/-- **A path that does not fit does not arrive**, whatever the mode.  `hdr.len` has lost `2 ^ 16`
or more, so that fewer bytes are sent than the header and the path have. -/
theorem not_openArrives_long (mode mode' : UInt32) (hlen : 65511 < dstFile.length) :
    ¬ OpenArrives dstFile mode' (openBytesOf dstFile mode) := by
  intro harrives
  have hbytes := length_openBytesOf dstFile mode
  rcases Nat.lt_or_ge (openHdr dstFile mode).len.toNat sizeofHdr with hshort | hlong
  · -- half a header
    obtain ⟨t, r, hrun, hfeeds⟩ := msgRecvHdr_exists ⟨0, 0, 0, 0, 0⟩ (openBytesOf dstFile mode) {}
    have hret := ((harrives.accepted 3 _ _ _ _ [] _ hrun (by rwa [List.append_nil])).2 _ rfl).1
    obtain rfl := (Prod.mk.inj hret).1
    have henough := (msgRecvHdr_feeds hrun hfeeds).1
    omega
  · -- a path that is shorter than the one the client has
    rcases openBytesOf_cases dstFile mode with ⟨path, hopen, hpath⟩ | hnone | ⟨hshort, -⟩
    · obtain ⟨t, g', hrun, hfeeds⟩ := @serverOpen_exists (openHdr dstFile mode') {} (by simp) path
      have hdrop : (openBytesOf dstFile mode).drop sizeofHdr ++ [] = path := by
        rw [hopen, List.drop_left' (MsgHdr.length_encode _), List.append_nil]
      obtain ⟨hfront, -⟩ := (harrives.opened 3 _ _ _ [] _ rfl le_rfl hrun (by rwa [hdrop])
        (serverOpen_mallocOk hrun rfl)).2 _ rfl
      have hroom := hfront.length_le
      have htaken := congrArg List.length hfeeds.taken_append
      have hle := @length_received_le t .path
      rw [List.length_append] at htaken
      rw [List.length_append, List.length_singleton] at hroom
      rw [pathSize] at hpath
      have hlt := (openHdr dstFile mode).len.toNat_lt
      have height : 8 ∣ (openHdr dstFile mode).len.toNat := by
        rw [openHdr, UInt16.toNat_ofNat', pathLen, sizeofHdr]
        omega
      rw [sizeofHdr] at hpath hlong
      omega
    · rw [hnone, List.length_nil] at hbytes
      rw [← hbytes] at hlong
      exact absurd hlong (by decide)
    · omega

/-! ## The result -/

/-- An empty source. -/
def emptySource : Stat := ⟨0, Nat.two_pow_pos 63, 0⟩

/-- Every path is sent. -/
lemma clientOpen_canSend (dstFile : List UInt8) :
    ∃ t, ∃ sent : Reply (.rsend (openBytesOf dstFile 0)),
      CanDo ((clientOpen 3 [97] dstFile).run {}) t ∧
        ⟨.rsend (openBytesOf dstFile 0), sent⟩ ∈ t := by
  let sent : SentCount (openBytesOf dstFile 0).length := ⟨-1, le_rfl, by omega⟩
  refine ⟨[⟨.openFile [97] .rdonly 0, .ok 3⟩, ⟨.fstat 3, .ok emptySource⟩,
    ⟨.mmap 3 0, .ok ⟨4096, mappingPos, mappingLt, [], rfl⟩⟩,
    ⟨.calloc (sizeofHdr + pathLen dstFile), true⟩, ⟨.rsend (openBytesOf dstFile 0), sent⟩],
    sent, ?_, by simp⟩
  rw [clientOpen]
  refine canDo_run_perform_bind.mpr (Or.inr ⟨_, _, rfl, ?_⟩)
  dsimp only
  rw [run_modify_bind]
  refine canDo_run_perform_bind.mpr (Or.inr ⟨_, _, rfl, ?_⟩)
  dsimp only
  rw [run_modify_bind]
  refine canDo_run_perform_bind.mpr (Or.inr ⟨_, _, rfl, ?_⟩)
  dsimp only
  rw [run_modify_bind]
  refine canDo_run_bind.mpr (Or.inl ?_)
  refine canDo_run_perform_bind.mpr (Or.inr ⟨_, _, rfl, ?_⟩)
  exact canDo_run_perform_bind.mpr (Or.inr ⟨sent, _, rfl, canDo_nil _⟩)

/-- **Which OPENs arrive.**  Whatever `client_open` sends arrives just where the path has at most
65511 bytes.

The header has 16 bytes and the path with its terminator is rounded up to a multiple of eight, so
that 65511 is the last length for which the sum stays below `2 ^ 16`.  Then the server receives
just the path with its zero byte and what fills it up, and the path ends at the first zero byte
since it has none inside.  For a longer path `hdr.len` is the length without its upper bits, and
the server takes as much of the path as that says. -/
theorem open_roundTrips_iff (hnul : (0 : UInt8) ∉ dstFile) :
    OpenRoundTrips dstFile ↔ dstFile.length ≤ 65511 := by
  constructor
  · intro h
    by_contra hlong
    obtain ⟨t, sent, hrun, hmem⟩ := clientOpen_canSend dstFile
    obtain ⟨fd, stats, -, harrives⟩ := h 3 [97] {} t _ sent hrun hmem
    exact not_openArrives_long 0 stats.mode (by omega) harrives
  · intro hlen fuel srcFile g t bs sent hrun hmem
    obtain ⟨fd, stats, hstat, rfl⟩ := clientOpen_sends hrun hmem
    exact ⟨fd, stats, hstat, openArrives_short stats.mode hnul hlen⟩

/-- A path of one byte. -/
theorem open_roundTrips_oneByte : OpenRoundTrips [98] :=
  (open_roundTrips_iff (by decide)).mpr (by decide)

/-- **A path of 65512 bytes is lost**: `hdr.len` comes out as `0`, and nothing is sent. -/
theorem longPath_notRoundTrips :
    (openHdr (List.replicate 65512 97) 0).len = 0 ∧ ¬ OpenRoundTrips (List.replicate 65512 97) := by
  have hlen : (List.replicate 65512 (97 : UInt8)).length = 65512 := List.length_replicate
  constructor
  · rw [openHdr, pathLen, hlen]
    rfl
  · intro h
    obtain ⟨t, sent, hrun, hmem⟩ := clientOpen_canSend (List.replicate 65512 97)
    obtain ⟨fd, stats, -, harrives⟩ := h 3 [97] {} t _ sent hrun hmem
    exact not_openArrives_long 0 stats.mode (by rw [hlen]; norm_num) harrives

end

end Rcopy
