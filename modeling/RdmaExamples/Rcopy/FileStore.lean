import RdmaExamples.Rcopy.ServerStages
import RdmaExamples.Rcopy.Truthful

/-!
# The server is a store of files

What the server is for, without messages and streams: it keeps files, of which one may be open.  A
request opens a file and empties it, replaces the contents of the open one, or closes it, and is
answered with a status; after a status other than `0` the session is over.

The server refines that store (`server_refines_store`): on the streams of any requests, session
after session and however they are cut, it sends the answers of the store, and its files are those
of the store.  What is open is kept from one session to the next by both.

* `FileStore`, `Request`, `FileStore.step` — the store, in its own terms: files by path, and the
  one that is open.
* `Refines` — the server has a file open just where the store has, with the same contents.
* `Serves` — any number of sessions, each on the stream of its requests.

A descriptor of the server is above `0`: `open` may return `0` where the standard input is closed,
and the server takes that for none.  A mapping is written behind the server's back, which is why
the files and not the calls are compared.
-/

namespace Rcopy

open ByteStrings MachineWords Programs

/-! ## The store

This is what the server is for, with no byte of a message in it: three requests, and what each of
them does to the files. -/

/-- A request that a message can hold.  The path ends within its message. -/
inductive Request
  | openFile (mode : UInt32) (id : UInt64) (path : List UInt8)
      (hlen : sizeofHdr + path.length < 2 ^ 16) (hnul : 0 ∈ path)
  | write (id : UInt64) (contents : List UInt8) (hlen : contents.length < 2 ^ 63)
  | close (id : UInt64)

/-- Files by their paths, and the one that is open. -/
structure FileStore where
  files : List UInt8 → List UInt8
  current : Option (List UInt8)

/-- A request to the store: its status, and the store after it. -/
def FileStore.step (st : FileStore) : Request → Int × FileStore
  | .openFile _ _ path _ _ =>
      match st.current with
      | some _ => (ebusy, st)
      | none => (0, ⟨Function.update st.files (cString path) [], some (cString path)⟩)
  | .write _ contents _ =>
      match st.current with
      | some file => (0, { st with files := Function.update st.files file contents })
      | none => (einval, st)
  | .close _ => (0, { st with current := none })

/-- The header of a request. -/
def Request.hdr : Request → MsgHdr
  | .openFile mode id path _ _ => ⟨0, cmdOpen, UInt16.ofNat (sizeofHdr + path.length), mode, id⟩
  | .write id _ _ => ⟨0, cmdWrite, UInt16.ofNat sizeofWrite, 0, id⟩
  | .close id => ⟨0, cmdClose, UInt16.ofNat sizeofHdr, 0, id⟩

/-- What follows the header. -/
def Request.body : Request → List UInt8
  | .openFile _ _ path _ _ => path
  | .write _ contents _ => toBytes sizeofBytes contents.length ++ contents
  | .close _ => []

/-- Requests on a stream. -/
def stream (rs : List Request) : List UInt8 := rs.flatMap fun r => r.hdr.encode ++ r.body

/-- A session with the store: what is answered, and the store after it. -/
def FileStore.session (st : FileStore) : List Request → List UInt8 × FileStore
  | [] => ([], st)
  | r :: rs =>
      let done := st.step r
      let answer := (respHdr r.hdr done.1).encode
      if done.1 = 0 then (answer ++ (done.2.session rs).1, (done.2.session rs).2)
      else (answer, done.2)

/-- One session after the other. -/
def FileStore.sessions (st : FileStore) : List (List Request) → List (List UInt8) × FileStore
  | [] => ([], st)
  | rs :: rss =>
      let first := st.session rs
      let rest := first.2.sessions rss
      (first.1 :: rest.1, rest.2)

/-! ## The server -/

/-- No call fails, and no file gets the descriptor `0`, which the server takes for none.  Failures
of `rrecv` are for the stream to exclude. -/
def fine : Event Call Reply → Bool
  | ⟨.rsend bs, sent⟩ => decide (sent.ret = bs.length)
  | ⟨.malloc _, heap⟩ => heap.isSome
  | ⟨.openFile _ _ _, .ok fd⟩ => decide (0 < fd)
  | ⟨.openFile _ _ _, .error _⟩ => false
  | ⟨.ftruncate _ _, .error _⟩ => false
  | ⟨.mmap _ _, .error _⟩ => false
  | _ => true

/-- The sessions of a server, each on the stream of its requests: what it sends in each, and where
it stands after them. -/
inductive Serves : Globals → Disk → List (List Request) → List (List UInt8) → Globals → Disk → Prop
  | none (g : Globals) (d : Disk) : Serves g d [] [] g d
  | session {g g₁ g' : Globals} {d d' : Disk} {rs : List Request} {rss : List (List Request)}
      {fuel : ℕ} {t : Trace} {s' : List UInt8} {outs : List (List UInt8)}
      (hrun : Returns ((serverSession fuel).run g) t ((), g₁)) (hfine : ∀ e ∈ t, fine e = true)
      (hfeeds : Feeds (stream rs) t s') (hrest : Serves g₁ (d.after t) rss outs g' d') :
      Serves g d (rs :: rss) (sentBytes t :: outs) g' d'

/-- The server has the files of the store, and has open what is open there.  The globals of the
server are a view of the store: `fd` is above `0` exactly while a file is open there, and it is the
descriptor of that file. -/
structure Refines (g : Globals) (d : Disk) (st : FileStore) : Prop where
  files : d.files = st.files
  closed : st.current = none → g.fd ≤ 0 ∧ g.fileAddr = 0
  opened : ∀ file, st.current = some file → 0 < g.fd ∧ d.fds g.fd = some file

section

variable {fuel : ℕ} {msg hdr : MsgHdr} {g g' : Globals} {t : Trace} {d d' : Disk} {st : FileStore}
  {s s' rest src path file : List UInt8} {addr : ℕ} {ret : Int} {r : Request}
  {rs : List Request} {e : Event Call Reply}

/-! ### What is received into a mapping

The file changes under the mapping, piece by piece; when all is received it has the contents that
were sent. -/

/-- Only the file that is mapped changes. -/
lemma OnlyInto.after_mapping (h : OnlyInto (.mapping addr) t) (hmap : d.maps addr = some file) :
    (d.after t).fds = d.fds ∧ ∀ q, q ≠ file → (d.after t).files q = d.files q := by
  induction t generalizing d with
  | nil => exact ⟨rfl, fun _ _ => rfl⟩
  | cons e t ih =>
      obtain ⟨c, r⟩ := e
      obtain ⟨offset, n, rfl⟩ := h _ List.mem_cons_self
      have hrest : OnlyInto (.mapping addr) t := fun e' he => h e' (List.mem_cons_of_mem _ he)
      rw [after_cons]
      cases r with
      | none => exact ih hrest hmap
      | some chunk =>
          have happly : d.apply ⟨.rrecv (.mapping addr) offset n, some chunk⟩
              = d.write (some file) fun content => store content offset chunk.bs := by
            rw [Disk.apply, hmap]
          have hmap' : (d.write (some file) fun content =>
              store content offset chunk.bs).maps addr = some file := by rw [write_maps, hmap]
          obtain ⟨hfds, hfiles⟩ := ih hrest hmap'
          rw [happly]
          refine ⟨by rw [hfds, write_fds], fun q hq => ?_⟩
          rw [hfiles q hq]
          exact Function.update_of_ne hq _ _

/-- **The data of a WRITE**: the open file gets them, and no other changes. -/
lemma dataRun_refines (hbytes : g.bytes = src.length) (hlen : src.length < 2 ^ 63)
    (hfile : d.fds g.fd = some file) (h : DataRun fuel g t ret g')
    (hfine : ∀ e ∈ t, fine e = true) (hfeeds : Feeds (src ++ rest) t s') :
    ret = 0 ∧ s' = rest ∧ g'.fd = g.fd ∧ sentBytes t = [] ∧ (d.after t).fds = d.fds ∧
      (d.after t).files = Function.update d.files file src := by
  have hlt : g.bytes < 2 ^ 64 := by omega
  cases h with
  | notResized e =>
      exact absurd (hfine ⟨.ftruncate g.fd g.bytes, .error e⟩ (by simp)) (by simp [fine])
  | notMapped u e =>
      exact absurd (hfine ⟨.mmap g.fd g.bytes, .error e⟩ (by simp)) (by simp [fine])
  | noData u mapping t n mem hrecv hn =>
      rw [feeds_cons_nothing rfl, feeds_cons_nothing rfl] at hfeeds
      exact absurd (recv_message hlt hbytes.symm hrecv hfeeds).1 hn
  | data u mapping t mem hrecv =>
      rw [feeds_cons_nothing rfl, feeds_cons_nothing rfl] at hfeeds
      have honly := recv_onlyInto hrecv.canDo
      have hmap : ((d.apply ⟨.ftruncate g.fd g.bytes, .ok u⟩).apply
          ⟨.mmap g.fd g.bytes, .ok mapping⟩).maps mapping.addr = some file := by
        simp [Disk.apply, hfile]
      obtain ⟨hfds, hfiles⟩ := honly.after_mapping hmap
      refine ⟨rfl, (recv_message hlt hbytes.symm hrecv hfeeds).2.2.1, rfl, ?_, ?_, ?_⟩
      · simp [sentOf, honly.sentBytes_eq]
      · rw [after_cons, after_cons, hfds]
        simp [Disk.apply]
      · rw [after_cons, after_cons]
        funext q
        by_cases hq : q = file
        · subst hq
          rw [Function.update_self]
          refine recv_file hlt hbytes.symm hmap ?_ hrecv hfeeds
          simp [Disk.apply, hfile]
        · rw [hfiles q hq, Function.update_of_ne hq]
          simp [Disk.apply, hfile, Disk.write, Function.update_of_ne hq]

/-! ### The handlers

One lemma for each request, from the header on: what is taken off the stream, what is answered, and
that the two states agree again. -/

/-- A request is to the server what it is to the store.  What the store says is the status that
goes back, in a header that repeats the one of the request, and the states agree again behind it;
where the server goes on, it has taken just the bytes of the request off the stream. -/
structure Fulfilled (r : Request) (g : Globals) (d : Disk) (st : FileStore) (rest : List UInt8)
    (t : Trace) (ret : Int) (g' : Globals) (s' : List UInt8) : Prop where
  status : ret = (st.step r).1
  sent : sentBytes t = (respHdr r.hdr ret).encode
  refines : Refines g' (d.after t) (st.step r).2
  left : ret = 0 → s' = rest

/-- Where the server has no file open, the store has none. -/
lemma Refines.current_none (h : Refines g d st) (hfd : ¬ 0 < g.fd) : st.current = none := by
  cases hcurrent : st.current with
  | none => rfl
  | some file => exact absurd (h.opened file hcurrent).1 hfd

/-- The length in the header of an OPEN is that of its path. -/
lemma Request.pathSize_hdr (mode : UInt32) (id : UInt64)
    (hlen : sizeofHdr + path.length < 2 ^ 16) (hnul : 0 ∈ path) :
    pathSize (Request.openFile mode id path hlen hnul).hdr = path.length := by
  rw [pathSize, Request.hdr]
  dsimp only
  rw [UInt16.toNat_ofNat', Nat.mod_eq_of_lt hlen, Nat.add_sub_cancel_left]

/-- **An OPEN.** -/
lemma serverOpen_fulfilled {mode : UInt32} {id : UInt64} {hlen : sizeofHdr + path.length < 2 ^ 16}
    {hnul : 0 ∈ path} (href : Refines g d st)
    (h : Returns ((serverOpen fuel (Request.openFile mode id path hlen hnul).hdr).run g) t
      (ret, g'))
    (hfine : ∀ e ∈ t, fine e = true) (hfeeds : Feeds (path ++ rest) t s') :
    Fulfilled (.openFile mode id path hlen hnul) g d st rest t ret g' s' := by
  have hpath : path.length = pathSize (Request.openFile mode id path hlen hnul).hdr :=
    (Request.pathSize_hdr ..).symm
  have hlt := pathSize_lt (Request.openFile mode id path hlen hnul).hdr
  obtain ⟨t', reply, rfl, h'⟩ := returns_respond h
  cases serverOpenFile_run h' with
  | busy hbusy =>
      obtain ⟨file, hcurrent⟩ : ∃ file, st.current = some file := by
        cases hcurrent : st.current with
        | none =>
            obtain ⟨hfd, haddr⟩ := href.closed hcurrent
            exact absurd hbusy (by omega)
        | some file => exact ⟨file, rfl⟩
      have hstep : st.step (.openFile mode id path hlen hnul) = (ebusy, st) := by
        rw [FileStore.step, hcurrent]
      exact ⟨by rw [hstep], by simp [sentOf], by rw [hstep]; exact href,
        fun hzero => absurd hzero (by decide)⟩
  | noMemory _ =>
      exact absurd (hfine ⟨.malloc (pathSize (Request.openFile mode id path hlen hnul).hdr), none⟩
        (by simp)) (by simp [fine])
  | noPath _ heap t n mem hrecv hn =>
      rw [List.cons_append, feeds_cons_nothing rfl] at hfeeds
      obtain ⟨s₁, hs₁, -⟩ := feeds_append.mp hfeeds
      exact absurd (recv_message hlt hpath hrecv hs₁).1 hn
  | notOpened _ heap t mem e hrecv =>
      exact absurd (hfine ⟨.openFile (cString mem) .rdwrCreatTrunc mode, .error e⟩
        (by simp [Request.hdr])) (by simp [fine])
  | opened hfree heap t mem fd hrecv =>
      have hfd : 0 < fd := by
        have hopen := hfine ⟨.openFile (cString mem) .rdwrCreatTrunc mode, .ok fd⟩
          (by simp [Request.hdr])
        exact of_decide_eq_true hopen
      have honly := recv_onlyInto hrecv.canDo
      rw [List.cons_append, List.append_assoc, feeds_cons_nothing rfl] at hfeeds
      obtain ⟨s₁, hs₁, hs₂⟩ := feeds_append.mp hfeeds
      rw [List.singleton_append, feeds_cons_nothing rfl, feeds_cons_nothing rfl] at hs₂
      obtain ⟨-, hgot, rfl, heof⟩ := recv_message hlt hpath hrecv hs₁
      have hmem : mem.take path.length = path := by
        rw [hpath, recv_buf hlt heap.le_length hrecv heof hs₁.not_hasError, hgot]
      have hname : cString mem = cString path := by
        rw [← List.take_append_drop path.length mem, hmem, cString_of_nul hnul]
      have hcurrent := href.current_none fun hpos => hfree (Or.inr hpos)
      have hstep : st.step (.openFile mode id path hlen hnul) =
          (0, ⟨Function.update st.files (cString path) [], some (cString path)⟩) := by
        rw [FileStore.step, hcurrent]
      refine ⟨by rw [hstep], by simp [sentOf, honly.sentBytes_eq], ?_, fun _ => hs₂⟩
      rw [hstep, hname]
      refine ⟨?_, fun hnone => absurd hnone (by simp), fun file hfile => ?_⟩
      · simp [Disk.apply, honly.after_eq, href.files]
      · obtain rfl := Option.some.inj hfile
        refine ⟨Int.natCast_pos.mpr hfd, ?_⟩
        simp [Disk.apply, honly.after_eq]

/-- **A WRITE.** -/
lemma serverWrite_fulfilled {id : UInt64} {hlen : src.length < 2 ^ 63} (href : Refines g d st)
    (h : Returns ((serverWrite fuel (Request.write id src hlen).hdr).run g) t (ret, g'))
    (hfine : ∀ e ∈ t, fine e = true)
    (hfeeds : Feeds (toBytes sizeofBytes src.length ++ (src ++ rest)) t s') :
    Fulfilled (.write id src hlen) g d st rest t ret g' s' := by
  obtain ⟨t', reply, rfl, h'⟩ := returns_respond h
  cases serverWriteFile_run h' with
  | refused hrefused =>
      have hfd : ¬ 0 < g.fd := by
        rcases hrefused with hfd | hsize
        · omega
        · exact absurd rfl hsize
      have hstep : st.step (.write id src hlen) = (einval, st) := by
        rw [FileStore.step, href.current_none hfd]
      exact ⟨by rw [hstep], by simp [sentOf], by rw [hstep]; exact href,
        fun hzero => absurd hzero (by decide)⟩
  | noSize _ _ t n buf hrecv hn =>
      obtain ⟨s₁, hs₁, -⟩ := feeds_append.mp hfeeds
      exact absurd (recv_message (by decide) (by simp) hrecv hs₁).1 hn
  | size hfd _ t t' buf ret g' hrecv hdata =>
      have honly := recv_onlyInto hrecv.canDo
      rw [List.append_assoc] at hfeeds
      obtain ⟨s₁, hs₁, hs₂⟩ := feeds_append.mp hfeeds
      obtain ⟨s₂, hs₂, hs₃⟩ := feeds_append.mp hs₂
      rw [feeds_cons_nothing rfl] at hs₃
      obtain ⟨-, hsize, rfl, heof⟩ := recv_message (by decide) (by simp) hrecv hs₁
      have hbytes : ofBytes buf = src.length := by
        rw [recv_buf_eq (by decide) (by simp) hrecv heof hs₁.not_hasError, hsize]
        exact ofBytes_toBytes (hlen.trans (by decide))
      obtain ⟨file, hcurrent⟩ : ∃ file, st.current = some file := by
        cases hcurrent : st.current with
        | none => exact absurd (href.closed hcurrent).1 (not_le.mpr hfd)
        | some file => exact ⟨file, rfl⟩
      have hfile := (href.opened file hcurrent).2
      obtain ⟨rfl, rfl, hfd', hsent, hfds, hfiles⟩ :=
        dataRun_refines (g := { g with bytes := ofBytes buf }) hbytes hlen hfile hdata
          (fun e he => hfine e (by simp [he])) hs₂
      have hstep : st.step (.write id src hlen) =
          (0, { st with files := Function.update st.files file src }) := by
        rw [FileStore.step, hcurrent]
      have hdisk : (d.after ((t ++ t') ++
          [⟨.rsend (respHdr (Request.write id src hlen).hdr 0).encode, reply⟩])) = d.after t' := by
        rw [after_append, after_append, honly.after_eq (by simp)]
        rfl
      refine ⟨by rw [hstep], by simp [sentOf, honly.sentBytes_eq, hsent], ?_, fun _ => hs₃⟩
      rw [hstep, hdisk]
      refine ⟨by rw [hfiles, href.files], fun hnone => ?_, fun file' hfile' => ?_⟩
      · rw [hcurrent] at hnone
        exact absurd hnone (by simp)
      · obtain rfl := Option.some.inj (hcurrent.symm.trans hfile')
        rw [hfds, hfd']
        exact ⟨hfd, hfile⟩

/-- **A CLOSE.** -/
lemma serverClose_fulfilled {id : UInt64} (href : Refines g d st)
    (h : Returns ((do serverClose (Request.close id).hdr; return (0 : Int) : Rcp Int).run g) t
      (ret, g')) (hfeeds : Feeds rest t s') :
    Fulfilled (.close id) g d st rest t ret g' s' := by
  obtain ⟨t₁, t₂, u, g₁, rfl, h₁, h₂⟩ := returns_run_bind.mp h
  obtain ⟨rfl, rfl, rfl⟩ := returns_run_pure.mp h₂
  obtain ⟨reply, rfl, rfl⟩ := returns_serverClose.mp h₁
  refine ⟨rfl, ?_, ⟨?_, fun _ => ⟨min_le_right _ _, rfl⟩, fun file hfile => ?_⟩, fun _ => ?_⟩
  · by_cases haddr : g.fileAddr ≠ 0 <;> by_cases hfd : g.fd > 0 <;> simp [haddr, hfd, sentOf]
  · rw [FileStore.step, ← href.files]
    by_cases haddr : g.fileAddr ≠ 0 <;> by_cases hfd : g.fd > 0 <;> simp [haddr, hfd, Disk.apply]
  · exact absurd hfile (by simp [FileStore.step])
  · refine (feeds_of_nothing fun e he => ?_).mp hfeeds
    by_cases haddr : g.fileAddr ≠ 0 <;> by_cases hfd : g.fd > 0 <;>
      simp [haddr, hfd] at he <;> rcases he with rfl | rfl | rfl <;> rfl

lemma Request.version_hdr (r : Request) : r.hdr.version = 0 := by cases r <;> rfl

lemma Request.sizeof_le (r : Request) : sizeofHdr ≤ r.hdr.len.toNat := by
  cases r with
  | openFile mode id path hlen hnul =>
      rw [Request.hdr]
      dsimp only
      rw [UInt16.toNat_ofNat', Nat.mod_eq_of_lt hlen]
      exact Nat.le_add_right _ _
  | write id contents hlen => exact (by decide : sizeofHdr ≤ (UInt16.ofNat sizeofWrite).toNat)
  | close id => exact (by decide : sizeofHdr ≤ (UInt16.ofNat sizeofHdr).toNat)

/-- **One request**, whichever it is. -/
theorem serverHandle_fulfilled (href : Refines g d st)
    (h : Returns ((serverHandle fuel r.hdr).run g) t (ret, g')) (hfine : ∀ e ∈ t, fine e = true)
    (hfeeds : Feeds (r.body ++ rest) t s') : Fulfilled r g d st rest t ret g' s' := by
  cases r with
  | openFile mode id path hlen hnul =>
      rw [serverHandle_open rfl] at h
      exact serverOpen_fulfilled href h hfine hfeeds
  | write id contents hlen =>
      rw [serverHandle_write rfl] at h
      rw [Request.body, List.append_assoc] at hfeeds
      exact serverWrite_fulfilled href h hfine hfeeds
  | close id =>
      rw [serverHandle_close rfl] at h
      exact serverClose_fulfilled href h hfeeds

/-! ### Sessions -/

/-- The header of a request is received as it was sent. -/
lemma msgRecvHdr_request {hdr' : MsgHdr}
    (h : Returns ((msgRecvHdr fuel msg).run g) t ((ret, hdr'), g'))
    (hfeeds : Feeds (r.hdr.encode ++ rest) t s') :
    ret = sizeofHdr ∧ hdr' = r.hdr ∧ g' = g ∧ s' = rest := by
  obtain ⟨rfl, n, buf, hrecv, rfl, hcases⟩ := msgRecvHdr_cases h
  obtain ⟨rfl, hgot, rfl, heof⟩ := recv_message (by decide) (by simp) hrecv hfeeds
  have hbuf : buf = r.hdr.encode := by
    rw [recv_buf_eq (by decide) (by simp) hrecv heof hfeeds.not_hasError, hgot]
  rw [hbuf, MsgHdr.decode_encode] at hcases ⊢
  have hversion := r.version_hdr
  have hsize := r.sizeof_le
  rcases hcases with ⟨-, hn | hbad | hshort⟩ | ⟨hret, -⟩
  · exact absurd rfl hn
  · exact absurd hversion hbad
  · omega
  · exact ⟨hret, rfl, rfl, rfl⟩

/-- A round of the loop with a request on the stream: it is handled, and the loop goes on after a
status of `0`. -/
lemma serverLoop_request (h : Returns ((serverLoop (fuel + 1) msg).run g) t ((), g'))
    (hfeeds : Feeds (stream (r :: rs)) t s') :
    ∃ t₁ t₂ t₃ ret g₂ s₂, t = t₁ ++ (t₂ ++ t₃) ∧ OnlyInto .header t₁ ∧
      Returns ((serverHandle fuel r.hdr).run g) t₂ (ret, g₂) ∧
      Feeds (r.body ++ stream rs) t₂ s₂ ∧ Feeds s₂ t₃ s' ∧
      (ret = 0 → Returns ((serverLoop fuel r.hdr).run g₂) t₃ ((), g')) ∧
      (ret ≠ 0 → t₃ = [] ∧ g' = g₂) := by
  rw [serverLoop] at h
  obtain ⟨t₁, t₂, ⟨ret, hdr⟩, g₁, rfl, h₁, h₂⟩ := returns_run_bind.mp h
  obtain ⟨s₁, hs₁, hs₂⟩ := feeds_append.mp hfeeds
  rw [stream, List.flatMap_cons, List.append_assoc, ← stream] at hs₁
  obtain ⟨rfl, rfl, rfl, rfl⟩ := msgRecvHdr_request h₁ hs₁
  dsimp only at h₂
  rw [if_neg (not_not.mpr rfl)] at h₂
  obtain ⟨t₃, t₄, ret, g₂, rfl, h₃, h₄⟩ := returns_run_bind.mp h₂
  obtain ⟨s₂, hs₂, hs₃⟩ := feeds_append.mp hs₂
  refine ⟨t₁, t₃, t₄, ret, g₂, s₂, rfl, msgRecvHdr_onlyInto h₁.canDo, h₃, hs₂, hs₃, fun hzero => ?_,
    fun hne => ?_⟩
  · rwa [if_pos hzero] at h₄
  · rw [if_neg hne] at h₄
    obtain ⟨rfl, -, rfl⟩ := returns_run_pure.mp h₄
    exact ⟨rfl, rfl⟩

/-- **The loop of a session**: the answers are the store's, and so are the files.  By induction on
the requests: one that is answered with `0` leaves states that agree, and one that is not ends the
session on both sides. -/
theorem serverLoop_refines : ∀ {fuel : ℕ} {msg : MsgHdr} {g : Globals} {t : Trace} {d : Disk}
    {st : FileStore} {rs : List Request}, Refines g d st →
    Returns ((serverLoop fuel msg).run g) t ((), g') → (∀ e ∈ t, fine e = true) →
    Feeds (stream rs) t s' →
    sentBytes t = (st.session rs).1 ∧ Refines g' (d.after t) (st.session rs).2
  | 0, _, _, _, _, _, _, _, h, _, _ => absurd h returns_run_halt
  | fuel + 1, msg, g, t, d, st, rs, href, h, hfine, hfeeds => by
      cases rs with
      | nil =>
          rw [serverLoop] at h
          obtain ⟨t₁, t₂, ⟨ret, hdr⟩, g₁, rfl, h₁, h₂⟩ := returns_run_bind.mp h
          have honly := msgRecvHdr_onlyInto h₁.canDo
          obtain ⟨s₁, hs₁, -⟩ := feeds_append.mp hfeeds
          dsimp only at h₂
          rw [after_append, honly.after_eq (by simp), sentBytes_append, honly.sentBytes_eq,
            List.nil_append]
          -- the stream is at its end, and no header comes
          have hret : ret ≠ sizeofHdr := by
            rintro rfl
            exact absurd (msgRecvHdr_feeds h₁ hs₁).1 (by simp [stream, sizeofHdr])
          obtain ⟨rfl, -⟩ := msgRecvHdr_cases h₁
          rw [if_pos hret] at h₂
          obtain ⟨rfl, -, rfl⟩ := returns_run_pure.mp h₂
          exact ⟨rfl, href⟩
      | cons r rs =>
          obtain ⟨t₁, t₂, t₃, ret, g₂, s₂, rfl, honly, hhandle, hs₂, hs₃, hgo, hstop⟩ :=
            serverLoop_request h hfeeds
          have hdone := serverHandle_fulfilled href hhandle
            (fun e he => hfine e (by simp [he])) hs₂
          rw [after_append, honly.after_eq (by simp), sentBytes_append, honly.sentBytes_eq,
            List.nil_append, after_append, sentBytes_append, hdone.sent, FileStore.session,
            ← hdone.status]
          by_cases hzero : ret = 0
          · obtain rfl := hdone.left hzero
            obtain ⟨hsent, hrefines⟩ := serverLoop_refines hdone.refines (hgo hzero)
              (fun e he => hfine e (by simp [he])) hs₃
            rw [if_pos hzero, hsent]
            exact ⟨rfl, hrefines⟩
          · obtain ⟨rfl, rfl⟩ := hstop hzero
            rw [if_neg hzero, sentBytes_nil, List.append_nil]
            exact ⟨rfl, hdone.refines⟩

/-- **A session**: the calls around the loop do nothing to the files. -/
theorem serverSession_refines (href : Refines g d st)
    (h : Returns ((serverSession fuel).run g) t ((), g')) (hfine : ∀ e ∈ t, fine e = true)
    (hfeeds : Feeds (stream rs) t s') :
    sentBytes t = (st.session rs).1 ∧ Refines g' (d.after t) (st.session rs).2 := by
  rw [serverSession] at h
  obtain ⟨u, t₁, rfl, h₁⟩ := returns_run_perform_bind.mp h
  rw [serverProcess, bind_assoc] at h₁
  obtain ⟨msg, t₂, rfl, h₂⟩ := returns_run_perform_bind.mp h₁
  obtain ⟨t₃, t₄, v, g₁, rfl, h₃, h₄⟩ := returns_run_bind.mp h₂
  obtain ⟨v₁, t₅, rfl, h₅⟩ := returns_run_perform_bind.mp h₄
  obtain ⟨rfl, rfl⟩ := returns_run_perform.mp h₅
  rw [feeds_cons_nothing rfl, feeds_cons_nothing rfl] at hfeeds
  obtain ⟨s₁, hs₁, -⟩ := feeds_append.mp hfeeds
  obtain ⟨hsent, hrefines⟩ := serverLoop_refines href h₃ (fun e he => hfine e (by simp [he])) hs₁
  refine ⟨by simp [sentOf, hsent], ?_⟩
  have hdisk : d.after (⟨.raccept, u⟩ :: ⟨.uninitialised, msg⟩ ::
      (t₃ ++ [⟨.rshutdown, v₁⟩, ⟨.rclose, ()⟩])) = d.after t₃ := by
    rw [after_cons, after_cons, after_append]
    rfl
  rw [hdisk]
  exact hrefines

/-- **The server refines the store.**  Session after session, on the streams of any requests, cut
into any pieces, the server sends what the store answers, and its files are those of the store.

By induction over the sessions (`serverSession_refines`), with `Refines` between the globals and
files of the server and the state of the store.  In a session each request is taken off the stream
as a whole however it is cut, and is fulfilled as the store does (`serverHandle_fulfilled`, one
lemma for each of the three).  A status other than `0` ends both. -/
theorem server_refines_store {rss : List (List Request)} {outs : List (List UInt8)}
    (hserves : Serves g d rss outs g' d') (href : Refines g d st) :
    outs = (st.sessions rss).1 ∧ Refines g' d' (st.sessions rss).2 := by
  induction hserves generalizing st with
  | none g d => exact ⟨rfl, href⟩
  | session hrun hfine hfeeds _ ih =>
      obtain ⟨hsent, hrefines⟩ := serverSession_refines href hrun hfine hfeeds
      obtain ⟨houts, hlast⟩ := ih hrefines
      rw [FileStore.sessions, hsent, houts]
      exact ⟨rfl, hlast⟩

/-! ### A session of three requests -/

/-- What is left of a stream, if an execution takes its bytes from there. -/
def feed : List UInt8 → Trace → Option (List UInt8)
  | s, [] => some s
  | s, e :: t =>
      match got e with
      | .nothing => feed s t
      | .error => none
      | .data bs =>
          if bs.isPrefixOf s && (!bs.isEmpty || s.isEmpty) then feed (s.drop bs.length) t else none

lemma feeds_of_feed : ∀ {t : Trace} {s : List UInt8}, feed s t = some s' → Feeds s t s'
  | [], s, h => (Option.some.inj h).symm
  | e :: t, s, h => by
      rw [feed] at h
      split at h
      · rename_i hgot
        exact (feeds_cons_nothing hgot).mpr (feeds_of_feed h)
      · exact absurd h (by simp)
      · rename_i bs hgot
        split at h
        · rename_i hhead
          simp only [Bool.and_eq_true, Bool.or_eq_true, Bool.not_eq_true', List.isEmpty_iff,
            List.isPrefixOf_iff_prefix] at hhead
          obtain ⟨⟨rest, rfl⟩, hend⟩ := hhead
          rw [List.drop_left] at h
          refine ⟨rest, ?_, feeds_of_feed h⟩
          rw [Takes, hgot]
          refine ⟨rfl, fun hnil => ?_⟩
          rcases hend with hne | hend
          · rw [hnil] at hne
            exact absurd hne (by decide)
          · exact hend
        · exact absurd h (by simp)

end

/-- A file `a` that gets one byte. -/
def threeRequests : List Request :=
  [.openFile 0 1 [97, 0] (by decide) (by decide), .write 2 [42] (by decide), .close 3]

/-- The disk of a server that has no files. -/
def noFiles : Disk := ⟨fun _ => [], fun _ => none, fun _ => none⟩

/-- Three requests, in one session of a server that has just started. -/
theorem server_refines_store_three : ∃ outs g' d', Serves {} noFiles [threeRequests] outs g' d' ∧
    Refines {} noFiles ⟨fun _ => [], none⟩ ∧
    outs = ((⟨fun _ => [], none⟩ : FileStore).sessions [threeRequests]).1 ∧
    d'.files [97] = [42] := by
  obtain ⟨t, ⟨u, g'⟩, hrun, htest⟩ := exists_of_play reliable (stream threeRequests)
    ((serverSession 20).run {}) (fun t _ => t.all fine && decide (feed (stream threeRequests) t
      = some [])) (by decide +kernel)
  simp only [Bool.and_eq_true, List.all_eq_true, decide_eq_true_eq] at htest
  have hserves : Serves {} noFiles [threeRequests] [sentBytes t] g' (noFiles.after t) :=
    Serves.session hrun htest.1 (feeds_of_feed htest.2) (Serves.none _ _)
  have hstart : Refines {} noFiles ⟨fun _ => [], none⟩ :=
    ⟨rfl, fun _ => ⟨le_rfl, rfl⟩, fun file hfile => absurd hfile (by simp)⟩
  obtain ⟨houts, hrefines⟩ := server_refines_store hserves hstart
  refine ⟨_, g', _, hserves, hstart, houts, ?_⟩
  rw [hrefines.files]
  decide +kernel

end Rcopy
