import RdmaExamples.Rcopy.Streams

/-!
# The files of the server

What the server's calls make of the files: `open` empties a file, `ftruncate` sets its length, and
what is received into a mapping goes to the file that was mapped.
-/

namespace Rcopy

open ByteStrings Programs

/-- Files by their paths, the files that descriptors stand for, and those that are mapped. -/
structure Disk where
  files : List UInt8 → List UInt8
  fds : Int → Option (List UInt8)
  maps : ℕ → Option (List UInt8)

/-- A file gets new contents. -/
def Disk.write (d : Disk) (path : Option (List UInt8)) (content : List UInt8 → List UInt8) : Disk :=
  match path with
  | none => d
  | some path => { d with files := Function.update d.files path (content (d.files path)) }

/-- `ftruncate` cuts a file, or fills it up with zeros. -/
def resize (length : ℕ) (content : List UInt8) : List UInt8 :=
  content.take length ++ List.replicate (length - content.length) 0

/-- What a call of the server does to the files. -/
def Disk.apply (d : Disk) : Event Call Reply → Disk
  | ⟨.openFile path _ _, .ok fd⟩ =>
      { d with
        files := Function.update d.files path []
        fds := Function.update d.fds fd (some path) }
  | ⟨.ftruncate fd length, .ok _⟩ => d.write (d.fds fd) (resize length)
  | ⟨.mmap fd _, .ok mapping⟩ =>
      { d with maps := Function.update d.maps mapping.addr (d.fds fd) }
  | ⟨.rrecv (.mapping addr) offset _, some chunk⟩ =>
      d.write (d.maps addr) fun content => store content offset chunk.bs
  | ⟨.munmap addr _, _⟩ => { d with maps := Function.update d.maps addr none }
  | ⟨.close fd, _⟩ => { d with fds := Function.update d.fds fd none }
  | _ => d

/-- The files after a run of the server. -/
def Disk.after (d : Disk) (t : Trace) : Disk := t.foldl Disk.apply d

/-- The path that a call opens. -/
def openedPath : Event Call Reply → Option (List UInt8)
  | ⟨.openFile path _ _, .ok _⟩ => some path
  | _ => none

/-- The files that a run opens. -/
def openedPaths (t : Trace) : List (List UInt8) := t.filterMap openedPath

section

variable {d : Disk} {t t' : Trace} {e : Event Call Reply} {dest : Dest} {path : List UInt8}

@[simp] lemma after_nil : d.after [] = d := rfl

@[simp] lemma after_cons : d.after (e :: t) = (d.apply e).after t := rfl

@[simp] lemma after_append : d.after (t ++ t') = (d.after t).after t' := List.foldl_append

@[simp] lemma openedPaths_nil : openedPaths [] = [] := rfl

@[simp] lemma openedPaths_cons :
    openedPaths (e :: t) = (openedPath e).toList ++ openedPaths t := by
  rw [openedPaths, List.filterMap_cons]
  cases openedPath e <;> rfl

@[simp] lemma openedPaths_append : openedPaths (t ++ t') = openedPaths t ++ openedPaths t' :=
  List.filterMap_append

@[simp] lemma length_resize (length : ℕ) (content : List UInt8) :
    (resize length content).length = length := by
  simp only [resize, List.length_append, List.length_take, List.length_replicate]
  omega

/-- A call that neither opens a file nor changes one. -/
def LeavesFiles : Call → Prop
  | .openFile .. => False
  | .ftruncate .. => False
  | .rrecv (.mapping _) _ _ => False
  | _ => True

lemma files_apply (h : LeavesFiles e.1) : (d.apply e).files = d.files ∧ openedPath e = none := by
  obtain ⟨c, r⟩ := e
  cases c with
  | openFile path flags mode => exact h.elim
  | ftruncate fd length => exact h.elim
  | rrecv dest offset len =>
      cases dest with
      | mapping addr => exact h.elim
      | header => cases r <;> exact ⟨rfl, rfl⟩
      | path => cases r <;> exact ⟨rfl, rfl⟩
      | size => cases r <;> exact ⟨rfl, rfl⟩
  | mmap fd length => cases r <;> exact ⟨rfl, rfl⟩
  | _ => exact ⟨rfl, rfl⟩

/-- **Files stay as they are**, and none is opened. -/
lemma files_after (h : ∀ e ∈ t, LeavesFiles e.1) :
    (d.after t).files = d.files ∧ openedPaths t = [] := by
  induction t generalizing d with
  | nil => exact ⟨rfl, rfl⟩
  | cons e t ih =>
      obtain ⟨hfiles, hopened⟩ := files_apply (d := d) (h e List.mem_cons_self)
      obtain ⟨hfiles', hopened'⟩ :=
        ih (d := d.apply e) fun e' he => h e' (List.mem_cons_of_mem _ he)
      exact ⟨hfiles'.trans hfiles, by rw [openedPaths_cons, hopened, hopened']; rfl⟩

lemma OnlyInto.openedPaths_eq (h : OnlyInto dest t) : openedPaths t = [] := by
  rw [openedPaths, List.filterMap_eq_nil_iff]
  rintro ⟨c, r⟩ he
  obtain ⟨offset, n, rfl⟩ := h _ he
  rfl

lemma OnlyInto.leavesFiles (h : OnlyInto dest t) (hdest : ∀ addr, dest ≠ .mapping addr) :
    ∀ e ∈ t, LeavesFiles e.1 := by
  intro e he
  obtain ⟨offset, n, hc⟩ := h e he
  rw [hc]
  cases dest with
  | mapping addr => exact absurd rfl (hdest addr)
  | _ => exact trivial

/-- What is received elsewhere than into a mapping does nothing to the disk. -/
lemma OnlyInto.after_eq (h : OnlyInto dest t) (hdest : ∀ addr, dest ≠ .mapping addr) :
    d.after t = d := by
  induction t generalizing d with
  | nil => rfl
  | cons e t ih =>
      obtain ⟨c, r⟩ := e
      obtain ⟨offset, n, rfl⟩ := h _ List.mem_cons_self
      have happly : d.apply ⟨.rrecv dest offset n, r⟩ = d := by
        cases dest with
        | mapping addr => exact absurd rfl (hdest addr)
        | header => cases r <;> rfl
        | path => cases r <;> rfl
        | size => cases r <;> rfl
      rw [after_cons, happly]
      exact ih fun e' he => h e' (List.mem_cons_of_mem _ he)

end

/-! ## Receiving a file -/

section Receive

variable {d : Disk} {t : Trace} {path s s' : List UInt8} {addr len fuel offset n : ℕ}
  {msg buf : List UInt8} {g g' : Globals}

@[simp] lemma write_maps (d : Disk) (path : Option (List UInt8))
    (content : List UInt8 → List UInt8) : (d.write path content).maps = d.maps := by
  cases path <;> rfl

@[simp] lemma write_fds (d : Disk) (path : Option (List UInt8))
    (content : List UInt8 → List UInt8) : (d.write path content).fds = d.fds := by
  cases path <;> rfl

@[simp] lemma write_files (d : Disk) (path : List UInt8) (content : List UInt8 → List UInt8) :
    (d.write (some path) content).files path = content (d.files path) := by
  simp [Disk.write]

/-- **A file is received in order**, in whatever pieces it comes. -/
theorem recvFrom_file (hlen : len < 2 ^ 64) : ∀ {fuel offset : ℕ} {msg : List UInt8} {t : Trace}
    {s : List UInt8} {d : Disk}, d.maps addr = some path → len ≤ (d.files path).length →
    offset ≤ len → Returns ((recvFrom (.mapping addr) len fuel offset msg).run g) t ((n, buf), g') →
    Feeds s t s' → len - offset ≤ s.length →
    (d.after t).files path = store (d.files path) offset (s.take (len - offset))
  | 0, _, _, _, _, _, _, _, _, h => absurd h returns_run_halt
  | fuel + 1, offset, msg, t, s, d, hmap, hfile, hoff, h => by
      intro hfeeds hlong
      rcases recvFrom_cases hlen h with ⟨hge, rfl, rfl, -⟩ | ⟨hlt, c, hc, rfl, rfl, -⟩ |
        ⟨-, t', rfl, -⟩ | ⟨hlt, t', c, hc, rfl, hle, h'⟩
      · obtain rfl : offset = n := le_antisymm hoff hge
        simp
      · obtain ⟨s₁, ⟨hs, hnil⟩, -⟩ := feeds_cons.mp hfeeds
        rw [hnil hc, List.length_nil] at hlong
        omega
      · obtain ⟨s₁, htakes, -⟩ := feeds_cons.mp hfeeds
        exact htakes.elim
      · obtain ⟨s₁, ⟨rfl, -⟩, hs'⟩ := feeds_cons.mp hfeeds
        have htake : (c.bs ++ s₁).take (len - offset)
            = c.bs ++ s₁.take (len - (offset + c.bs.length)) := by
          rw [List.take_append, List.take_of_length_le c.length_le, Nat.sub_sub]
        have happly : d.apply ⟨.rrecv (.mapping addr) offset (len - offset), some c⟩
            = d.write (some path) fun content => store content offset c.bs := by
          rw [Disk.apply, hmap]
        rw [List.length_append] at hlong
        rw [after_cons, happly, recvFrom_file hlen (by rw [write_maps, hmap])
          (by rw [write_files, length_store (by omega)]; exact hfile) hle h' hs' (by omega),
          write_files, store_store (by omega), htake]

/-- A file that is received in full. -/
theorem recv_file {data rest : List UInt8} (hlen : len < 2 ^ 64) (hdata : data.length = len)
    (hmap : d.maps addr = some path) (hfile : (d.files path).length = len)
    (h : Returns ((recv fuel (.mapping addr) msg len).run g) t ((n, buf), g'))
    (hfeeds : Feeds (data ++ rest) t s') : (d.after t).files path = data := by
  rw [recvFrom_file hlen hmap hfile.ge (Nat.zero_le _) h hfeeds (by simp [hdata]), Nat.sub_zero,
    List.take_left' hdata, store_whole (hfile.trans hdata.symm)]

end Receive

end Rcopy
