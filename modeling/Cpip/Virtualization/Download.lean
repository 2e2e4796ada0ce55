import Cpip.Python.Hashlib
import Cpip.Virtualization.Fetcher

/-!
# What a download leaves at its destination

With a server that answers every range with its bytes, the chunked path writes the content, in
whatever order the tasks finish.  With any other server, the file at the destination can be trusted
only as far as the path that was taken checks it.
-/

namespace Cpip

namespace ChunkDownloader

variable {dl : ChunkDownloader} {sha256 : Bytes → String} {remote : Remote} {total : ℕ}

/-! ## The ranges -/

theorem rangeLoop_eq_some (dl : ChunkDownloader) (rounds offset : ℕ) (chunks : List (ℕ × ℕ))
    (bound : offset ≤ total) (enough : total - offset < rounds) :
    ∃ rs, dl.rangeLoop total rounds offset chunks = some (chunks ++ rs) ∧
      Patch.Tiles total offset rs ∧ ∀ r ∈ rs, r.2 + 1 - r.1 ≤ dl.chunkSize := by
  have positive := dl.positive
  induction rounds generalizing offset chunks with
  | zero => omega
  | succ rounds ih =>
    unfold rangeLoop
    by_cases more : offset < total
    · rw [if_pos more]
      dsimp only
      obtain ⟨stop, hstop⟩ : ∃ stop, stop = min (offset + dl.chunkSize - 1) (total - 1) := ⟨_, rfl⟩
      rw [← hstop]
      obtain ⟨rs, hrs, tiles, small⟩ :=
        ih (stop + 1) (chunks ++ [(offset, stop)]) (by omega) (by omega)
      refine ⟨(offset, stop) :: rs, ?_, ⟨rfl, ?_, ?_, tiles⟩, ?_⟩
      · rw [hrs, List.append_assoc, List.singleton_append]
      · dsimp only
        omega
      · dsimp only
        omega
      · intro r hr
        rcases List.mem_cons.1 hr with rfl | hr
        · dsimp only
          omega
        · exact small r hr
    · rw [if_neg more]
      exact ⟨[], by simp, show offset = total by omega, by simp⟩

/-- The loop ends, with ranges of at most one chunk each that make up the file. -/
theorem ranges_eq_some (dl : ChunkDownloader) (total : ℕ) : ∃ rs, dl.ranges total = some rs ∧
    Patch.Tiles total 0 rs ∧ ∀ r ∈ rs, r.2 + 1 - r.1 ≤ dl.chunkSize := by
  obtain ⟨rs, hrs, tiles, small⟩ :=
    rangeLoop_eq_some dl (total + 1) 0 [] (Nat.zero_le total) (by omega)
  exact ⟨rs, hrs, tiles, small⟩

/-! ## The tasks -/

/-- The tasks finish when every request is answered. -/
theorem fetchChunks_isOk_iff (st : Progress) (schedule : List (ℕ × ℕ)) :
    (fetchChunks remote total st schedule).1 = .ok () ↔
      ∀ r ∈ schedule, ∃ data, remote.range r = .ok data := by
  induction schedule generalizing st with
  | nil => simp [fetchChunks]
  | cons r rest ih =>
    rw [List.forall_mem_cons]
    unfold fetchChunks
    cases hr : remote.range r with
    | error e => simp
    | ok data => simpa using ih (writeChunk total st r.1 data)

/-- The calls of `on_progress` so far grow up to the count. -/
structure Growing (total : ℕ) (st : Progress) : Prop where
  increasing : (st.calls.map Prod.fst).Pairwise (· < ·)
  bounded : ∀ c ∈ st.calls, c.1 ≤ st.downloaded
  last : 0 < st.downloaded → st.calls.getLast? = some (st.downloaded, (total : ℤ))

theorem Growing.writeChunk {st : Progress} (h : Growing total st) (start : ℕ) {data : Bytes}
    (grows : 0 < data.length) : Growing total (writeChunk total st start data) := by
  obtain ⟨pairwise, bounded, -⟩ := h
  refine ⟨?_, ?_, fun _ => by simp [ChunkDownloader.writeChunk]⟩
  · simp only [ChunkDownloader.writeChunk, List.map_append, List.map_cons, List.map_nil]
    refine List.pairwise_append.2 ⟨pairwise, List.pairwise_singleton .., ?_⟩
    intro a ha b hb
    obtain ⟨c, hc, rfl⟩ := List.mem_map.1 ha
    obtain rfl := List.mem_singleton.1 hb
    have := bounded c hc
    omega
  · intro c hc
    rcases List.mem_append.1 hc with hc | hc
    · have := bounded c hc
      simp only [ChunkDownloader.writeChunk]
      omega
    · obtain rfl := List.mem_singleton.1 hc
      exact Nat.le_refl _

/-- The server answers each range of the content with its bytes. -/
def Serves (remote : Remote) (content : Bytes) : Prop :=
  ∀ r : ℕ × ℕ, r.1 ≤ r.2 → r.2 < content.length →
    remote.range r = .ok (Patch.part content r.1 r.2)

/-- The tasks write the parts of the content and count its bytes. -/
theorem fetchChunks_of_serves {content : Bytes} (serves : Serves remote content)
    {st : Progress} (growing : Growing total st) (schedule : List (ℕ × ℕ))
    (proper : ∀ r ∈ schedule, r.1 ≤ r.2 ∧ r.2 < content.length) :
    ∃ st', fetchChunks remote total st schedule = (.ok (), st') ∧
      st'.file = Patch.writeParts 0 content st.file schedule ∧
      st'.downloaded = st.downloaded + (schedule.map fun r => r.2 + 1 - r.1).sum ∧
      Growing total st' := by
  induction schedule generalizing st with
  | nil => exact ⟨st, rfl, rfl, rfl, growing⟩
  | cons r rest ih =>
    obtain ⟨order, bound⟩ := proper r (List.mem_cons_self ..)
    have length : (Patch.part content r.1 r.2).length = r.2 + 1 - r.1 := Patch.length_part bound
    have grown := growing.writeChunk r.1 (show 0 < (Patch.part content r.1 r.2).length by omega)
    obtain ⟨st', hst', file, count, growing'⟩ :=
      ih grown fun r hr => proper r (List.mem_cons_of_mem _ hr)
    refine ⟨st', ?_, file, ?_, growing'⟩
    · rw [fetchChunks, serves r order bound]
      exact hst'
    · have counted : (writeChunk total st r.1 (Patch.part content r.1 r.2)).downloaded =
          st.downloaded + (r.2 + 1 - r.1) := congrArg (st.downloaded + ·) length
      rw [count, counted, List.map_cons, List.sum_cons]
      omega

/-- Every range request is answered with its bytes: the ranges partition the content into pieces of
at most one chunk, and whatever the order in which the tasks finish, they leave the content at the
destination and report growing counts that end at its size. -/
theorem fetchChunks_exact (dl : ChunkDownloader) (content : Bytes)
    (large : 2 * dl.chunkSize ≤ content.length) (remote : Remote)
    (serves : Serves remote content) :
    ∃ rs, dl.ranges content.length = some rs ∧
      (∀ r ∈ rs, r.1 ≤ r.2 ∧ r.2 + 1 - r.1 ≤ dl.chunkSize) ∧
      rs.IsChain (fun a b => b.1 = a.2 + 1) ∧ rs.Pairwise (fun a b => a.2 < b.1) ∧
      (∀ i, (∃ r ∈ rs, r.1 ≤ i ∧ i ≤ r.2) ↔ i < content.length) ∧
      ∀ schedule, schedule.Perm rs → ∃ st,
        fetchChunks remote content.length (preallocated content.length) schedule = (.ok (), st) ∧
        st.file = content ∧ (st.calls.map Prod.fst).Pairwise (· < ·) ∧
        st.calls.getLast? = some (content.length, (content.length : ℤ)) := by
  have positive := dl.positive
  obtain ⟨rs, hrs, tiles, small⟩ := ranges_eq_some dl content.length
  refine ⟨rs, hrs, fun r hr => ⟨(tiles.mem hr).2.1, small r hr⟩, tiles.isChain, tiles.pairwise,
    fun i => by simpa using tiles.covers_iff i, fun schedule perm => ?_⟩
  have blank : Growing content.length (preallocated content.length) :=
    ⟨.nil, by simp [preallocated], fun h => absurd h (Nat.lt_irrefl 0)⟩
  obtain ⟨st, hst, file, count, growing⟩ := fetchChunks_of_serves serves blank schedule
    fun r hr => (tiles.mem (perm.mem_iff.1 hr)).2
  have written : st.file = content := by
    rw [file]
    exact Patch.writeParts_eq 0 (by simp [preallocated]) tiles perm
  have counted : st.downloaded = content.length := by
    rw [count, (perm.map _).sum_eq, ← tiles.sum_length]
    rfl
  refine ⟨st, hst, written, growing.increasing, ?_⟩
  rw [growing.last (by omega), counted]

/-- A server that has the content and says nothing wrong about it. -/
def mirror (content : Bytes) : Remote where
  head := .ok ⟨.ok content.length, some "bytes"⟩
  get := .ok ⟨[content], none⟩
  range r := .ok (Patch.part content r.1 r.2)

/-- Five bytes in chunks of two, the last one first. -/
theorem fetchChunks_exact_reversed : ∃ st,
    fetchChunks (mirror [1, 2, 3, 4, 5]) 5 (preallocated 5) [(4, 4), (2, 3), (0, 1)] =
      (.ok (), st) ∧ st.file = [1, 2, 3, 4, 5] := by
  obtain ⟨rs, hrs, -, -, -, -, written⟩ := fetchChunks_exact ⟨2, by decide⟩ [1, 2, 3, 4, 5]
    (by decide) (mirror [1, 2, 3, 4, 5]) fun _ _ _ => rfl
  obtain rfl := Option.some.inj (hrs.symm.trans (show _ = some [(0, 1), (2, 3), (4, 4)] from rfl))
  obtain ⟨st, hst, file, -, -⟩ := written [(4, 4), (2, 3), (0, 1)] (by decide)
  exact ⟨st, hst, file⟩

/-! ## What the caller of `download` may rely on -/

/-- The schedule orders the range requests of the download, if it makes any. -/
def Schedules (dl : ChunkDownloader) (remote : Remote) (schedule : List (ℕ × ℕ)) : Prop :=
  ∀ h total, remote.head = .ok h → h.contentLength = .ok total → ¬ dl.Simple h total →
    ∃ rs, dl.ranges total.toNat = some rs ∧ schedule.Perm rs

/-- A normal return leaves a file with the expected hash, and a raise leaves no file. -/
def Guaranteed (sha256 : Bytes → String) (expectedSha256 : String)
    (result : Except PyExc Unit × Option Bytes) : Prop :=
  (result.1 = .ok () → ∃ file, result.2 = some file ∧ sha256 file = expectedSha256) ∧
    ∀ e, result.1 = .error e → result.2 = none

/-- What the server and the destination have to be like: a download that fails before it opens its
file finds none there; one that streams gets the whole expected body; in one that fetches ranges, no
request raises. -/
def Trustworthy (dl : ChunkDownloader) (sha256 : Bytes → String) (remote : Remote)
    (before : Option Bytes) (expectedSha256 : String) : Prop :=
  match remote.head with
  | .error _ => before = none
  | .ok h =>
    match h.contentLength with
    | .error _ => before = none
    | .ok total =>
      if dl.Simple h total then
        match remote.get with
        | .error _ => before = none
        | .ok body => body.interrupted = none ∧ sha256 body.pieces.flatten = expectedSha256
      else ∀ rs, dl.ranges total.toNat = some rs → ∀ r ∈ rs, ∃ data, remote.range r = .ok data

theorem guaranteed_error_iff {expectedSha256 : String} {e : PyExc} {file : Option Bytes} :
    Guaranteed sha256 expectedSha256 (.error e, file) ↔ file = none := by
  constructor
  · exact fun h => h.2 e rfl
  · exact fun h => ⟨nofun, fun _ _ => h⟩

theorem guaranteed_ok_iff {expectedSha256 : String} {file : Bytes} :
    Guaranteed sha256 expectedSha256 (.ok (), some file) ↔ sha256 file = expectedSha256 := by
  constructor
  · intro h
    obtain ⟨_, hfile, same⟩ := h.1 rfl
    obtain rfl := Option.some.inj hfile
    exact same
  · exact fun h => ⟨fun _ => ⟨file, rfl, h⟩, nofun⟩

theorem file_writePieces (total : ℤ) (pieces : List Bytes) :
    (writePieces total pieces).file = pieces.flatten := by
  have acc (st : Progress) : (pieces.foldl (fun st chunk =>
      let downloaded := st.downloaded + chunk.length
      ⟨st.file ++ chunk, downloaded, st.calls ++ [(downloaded, total)]⟩) st).file =
        st.file ++ pieces.flatten := by
    induction pieces generalizing st with
    | nil => simp
    | cons chunk pieces ih =>
      rw [List.foldl_cons, ih, List.flatten_cons, List.append_assoc]
  exact acc ⟨[], 0, []⟩

theorem simpleDownload_guaranteed_iff (remote : Remote) (total : ℤ) (before : Option Bytes)
    (expectedSha256 : String) :
    Guaranteed sha256 expectedSha256 (simpleDownload remote total before) ↔
      match remote.get with
      | .error _ => before = none
      | .ok body => body.interrupted = none ∧ sha256 body.pieces.flatten = expectedSha256 := by
  unfold simpleDownload
  cases remote.get with
  | error e => exact guaranteed_error_iff
  | ok body =>
    dsimp only
    cases body.interrupted with
    | some e =>
      rw [guaranteed_error_iff]
      simp
    | none =>
      rw [guaranteed_ok_iff, file_writePieces]
      simp

theorem chunkedDownload_guaranteed_iff {expectedSha256 : String} (given : expectedSha256 ≠ "")
    (schedule : List (ℕ × ℕ)) :
    Guaranteed sha256 expectedSha256
        (chunkedDownload sha256 remote total expectedSha256 schedule) ↔
      ∀ r ∈ schedule, ∃ data, remote.range r = .ok data := by
  rw [← fetchChunks_isOk_iff (preallocated total) schedule]
  unfold chunkedDownload
  generalize fetchChunks remote total (preallocated total) schedule = result
  obtain ⟨out, st⟩ := result
  cases out with
  | error e =>
    rw [guaranteed_error_iff]
    simp
  | ok u =>
    dsimp only
    split_ifs with mismatch
    · rw [guaranteed_error_iff]
      simp
    · rw [guaranteed_ok_iff]
      have same : sha256 st.file = expectedSha256 := by
        by_contra h
        exact mismatch ⟨given, h⟩
      simp [same]

/-- A download with an expected hash keeps its promise exactly when the server and the destination
are trustworthy: only the chunked path looks at the hash, and no path removes what a failed request
leaves behind. -/
theorem download_guaranteed_iff (dl : ChunkDownloader) (sha256 : Bytes → String) (remote : Remote)
    (before : Option Bytes) (expectedSha256 : String) (given : expectedSha256 ≠ "")
    (schedule : List (ℕ × ℕ)) (schedules : dl.Schedules remote schedule) :
    Guaranteed sha256 expectedSha256 (dl.download sha256 remote before expectedSha256 schedule) ↔
      dl.Trustworthy sha256 remote before expectedSha256 := by
  unfold download Trustworthy
  cases hhead : remote.head with
  | error e => exact guaranteed_error_iff
  | ok h =>
    dsimp only
    cases htotal : h.contentLength with
    | error e => exact guaranteed_error_iff
    | ok total =>
      dsimp only
      split_ifs with simple
      · exact simpleDownload_guaranteed_iff remote total before expectedSha256
      · obtain ⟨rs, hrs, perm⟩ := schedules h total hhead htotal simple
        rw [chunkedDownload_guaranteed_iff given, hrs]
        simp only [Option.some.injEq, forall_eq', perm.mem_iff]

/-- The empty file from a server without ranges. -/
theorem download_guaranteed_iff_empty :
    Guaranteed sampleSha256 emptySha256 ((ChunkDownloader.mk 2 (by decide)).download sampleSha256
      (mirror []) (some [7]) emptySha256 []) := by
  refine (download_guaranteed_iff _ sampleSha256 (mirror []) (some [7]) emptySha256 (by decide) []
    ?_).2 ⟨rfl, rfl⟩
  intro h total hhead htotal large
  obtain rfl := Except.ok.inj hhead
  obtain rfl := Except.ok.inj htotal
  exact absurd (Or.inr (by decide)) large

/-- A server without ranges that answers every `GET` with the body `no`. -/
def refusal : Remote where
  head := .ok ⟨.ok 5, none⟩
  get := .ok ⟨[[110, 111]], none⟩
  range _ := .ok [110, 111]

/-- A server of five bytes that fails on the last range. -/
def faltering : Remote where
  head := .ok ⟨.ok 5, some "bytes"⟩
  get := .ok ⟨[[1, 2, 3, 4, 5]], none⟩
  range r :=
    if r = (4, 4) then .error (.other "ReadTimeout") else .ok (Patch.part [1, 2, 3, 4, 5] r.1 r.2)

/-- Under no hash function is a file checked, or removed after a failure: on the simple path a
wrong body is returned as the file; on the chunked path a request that raises leaves the
pre-allocated file behind. -/
theorem download_not_guaranteed : ¬ ∃ sha256 : Bytes → String,
    (∀ (dl : ChunkDownloader) (remote : Remote) (before : Option Bytes) (expectedSha256 : String)
      (schedule : List (ℕ × ℕ)), expectedSha256 ≠ "" → dl.Schedules remote schedule →
        ∀ file, dl.download sha256 remote before expectedSha256 schedule = (.ok (), some file) →
          sha256 file = expectedSha256) ∨
    ∀ (dl : ChunkDownloader) (remote : Remote) (expectedSha256 : String)
      (schedule : List (ℕ × ℕ)), expectedSha256 ≠ "" → dl.Schedules remote schedule →
        ∀ e file, dl.download sha256 remote none expectedSha256 schedule = (.error e, file) →
          file = none := by
  rintro ⟨sha256, checked | removed⟩
  · have schedules : (ChunkDownloader.mk 2 (by decide)).Schedules refusal [] := by
      intro h total hhead _ large
      obtain rfl := Except.ok.inj hhead
      exact absurd (Or.inl (by decide)) large
    have other : sha256 [110, 111] ++ "0" ≠ "" := by simp
    have same := checked _ refusal none _ [] other schedules [110, 111] rfl
    have length := congrArg String.length same
    simp at length
  · have schedules : (ChunkDownloader.mk 2 (by decide)).Schedules faltering
        [(0, 1), (2, 3), (4, 4)] := by
      intro h total hhead htotal _
      obtain rfl := Except.ok.inj hhead
      obtain rfl := Except.ok.inj htotal
      exact ⟨_, rfl, List.Perm.refl _⟩
    have gone := removed _ faltering "00" _ (by decide) schedules _ (some [1, 2, 3, 4, 0]) rfl
    cases gone

end ChunkDownloader

end Cpip
