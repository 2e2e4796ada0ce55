import Cpip.Lib.Patch
import Cpip.Python.Value

/-!
# The chunk downloader (`virtualization/fetcher.py`)

The server is everything that the requests of one download meet: an answer or an exception for each,
whatever its status.  The tasks of a chunked download write one after the other, each in one piece,
so a schedule is the order in which their requests are answered.  Once one of them raises, `gather`
passes it on; the tasks that are still running are not waited for.

The only file that matters is the one at `dest`; writing to it does not fail.
-/

namespace Cpip

/-- `ChunkDownloader`; `max_concurrent` bounds which schedules there are. -/
structure ChunkDownloader where
  chunkSize : ℕ
  positive : 1 ≤ chunkSize

/-- What the response to the `HEAD` request says: `int(headers.get("content-length", 0))`, which may
raise, and `headers.get("accept-ranges")`. -/
structure HeadResponse where
  contentLength : Except PyExc ℤ
  acceptRanges : Option String

/-- The pieces in which a response body arrives, and the exception that cuts it short, if any. -/
structure StreamedBody where
  pieces : List Bytes
  interrupted : Option PyExc

/-- What the requests of a download meet.  `range` answers each range request with a body. -/
structure Remote where
  head : Except PyExc HeadResponse
  get : Except PyExc StreamedBody
  range : ℕ × ℕ → Except PyExc Bytes

namespace ChunkDownloader

variable (dl : ChunkDownloader)

/-- A download in progress: the file at `dest`, the bytes counted and the calls of `on_progress`. -/
structure Progress where
  file : Bytes
  downloaded : ℕ
  calls : List (ℕ × ℤ)

/-! ## The two paths -/

/-- The loop of `_simple_download`. -/
def writePieces (total : ℤ) (pieces : List Bytes) : Progress :=
  pieces.foldl (fun st chunk =>
    let downloaded := st.downloaded + chunk.length
    ⟨st.file ++ chunk, downloaded, st.calls ++ [(downloaded, total)]⟩) ⟨[], 0, []⟩

/-- `_simple_download`: what it raises, and the file afterwards. -/
def simpleDownload (remote : Remote) (total : ℤ) (before : Option Bytes) :
    Except PyExc Unit × Option Bytes :=
  match remote.get with
  | .error e => (.error e, before)
  | .ok body =>
    let st := writePieces total body.pieces
    match body.interrupted with
    | some e => (.error e, some st.file)
    | none => (.ok (), some st.file)

/-- The loop that lists the ranges, when it ends within the given number of rounds. -/
def rangeLoop (total : ℕ) : ℕ → ℕ → List (ℕ × ℕ) → Option (List (ℕ × ℕ))
  | 0, _, _ => none
  | rounds + 1, offset, chunks =>
    if offset < total then
      let stop := min (offset + dl.chunkSize - 1) (total - 1)
      rangeLoop total rounds (stop + 1) (chunks ++ [(offset, stop)])
    else some chunks

/-- The ranges of a chunked download: a round of the loop for each byte is enough. -/
def ranges (total : ℕ) : Option (List (ℕ × ℕ)) := dl.rangeLoop total (total + 1) 0 []

/-- What `fetch_chunk` does with a response while it holds the lock. -/
def writeChunk (total : ℕ) (st : Progress) (start : ℕ) (data : Bytes) : Progress :=
  let downloaded := st.downloaded + data.length
  ⟨Patch.writeAt 0 st.file start data, downloaded, st.calls ++ [(downloaded, (total : ℤ))]⟩

/-- The tasks in the order in which they are answered, up to the first that raises. -/
def fetchChunks (remote : Remote) (total : ℕ) :
    Progress → List (ℕ × ℕ) → Except PyExc Unit × Progress
  | st, [] => (.ok (), st)
  | st, r :: rest =>
    match remote.range r with
    | .error e => (.error e, st)
    | .ok data => fetchChunks remote total (writeChunk total st r.1 data) rest

/-- The file of `total` zero bytes that the tasks write to. -/
def preallocated (total : ℕ) : Progress := ⟨List.replicate total 0, 0, []⟩

/-- `s[:16]`. -/
def first16 (s : String) : String := String.ofList (s.toList.take 16)

/-- `_chunked_download` after the ranges are listed. -/
def chunkedDownload (sha256 : Bytes → String) (remote : Remote) (total : ℕ)
    (expectedSha256 : String) (schedule : List (ℕ × ℕ)) : Except PyExc Unit × Option Bytes :=
  match fetchChunks remote total (preallocated total) schedule with
  | (.error e, st) => (.error e, some st.file)
  | (.ok (), st) =>
    if expectedSha256 ≠ "" ∧ sha256 st.file ≠ expectedSha256 then
      (.error (.valueError ("Hash mismatch: expected " ++ first16 expectedSha256 ++ "..., got " ++
        first16 (sha256 st.file) ++ "...")), none)
    else (.ok (), some st.file)

/-- The download takes one stream: no ranges, or a size below two chunks. -/
def Simple (h : HeadResponse) (total : ℤ) : Prop :=
  h.acceptRanges ≠ some "bytes" ∨ total < dl.chunkSize * 2

instance (h : HeadResponse) (total : ℤ) : Decidable (dl.Simple h total) :=
  inferInstanceAs (Decidable (_ ∨ _))

/-- `download` with the file at `dest` before it, where `schedule` orders the range requests. -/
def download (sha256 : Bytes → String) (remote : Remote) (before : Option Bytes)
    (expectedSha256 : String) (schedule : List (ℕ × ℕ)) : Except PyExc Unit × Option Bytes :=
  match remote.head with
  | .error e => (.error e, before)
  | .ok h =>
    match h.contentLength with
    | .error e => (.error e, before)
    | .ok total =>
      if dl.Simple h total then simpleDownload remote total before
      else chunkedDownload sha256 remote total.toNat expectedSha256 schedule

end ChunkDownloader

end Cpip
