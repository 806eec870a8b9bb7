import Mathlib

/-! # The libcurl fetcher

`libcurl_http_fetcher.cc`. A request that starts at an offset is answered with the rest of the
resource, in order; libcurl hands it over in chunks, and a connection may end after any of them. What
the main loop waits for and data that is posted are left out, and the delegate is there.
-/

namespace ChromiumOS.UpdateEngine

/-- A libcurl handle: the offset asked for, and how many bytes were handed over. -/
structure CurlHandle where
  resume_from : ℕ
  received : ℕ
  deriving DecidableEq

/-- The fetcher, with what its delegate received in the current transfer, and what the delegate had
received of which url at each successful `TransferComplete`. -/
structure LibcurlHttpFetcher where
  url_ : String
  curl_handle_ : Option CurlHandle
  transfer_in_progress_ : Bool
  transfer_size_ : ℤ
  bytes_downloaded_ : ℤ
  resume_offset_ : ℤ
  received : List UInt8
  completions : List (String × List UInt8)
  deriving DecidableEq

/-- What happens to a fetcher. A turn of `CurlPerformOnce` is what libcurl does until it returns: the
chunks it hands over, and whether the transfer still runs. -/
inductive FetcherOperation where
  | BeginTransfer (url : String)
  | CurlPerformOnce (chunks : List ℕ+) (running : Bool)
  | Pause
  | Unpause
  | TerminateTransfer
  deriving DecidableEq

namespace LibcurlHttpFetcher

/-- The sizes are not set before `BeginTransfer`. -/
def new (transfer_size_ bytes_downloaded_ resume_offset_ : ℤ) : LibcurlHttpFetcher where
  url_ := ""
  curl_handle_ := none
  transfer_in_progress_ := false
  transfer_size_
  bytes_downloaded_
  resume_offset_
  received := []
  completions := []

/-- `ResumeTransfer` up to its turn of `CurlPerformOnce`. -/
def ResumeTransfer (fetcher : LibcurlHttpFetcher) (url : String) : Option LibcurlHttpFetcher :=
  if fetcher.transfer_in_progress_ then none
  else
    let fetcher := { fetcher with url_ := url, transfer_in_progress_ := true }
    if fetcher.bytes_downloaded_ > 0 then
      some { fetcher with
        resume_offset_ := fetcher.bytes_downloaded_
        curl_handle_ := some { resume_from := fetcher.bytes_downloaded_.toNat, received := 0 } }
    else some { fetcher with curl_handle_ := some { resume_from := 0, received := 0 } }

def BeginTransfer (fetcher : LibcurlHttpFetcher) (url : String) : Option LibcurlHttpFetcher :=
  ResumeTransfer
    { fetcher with transfer_size_ := -1, bytes_downloaded_ := 0, resume_offset_ := 0, received := [] } url

def CleanUp (fetcher : LibcurlHttpFetcher) : LibcurlHttpFetcher :=
  { fetcher with curl_handle_ := none, transfer_in_progress_ := false }

/-- The delegate is told that the transfer is complete. -/
def TransferComplete (fetcher : LibcurlHttpFetcher) : LibcurlHttpFetcher :=
  { fetcher with completions := fetcher.completions ++ [(fetcher.url_, fetcher.received)] }

section Server

variable (resource : String → List UInt8) (contentLength : ℕ → ℤ)

/-- The write callback, for data that came after `new_transfer_size` was announced. -/
def LibcurlWrite (fetcher : LibcurlHttpFetcher) (new_transfer_size : ℤ) (data : List UInt8) :
    LibcurlHttpFetcher :=
  { fetcher with
    transfer_size_ :=
      if new_transfer_size > 0 then fetcher.resume_offset_ + new_transfer_size else fetcher.transfer_size_
    bytes_downloaded_ := fetcher.bytes_downloaded_ + data.length
    received := fetcher.received ++ data }

/-- The rest of the resource that a handle asked for. -/
def body (fetcher : LibcurlHttpFetcher) (handle : CurlHandle) : List UInt8 :=
  (resource fetcher.url_).drop handle.resume_from

/-- libcurl hands over the next chunk, or what there is of it; it does not call back for nothing. -/
def handOver (fetcher : LibcurlHttpFetcher) (chunk : ℕ+) : Option LibcurlHttpFetcher := do
  let handle ← fetcher.curl_handle_
  let body := fetcher.body resource handle
  let data := (body.drop handle.received).take chunk
  if data = [] then some fetcher
  else
    let fetcher :=
      { fetcher with curl_handle_ := some { handle with received := handle.received + data.length } }
    some (fetcher.LibcurlWrite (contentLength body.length) data)

/-- One turn. If `ResumeTransfer` is called at its end, the turn that ends that call is the next. -/
def CurlPerformOnce (fetcher : LibcurlHttpFetcher) (chunks : List ℕ+) (running : Bool) :
    Option LibcurlHttpFetcher :=
  if !fetcher.transfer_in_progress_ then none
  else do
    let fetcher ← chunks.foldlM (handOver resource contentLength) fetcher
    if running then some fetcher
    else
      let fetcher := fetcher.CleanUp
      if fetcher.transfer_size_ ≥ 0 ∧ fetcher.bytes_downloaded_ < fetcher.transfer_size_ then
        fetcher.ResumeTransfer fetcher.url_
      else some fetcher.TransferComplete

/-- The checks of `Pause` and of `Unpause`. -/
def checkActive (fetcher : LibcurlHttpFetcher) : Option LibcurlHttpFetcher :=
  if fetcher.curl_handle_.isSome && fetcher.transfer_in_progress_ then some fetcher else none

def step (fetcher : LibcurlHttpFetcher) : FetcherOperation → Option LibcurlHttpFetcher
  | .BeginTransfer url => fetcher.BeginTransfer url
  | .CurlPerformOnce chunks running => fetcher.CurlPerformOnce resource contentLength chunks running
  | .Pause => fetcher.checkActive
  | .Unpause => fetcher.checkActive
  | .TerminateTransfer => some fetcher.CleanUp

end Server

end LibcurlHttpFetcher

end ChromiumOS.UpdateEngine
