/-
Range requests to Google Drive and the proxy that stitches their responses
(`google_drive_service.py`).

An open-ended request is answered from bounded windows: the iterator passes the first response on,
then asks for the window after the one that the response announced.  Each `Window` is one response
with the validator calls made before it; `nextWindow` is what the loop does after passing one on.
The upstream and the validator are parameters of the `Transport`.
-/
import Elvern.AuthTables

namespace Drive

/-! ### Header values -/

/-- `\s` on the Latin-1 text of a header -/
def latin1Space (c : Char) : Bool :=
  c = ' ' || ('\t' ≤ c && c ≤ '\r') || ('\x1c' ≤ c && c ≤ '\x1f') || c = '\x85' || c = '\xa0'

def stripHeader (text : String) : List Char :=
  ((text.toList.dropWhile latin1Space).reverse.dropWhile latin1Space).reverse

/-- `int(…)` of the digits `\d+` at the front, with the text after them; more than 4300 digits are
a `ValueError`. -/
def leadingInt (text : List Char) : Option (ℕ × List Char) :=
  let digits := text.takeWhile Char.isDigit
  if digits = [] ∨ 4300 < digits.length then none
  else some (Nat.ofDigitChars 10 digits 0, text.dropWhile Char.isDigit)

/-- `_parse_open_ended_byte_range` -/
def parseOpenEndedByteRange (rangeHeader : Option String) : Option ℕ :=
  let candidate := stripHeader (rangeHeader.getD "")
  if candidate = [] then some 0
  else if candidate.take 6 = "bytes=".toList then
    match leadingInt (candidate.drop 6) with
    | some (start, ['-']) => some start
    | _ => none
  else none

/-- `_parse_content_range` -/
def parseContentRange (value : Option String) : Option (ℕ × ℕ × ℕ) :=
  let text := stripHeader (value.getD "")
  let afterUnit := text.drop 5
  if (text.take 5).map Char.toLower = "bytes".toList ∧ (afterUnit.head?.any latin1Space) = true then
    match leadingInt (afterUnit.dropWhile latin1Space) with
    | some (start, '-' :: rest) =>
      match leadingInt rest with
      | some (stop, '/' :: rest) =>
        match leadingInt rest with
        | some (total, []) => if stop < start ∨ total = 0 then none else some (start, stop, total)
        | _ => none
      | _ => none
    | _ => none
  else none

/-- `_bounded_google_drive_range` -/
def boundedGoogleDriveRange (start : ℕ) (total : Option ℕ) (windowSize : ℕ) : String :=
  let stop := start + max windowSize 1 - 1
  let stop := match total with
    | none => stop
    | some total => min stop (max (total - 1) start)
  "bytes=" ++ toString start ++ "-" ++ toString stop

/-! ### Upstream responses -/

/-- What `safe_urlopen` returns: its status, its headers, and what successive calls of `read(size)`
return. -/
structure Response where
  status : ℕ
  headers : String → Option String
  read : ℕ → List (List UInt8)

/-- The world of one proxied request. -/
structure Transport where
  /-- The answer to the request of this number with this `Range` header, or what is raised. -/
  urlopen : ℕ → String → Except PyError Response
  /-- The answers of `stream_validator`, call by call, if there is one. -/
  streamValidator : Option (ℕ → Bool)
  chunkSize : ℕ
  validatedChunkSize : Option ℕ
  /-- `mimetypes.guess_type` of the filename -/
  guessedType : Option String

/-- `GOOGLE_DRIVE_BOUNDED_STREAM_RANGE_CHUNK_SIZE` -/
def boundedStreamRangeChunkSize : ℕ := 8 * 1024 * 1024

/-- `VALIDATED_UPSTREAM_STREAM_DEFAULT_CHUNK_SIZE` -/
def validatedUpstreamDefaultChunkSize : ℕ := 64 * 1024

namespace Transport

variable (t : Transport)

/-- `resolve_effective_upstream_chunk_size` -/
def effectiveChunkSize : ℕ :=
  match t.streamValidator with
  | none => t.chunkSize
  | some _ =>
    match t.validatedChunkSize with
    | some size => if 0 < size then size else validatedUpstreamDefaultChunkSize
    | none => validatedUpstreamDefaultChunkSize

def rangeWindowSize : ℕ :=
  max (max t.chunkSize (t.validatedChunkSize.getD 0)) boundedStreamRangeChunkSize

/-- The answer of the validator to its call of this number; without one the stream stays valid. -/
def valid (call : ℕ) : Bool :=
  match t.streamValidator with
  | none => true
  | some validator => validator call

/-- `_iter_upstream_response`: the chunks it yields, and the number of the validator's next call. -/
def iterUpstreamResponse : List (List UInt8) → ℕ → List (List UInt8) × ℕ
  | [], call => ([], call + 1)
  | chunk :: reads, call =>
    -- the validator is asked before the read, and again before the chunk is passed on
    if t.valid call = false then ([], call + 1)
    else if chunk = [] then ([], call + 1)
    else if t.valid (call + 1) = false then ([], call + 2)
    else
      let rest := iterUpstreamResponse reads (call + 2)
      (chunk :: rest.1, rest.2)

end Transport

/-- A window: a response with its announced range and total size, the number of the next request,
and the number of the next validator call. -/
structure Window where
  start : ℕ
  stop : ℕ
  total : ℕ
  reads : List (List UInt8)
  request : ℕ
  call : ℕ

namespace Transport

variable (t : Transport)

/-- What a window passes on. -/
def passedOn (w : Window) : List (List UInt8) := (t.iterUpstreamResponse w.reads w.call).1

/-- The loop body of `_iter_stitched_google_drive_ranges` after a window has been passed on; `none`
where it breaks. -/
def nextWindow (w : Window) : Option Window :=
  let call := (t.iterUpstreamResponse w.reads w.call).2
  if t.valid call = false then none
  else if w.total ≤ w.stop + 1 then none
  else
    match t.urlopen w.request
        (boundedGoogleDriveRange (w.stop + 1) (some w.total) t.rangeWindowSize) with
    | .error _ => none
    | .ok upstream =>
      match parseContentRange (upstream.headers "Content-Range") with
      | none => none
      | some (start, stop, total) =>
        if start ≠ w.stop + 1 then none
        else some ⟨start, stop, total, upstream.read t.effectiveChunkSize, w.request + 1, call + 1⟩

/-- `_iter_stitched_google_drive_ranges` from a window on: the chunks it yields, or `none` if it
takes more than `rounds` windows. -/
def iterStitchedGoogleDriveRanges : ℕ → Window → Option (List (List UInt8))
  | 0, _ => none
  | rounds + 1, w =>
    match t.nextWindow w with
    | none => some (t.passedOn w)
    | some next => (iterStitchedGoogleDriveRanges rounds next).map (t.passedOn w ++ ·)

end Transport

/-- `StreamingResponse`; the body is what the iterator yields if it ends within so many rounds. -/
structure StreamingResponse where
  headers : List (String × String)
  mediaType : String
  statusCode : ℕ
  body : ℕ → Option (List (List UInt8))

def StreamingResponse.header (reply : StreamingResponse) (name : String) : Option String :=
  reply.headers.lookup name

/-- `proxy_google_drive_file_response` -/
def proxyGoogleDriveFileResponse (t : Transport) (rangeHeader : Option String) :
    Except PyError StreamingResponse := do
  let stitchStart := parseOpenEndedByteRange rangeHeader
  let upstreamRangeHeader := match stitchStart with
    | some start => boundedGoogleDriveRange start none t.rangeWindowSize
    | none => String.ofList (stripHeader (rangeHeader.getD ""))
  let upstream ← t.urlopen 0 upstreamRangeHeader
  let base :=
    [("Accept-Ranges", (upstream.headers "Accept-Ranges").getD "bytes"),
      ("Cache-Control", "private, max-age=0, must-revalidate")]
  let passed := (["Content-Length", "Content-Range"].filterMap fun name =>
    ((upstream.headers name).filter fun value => decide (value ≠ "")).map (Prod.mk name))
  let mediaType := ((upstream.headers "Content-Type").filter fun value => decide (value ≠ "")).getD
    (t.guessedType.getD "application/octet-stream")
  match stitchStart, parseContentRange (upstream.headers "Content-Range") with
  | some start, some (firstStart, firstStop, total) =>
    return {
      headers := base ++
        [("X-Elvern-Cloud-Range-Fallback", upstreamRangeHeader),
          ("Content-Range", "bytes " ++ toString start ++ "-" ++ toString (total - 1) ++ "/" ++
            toString total),
          ("Content-Length", toString (total - start))]
      mediaType := mediaType
      statusCode := upstream.status
      body := fun rounds => t.iterStitchedGoogleDriveRanges rounds
        ⟨firstStart, firstStop, total, upstream.read t.effectiveChunkSize, 1, 0⟩ }
  | some _, none =>
    return {
      headers := base ++ [("X-Elvern-Cloud-Range-Fallback", upstreamRangeHeader)] ++ passed
      mediaType := mediaType
      statusCode := upstream.status
      body := fun _ => some (t.iterUpstreamResponse (upstream.read t.effectiveChunkSize) 0).1 }
  | none, _ =>
    return {
      headers := base ++ passed
      mediaType := mediaType
      statusCode := upstream.status
      body := fun _ => some (t.iterUpstreamResponse (upstream.read t.effectiveChunkSize) 0).1 }

end Drive
