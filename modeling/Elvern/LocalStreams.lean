/-
Range requests on local files (`media_stream.py`).

A header is parsed against the size of the file, the response announces the
bytes from `start` to `end`, and the body is read in chunks, with the validator
asked before each read and again before each chunk is passed on.

* `ByteRange`, `Denotes` -- what a header asks for, and which bytes those are;
* `parseRangeHeader_of_denotes`, `parseRangeHeader_of_not_denotes` -- what the
  parser makes of it;
* `iterFrom_spec`, `iterFrom_valid` -- the chunks are a prefix of the range, and
  all of it when the validator never says no;
* `local_range_requests` -- the response.
-/
import Mathlib.Data.List.Basic
import Mathlib.Data.List.TakeWhile
import Mathlib.Tactic.Common

namespace LocalStreams

/-- The part of the Unicode database that `str.strip`, `\d` and `int` look up:
the spaces, and the value of each decimal digit. -/
structure Alphabet where
  isSpace : Char → Bool
  decimal : Char → Option ℕ
  decimal_dash : decimal '-' = none

/-- What a request raises. -/
inductive Raised where
  | http (status : ℕ) (detail : String)
  | valueError
  deriving DecidableEq

/-- The answer 416, with its detail. -/
def notSatisfiable (detail : String) : Raised := .http 416 detail

namespace Alphabet

variable (abc : Alphabet)

/-- `str.strip()` -/
def strip (text : List Char) : List Char :=
  ((text.dropWhile abc.isSpace).reverse.dropWhile abc.isSpace).reverse

/-- `\d` -/
def isDecimal (c : Char) : Bool := (abc.decimal c).isSome

/-- The number that decimal digits denote. -/
def number (digits : List Char) : ℕ :=
  digits.foldl (fun n c => 10 * n + (abc.decimal c).getD 0) 0

/-- `int(digits)`, which refuses more than 4300 of them. -/
def toInt (digits : List Char) : Except Raised ℕ :=
  if 4300 < digits.length then .error .valueError else .ok (abc.number digits)

/-- `RANGE_PATTERN.fullmatch`, with its groups. -/
def fullmatch (text : List Char) : Option (List Char × List Char) :=
  if text.take 6 = "bytes=".toList then
    match (text.drop 6).dropWhile abc.isDecimal with
    | '-' :: endRaw =>
      if endRaw.all abc.isDecimal then some ((text.drop 6).takeWhile abc.isDecimal, endRaw)
      else none
    | _ => none
  else none

/-- `_parse_range_header`; a header of `none` is `None`. -/
def parseRangeHeader (rangeHeader : Option String) (fileSize : ℕ) :
    Except Raised (ℤ × ℤ × Bool) :=
  match rangeHeader with
  | none => .ok (0, (fileSize : ℤ) - 1, false)
  | some header =>
    if header = "" then .ok (0, (fileSize : ℤ) - 1, false)
    else
      match abc.fullmatch (abc.strip header.toList) with
      | none => .error (notSatisfiable "Invalid range header")
      | some (startRaw, endRaw) =>
        if startRaw = [] ∧ endRaw = [] then .error (notSatisfiable "Empty range header")
        else do
          let range ←
            if startRaw = [] then do
              let length ← abc.toInt endRaw
              pure (max ((fileSize : ℤ) - length) 0, (fileSize : ℤ) - 1)
            else do
              let start ← abc.toInt startRaw
              let stop ← if endRaw = [] then pure ((fileSize : ℤ) - 1)
                else (abc.toInt endRaw).map fun stop => (stop : ℤ)
              pure ((start : ℤ), stop)
          if range.2 < range.1 ∨ (fileSize : ℤ) ≤ range.1 then
            throw (notSatisfiable "Requested range is outside the file")
          return (range.1, min range.2 ((fileSize : ℤ) - 1), true)

end Alphabet

/-! ### The body -/

/-- A request: the content of the file, and what the caller passes on to the
iterator.  The validator answers its calls in order. -/
structure Request where
  file : List UInt8
  chunkSize : ℕ
  validatedChunkSize : Option ℤ
  streamValidator : Option (ℕ → Bool)
  guessedType : Option String

/-- `VALIDATED_STREAM_DEFAULT_CHUNK_SIZE` -/
def validatedStreamDefaultChunkSize : ℕ := 64 * 1024

namespace Request

variable (request : Request)

/-- `resolve_effective_stream_chunk_size` -/
def effectiveChunkSize : ℕ :=
  match request.streamValidator with
  | none => request.chunkSize
  | some _ =>
    match request.validatedChunkSize with
    | some size => if 0 < size then size.toNat else validatedStreamDefaultChunkSize
    | none => validatedStreamDefaultChunkSize

/-- The answer of the validator to its call of this number; without one the
stream stays valid. -/
def valid (call : ℕ) : Bool :=
  match request.streamValidator with
  | none => true
  | some validator => validator call

/-- The loop of `_iter_file`, from a position of the file and a call of the
validator on. -/
def iterFrom (position remaining call : ℕ) : List (List UInt8) :=
  if remaining = 0 then []
  else if request.valid call = false then []
  else
    let chunk := (request.file.drop position).take (min request.effectiveChunkSize remaining)
    if hchunk : chunk = [] then []
    else if request.valid (call + 1) = false then []
    else chunk :: iterFrom (position + chunk.length) (remaining - chunk.length) (call + 2)
  termination_by remaining
  decreasing_by
    exact Nat.sub_lt (by omega) (List.length_pos_iff.mpr hchunk)

/-- `_iter_file` -/
def iterFile (start stop : ℤ) : List (List UInt8) :=
  request.iterFrom start.toNat (stop - start + 1).toNat 0

end Request

/-- `StreamingResponse` -/
structure Response where
  statusCode : ℕ
  headers : List (String × String)
  mediaType : String
  body : List (List UInt8)

/-- `build_stream_response`, past the checks of the path. -/
def buildStreamResponse (abc : Alphabet) (request : Request) (rangeHeader : Option String) :
    Except Raised Response := do
  let (start, stop, isPartial) ← abc.parseRangeHeader rangeHeader request.file.length
  let headers :=
    [("Accept-Ranges", "bytes"), ("Content-Length", toString (stop - start + 1)),
      ("Cache-Control", "private, max-age=0, must-revalidate")]
  let contentRange := "bytes " ++ toString start ++ "-" ++ toString stop ++ "/"
    ++ toString request.file.length
  return {
    statusCode := if isPartial then 206 else 200
    headers := if isPartial then headers ++ [("Content-Range", contentRange)] else headers
    mediaType := request.guessedType.getD "application/octet-stream"
    body := request.iterFile start stop }

/-! ### What a header asks for -/

/-- The three forms of a range. -/
inductive ByteRange where
  | fromTo (first last : ℕ)
  | openEnded (first : ℕ)
  | suffix (length : ℕ)

/-- The bytes that a range selects. -/
def ByteRange.select (file : List UInt8) : ByteRange → List UInt8
  | fromTo first last => (file.take (last + 1)).drop first
  | openEnded first => file.drop first
  | suffix length => file.drop (file.length - length)

/-- Decimal digits, at least one. -/
def Alphabet.Number (abc : Alphabet) (digits : List Char) : Prop :=
  digits ≠ [] ∧ ∀ c ∈ digits, abc.isDecimal c = true

/-- The text has the form `bytes=a-b`, `bytes=a-` or `bytes=-n`. -/
inductive Denotes (abc : Alphabet) : List Char → ByteRange → Prop where
  | fromTo {first last : List Char} (hfirst : abc.Number first) (hlast : abc.Number last) :
      Denotes abc ("bytes=".toList ++ first ++ '-' :: last)
        (.fromTo (abc.number first) (abc.number last))
  | openEnded {first : List Char} (hfirst : abc.Number first) :
      Denotes abc ("bytes=".toList ++ first ++ ['-']) (.openEnded (abc.number first))
  | suffix {length : List Char} (hlength : abc.Number length) :
      Denotes abc ("bytes=".toList ++ '-' :: length) (.suffix (abc.number length))

section Parsing

variable {abc : Alphabet} {text startRaw endRaw : List Char}

theorem Alphabet.isDecimal_dash (abc : Alphabet) : abc.isDecimal '-' = false := by
  rw [isDecimal, abc.decimal_dash, Option.isSome_none]

theorem takeWhile_append_dash {digits rest : List Char}
    (hdigits : ∀ c ∈ digits, abc.isDecimal c = true) :
    (digits ++ '-' :: rest).takeWhile abc.isDecimal = digits
      ∧ (digits ++ '-' :: rest).dropWhile abc.isDecimal = '-' :: rest := by
  have hdash : ¬ abc.isDecimal '-' = true := by
    rw [abc.isDecimal_dash]
    exact Bool.false_ne_true
  constructor
  · rw [List.takeWhile_append_of_pos hdigits, List.takeWhile_cons_of_neg hdash, List.append_nil]
  · rw [List.dropWhile_append_of_pos hdigits, List.dropWhile_cons_of_neg hdash]

/-- What the pattern matches, and its groups. -/
theorem fullmatch_eq_some :
    abc.fullmatch text = some (startRaw, endRaw) ↔
      text = "bytes=".toList ++ startRaw ++ '-' :: endRaw
        ∧ (∀ c ∈ startRaw, abc.isDecimal c = true) ∧ ∀ c ∈ endRaw, abc.isDecimal c = true := by
  constructor
  · intro h
    rw [Alphabet.fullmatch] at h
    split_ifs at h with hunit
    split at h
    · next rest hrest =>
      split_ifs at h with hall
      obtain ⟨rfl, rfl⟩ := Prod.mk.inj (Option.some.inj h)
      refine ⟨?_, fun c hc => List.mem_takeWhile_imp hc, List.all_eq_true.mp hall⟩
      rw [← hunit, List.append_assoc, ← hrest, List.takeWhile_append_dropWhile,
        List.take_append_drop]
    · cases h
  · rintro ⟨rfl, hstart, hend⟩
    have hdrop : ("bytes=".toList ++ startRaw ++ '-' :: endRaw).drop 6 =
        startRaw ++ '-' :: endRaw := by
      rw [List.append_assoc]
      rfl
    have htake : ("bytes=".toList ++ startRaw ++ '-' :: endRaw).take 6 = "bytes=".toList := by
      rw [List.append_assoc]
      rfl
    obtain ⟨htakeWhile, hdropWhile⟩ := @takeWhile_append_dash abc startRaw endRaw hstart
    rw [Alphabet.fullmatch, if_pos htake, hdrop, hdropWhile, htakeWhile]
    simp only [List.all_eq_true.mpr hend, if_true]

/-- The forms of a range are what the pattern matches, one group empty at most. -/
theorem denotes_cases {range : ByteRange} (h : Denotes abc text range) :
    ∃ startRaw endRaw, abc.fullmatch text = some (startRaw, endRaw)
      ∧ (startRaw ≠ [] ∧ endRaw ≠ []
            ∧ range = .fromTo (abc.number startRaw) (abc.number endRaw)
          ∨ startRaw ≠ [] ∧ endRaw = [] ∧ range = .openEnded (abc.number startRaw)
          ∨ startRaw = [] ∧ endRaw ≠ [] ∧ range = .suffix (abc.number endRaw)) := by
  have hnil : ∀ c ∈ ([] : List Char), abc.isDecimal c = true := fun c hc =>
    absurd hc List.not_mem_nil
  cases h with
  | @fromTo first last hfirst hlast =>
    exact ⟨first, last, fullmatch_eq_some.mpr ⟨rfl, hfirst.2, hlast.2⟩,
      Or.inl ⟨hfirst.1, hlast.1, rfl⟩⟩
  | @openEnded first hfirst =>
    exact ⟨first, [], fullmatch_eq_some.mpr ⟨rfl, hfirst.2, hnil⟩,
      Or.inr (Or.inl ⟨hfirst.1, rfl, rfl⟩)⟩
  | @suffix length hlength =>
    refine ⟨[], length, fullmatch_eq_some.mpr ⟨?_, hnil, hlength.2⟩,
      Or.inr (Or.inr ⟨rfl, hlength.1, rfl⟩)⟩
    rw [List.append_nil]

theorem denotes_of_fullmatch (h : abc.fullmatch text = some (startRaw, endRaw))
    (hsome : ¬ (startRaw = [] ∧ endRaw = [])) : ∃ range, Denotes abc text range := by
  obtain ⟨rfl, hstart, hend⟩ := fullmatch_eq_some.mp h
  by_cases hstartRaw : startRaw = []
  · have hendRaw : endRaw ≠ [] := fun hendRaw => hsome ⟨hstartRaw, hendRaw⟩
    rw [hstartRaw, List.append_nil]
    exact ⟨_, .suffix ⟨hendRaw, hend⟩⟩
  · by_cases hendRaw : endRaw = []
    · rw [hendRaw]
      exact ⟨_, .openEnded ⟨hstartRaw, hstart⟩⟩
    · exact ⟨_, .fromTo ⟨hstartRaw, hstart⟩ ⟨hendRaw, hend⟩⟩

end Parsing

/-! ### The bytes of a range -/

/-- The bytes from `start` to `stop`. -/
def slice (file : List UInt8) (start stop : ℤ) : List UInt8 :=
  (file.drop start.toNat).take (stop - start + 1).toNat

/-- What the parser computes from the numbers of a range, before its check. -/
def ByteRange.bounds (fileSize : ℕ) : ByteRange → ℤ × ℤ
  | fromTo first last => (first, last)
  | openEnded first => (first, (fileSize : ℤ) - 1)
  | suffix length => (max ((fileSize : ℤ) - length) 0, (fileSize : ℤ) - 1)

theorem ByteRange.bounds_nonneg (range : ByteRange) (fileSize : ℕ) :
    0 ≤ (range.bounds fileSize).1 := by
  cases range with
  | fromTo first last => exact Int.natCast_nonneg _
  | openEnded first => exact Int.natCast_nonneg _
  | suffix length => exact Int.le_max_right _ _

/-- The check of the parser fails exactly when no byte is selected. -/
theorem ByteRange.select_eq_nil (range : ByteRange) (file : List UInt8) :
    range.select file = [] ↔
      (range.bounds file.length).2 < (range.bounds file.length).1
        ∨ (file.length : ℤ) ≤ (range.bounds file.length).1 := by
  rw [← List.length_eq_zero_iff]
  cases range with
  | fromTo first last =>
    simp only [select, bounds, List.length_drop, List.length_take]
    omega
  | openEnded first =>
    simp only [select, bounds, List.length_drop]
    omega
  | suffix length =>
    simp only [select, bounds, List.length_drop]
    omega

/-- The bounds, cut to the file, enclose the bytes that are selected. -/
theorem ByteRange.slice_bounds (range : ByteRange) (file : List UInt8)
    (hselect : range.select file ≠ []) :
    slice file (range.bounds file.length).1
      (min (range.bounds file.length).2 ((file.length : ℤ) - 1)) = range.select file := by
  rw [Ne, range.select_eq_nil, not_or] at hselect
  obtain ⟨hle, hlt⟩ := hselect
  cases range with
  | fromTo first last =>
    simp only [bounds] at hle hlt
    simp only [slice, bounds, select, List.drop_take, Int.toNat_natCast]
    rw [List.take_eq_take_iff, List.length_drop]
    omega
  | openEnded first =>
    simp only [bounds] at hle hlt
    simp only [slice, bounds, select, Int.toNat_natCast]
    apply List.take_of_length_le
    rw [List.length_drop]
    omega
  | suffix length =>
    simp only [bounds] at hle hlt
    simp only [slice, bounds, select]
    have hdrop : (max ((file.length : ℤ) - length) 0).toNat = file.length - length := by omega
    rw [hdrop]
    apply List.take_of_length_le
    rw [List.length_drop]
    omega

/-! ### What the parser answers -/

/-- No number in the text has more than 4300 digits. -/
def Alphabet.Within (abc : Alphabet) (text : List Char) : Prop :=
  ∀ digits, digits <:+: text → (∀ c ∈ digits, abc.isDecimal c = true) → digits.length ≤ 4300

theorem Alphabet.toInt_of_le {abc : Alphabet} {digits : List Char} (h : digits.length ≤ 4300) :
    abc.toInt digits = .ok (abc.number digits) := by
  rw [toInt, if_neg (by omega)]

/-- The answer of the parser to a header that is not empty. -/
theorem parseRangeHeader_of_denotes {abc : Alphabet} {header : String} {range : ByteRange}
    (fileSize : ℕ) (hheader : header ≠ "") (h : Denotes abc (abc.strip header.toList) range)
    (hwithin : abc.Within (abc.strip header.toList)) :
    abc.parseRangeHeader (some header) fileSize =
      if (range.bounds fileSize).2 < (range.bounds fileSize).1
          ∨ (fileSize : ℤ) ≤ (range.bounds fileSize).1 then
        .error (notSatisfiable "Requested range is outside the file")
      else
        .ok ((range.bounds fileSize).1,
            min (range.bounds fileSize).2 ((fileSize : ℤ) - 1), true) := by
  obtain ⟨startRaw, endRaw, hmatch, hcases⟩ := denotes_cases h
  obtain ⟨htext, hstart, hend⟩ := fullmatch_eq_some.mp hmatch
  rw [htext] at hwithin
  have hstartInt : abc.toInt startRaw = .ok (abc.number startRaw) :=
    Alphabet.toInt_of_le (hwithin startRaw ⟨_, _, rfl⟩ hstart)
  have hendInt : abc.toInt endRaw = .ok (abc.number endRaw) := by
    refine Alphabet.toInt_of_le (hwithin endRaw ⟨"bytes=".toList ++ startRaw ++ ['-'], [], ?_⟩ hend)
    rw [List.append_nil, List.append_assoc _ ['-'] endRaw]
    rfl
  have hsome : ¬ (startRaw = [] ∧ endRaw = []) := by
    obtain ⟨hs, -⟩ | ⟨hs, -⟩ | ⟨-, he, -⟩ := hcases
    · exact fun hboth => hs hboth.1
    · exact fun hboth => hs hboth.1
    · exact fun hboth => he hboth.2
  simp only [Alphabet.parseRangeHeader, if_neg hheader, hmatch, if_neg hsome]
  obtain ⟨hs, he, rfl⟩ | ⟨hs, he, rfl⟩ | ⟨hs, he, rfl⟩ := hcases
  · simp only [if_neg hs, if_neg he, hstartInt, hendInt]
    rfl
  · simp only [if_neg hs, if_pos he, hstartInt]
    rfl
  · simp only [if_pos hs, hendInt]
    rfl

theorem parseRangeHeader_of_not_denotes {abc : Alphabet} {header : String} (fileSize : ℕ)
    (hheader : header ≠ "") (h : ¬ ∃ range, Denotes abc (abc.strip header.toList) range) :
    ∃ detail, abc.parseRangeHeader (some header) fileSize = .error (notSatisfiable detail) := by
  simp only [Alphabet.parseRangeHeader, if_neg hheader]
  cases hmatch : abc.fullmatch (abc.strip header.toList) with
  | none => exact ⟨_, rfl⟩
  | some groups =>
    by_cases hnone : groups.1 = [] ∧ groups.2 = []
    · simp only [if_pos hnone]
      exact ⟨_, rfl⟩
    · exact absurd (denotes_of_fullmatch hmatch hnone) h

/-! ### The chunks -/

section Chunks

variable {request : Request}

theorem effectiveChunkSize_pos (h : 1 ≤ request.chunkSize) : 1 ≤ request.effectiveChunkSize := by
  rw [Request.effectiveChunkSize]
  split
  · exact h
  · split
    · split_ifs with hpos
      · omega
      · exact Nat.le_of_ble_eq_true rfl
    · exact Nat.le_of_ble_eq_true rfl

/-- A chunk that is read, and what remains behind it. -/
theorem take_append_take_drop (bytes : List UInt8) {size remaining : ℕ} (h : size ≤ remaining) :
    bytes.take size ++
        (bytes.drop (bytes.take size).length).take (remaining - (bytes.take size).length) =
      bytes.take remaining := by
  by_cases hlength : size ≤ bytes.length
  · rw [List.length_take_of_le hlength, ← List.take_add, Nat.add_sub_cancel' h]
  · have hall : bytes.take size = bytes := List.take_of_length_le (by omega)
    rw [hall, List.drop_length, List.take_nil, List.append_nil]
    exact (List.take_of_length_le (by omega)).symm

/-- The chunks from a position on are not empty, and a prefix of what remains. -/
theorem iterFrom_spec (position remaining call : ℕ) :
    (∀ chunk ∈ request.iterFrom position remaining call, chunk ≠ [])
      ∧ (request.iterFrom position remaining call).flatten <+:
        (request.file.drop position).take remaining := by
  fun_induction request.iterFrom position remaining call with
  | case1 | case2 | case3 | case4 =>
    exact ⟨fun chunk h => absurd h List.not_mem_nil, List.nil_prefix⟩
  | case5 position remaining call hremaining hvalid chunk hchunk hstill ih =>
    obtain ⟨hnonempty, hlater⟩ := ih
    constructor
    · intro other hother
      obtain rfl | hother := List.mem_cons.mp hother
      · exact hchunk
      · exact hnonempty other hother
    · have hread : chunk = (request.file.drop position).take
          (min request.effectiveChunkSize remaining) := rfl
      rw [List.flatten_cons, ← take_append_take_drop _ (Nat.min_le_right _ _), ← hread,
        List.drop_drop]
      exact (List.prefix_append_right_inj chunk).mpr hlater

/-- While the validator never says no, all of what remains is passed on. -/
theorem iterFrom_valid (hsize : 1 ≤ request.effectiveChunkSize)
    (hvalid : ∀ call, request.valid call = true) (position remaining call : ℕ) :
    (request.iterFrom position remaining call).flatten =
      (request.file.drop position).take remaining := by
  fun_induction request.iterFrom position remaining call with
  | case1 => rw [List.take_zero, List.flatten_nil]
  | case2 position remaining call hremaining hno =>
    rw [hvalid call] at hno
    cases hno
  | case3 position remaining call hremaining hyes chunk hchunk =>
    -- nothing is read: the file has ended
    obtain hzero | hend := List.take_eq_nil_iff.mp hchunk
    · omega
    · rw [hend, List.take_nil, List.flatten_nil]
  | case4 position remaining call hremaining hyes chunk hchunk hno =>
    rw [hvalid (call + 1)] at hno
    cases hno
  | case5 position remaining call hremaining hyes chunk hchunk hstill ih =>
    have hread : chunk = (request.file.drop position).take
        (min request.effectiveChunkSize remaining) := rfl
    rw [List.flatten_cons, ih, ← take_append_take_drop (request.file.drop position)
      (Nat.min_le_right request.effectiveChunkSize remaining), ← hread, List.drop_drop]

end Chunks

/-! ### The response -/

/-- The text of a header after `strip`; a missing header and the empty one ask
for no range. -/
def Alphabet.asked (abc : Alphabet) (rangeHeader : Option String) : Option (List Char) :=
  match rangeHeader with
  | none => none
  | some header => if header = "" then none else some (abc.strip header.toList)

/-- The response answers with these bytes of the file. -/
structure Answers (request : Request) (response : Response) (isPartial : Bool) (start stop : ℤ)
    (bytes : List UInt8) : Prop where
  slice_eq : slice request.file start stop = bytes
  statusCode : response.statusCode = if isPartial then 206 else 200
  contentLength : response.headers.lookup "Content-Length" = some (toString bytes.length)
  contentRange : response.headers.lookup "Content-Range" =
    if isPartial then some ("bytes " ++ toString start ++ "-" ++ toString stop ++ "/"
      ++ toString request.file.length) else none
  nonempty : ∀ chunk ∈ response.body, chunk ≠ []
  body_isPrefix : response.body.flatten <+: bytes
  whole : (∀ call, request.valid call = true) → response.body.flatten = bytes

/-- What the response makes of an accepted range. -/
theorem answers_of_parse {abc : Alphabet} {request : Request} {rangeHeader : Option String}
    {start stop : ℤ} {isPartial : Bool} (hsize : 1 ≤ request.chunkSize)
    (hparse : abc.parseRangeHeader rangeHeader request.file.length = .ok (start, stop, isPartial))
    (hlength : ((slice request.file start stop).length : ℤ) = stop - start + 1) :
    ∃ response, buildStreamResponse abc request rangeHeader = .ok response
      ∧ Answers request response isPartial start stop (slice request.file start stop) := by
  have htext : toString (stop - start + 1) = toString (slice request.file start stop).length := by
    rw [← hlength]
    rfl
  obtain ⟨hnonempty, hbody⟩ := @iterFrom_spec request start.toNat (stop - start + 1).toNat 0
  have hwhole : (∀ call, request.valid call = true) →
      (request.iterFile start stop).flatten = slice request.file start stop := fun hvalid =>
    iterFrom_valid (effectiveChunkSize_pos hsize) hvalid _ _ 0
  rw [buildStreamResponse, hparse]
  refine ⟨_, rfl, ?_⟩
  cases isPartial with
  | true => exact ⟨rfl, rfl, congrArg some htext, rfl, hnonempty, hbody, hwhole⟩
  | false => exact ⟨rfl, rfl, congrArg some htext, rfl, hnonempty, hbody, hwhole⟩

theorem length_slice_of_bounds {file : List UInt8} {start stop : ℤ} (hstart : 0 ≤ start)
    (hle : start ≤ stop + 1) (hstop : stop < file.length) :
    ((slice file start stop).length : ℤ) = stop - start + 1 := by
  rw [slice, List.length_take, List.length_drop]
  omega

/-- A request without a range is answered with the whole file. -/
theorem answers_whole (abc : Alphabet) {request : Request} {rangeHeader : Option String}
    (hsize : 1 ≤ request.chunkSize) (hasked : abc.asked rangeHeader = none) :
    ∃ response, buildStreamResponse abc request rangeHeader = .ok response
      ∧ Answers request response false 0 (request.file.length - 1) request.file := by
  have hparse : abc.parseRangeHeader rangeHeader request.file.length =
      .ok (0, (request.file.length : ℤ) - 1, false) := by
    unfold Alphabet.asked at hasked
    unfold Alphabet.parseRangeHeader
    split at hasked
    · rfl
    · split_ifs at hasked with hempty
      exact if_pos hempty
  have hslice : slice request.file 0 ((request.file.length : ℤ) - 1) = request.file := by
    rw [slice, Int.toNat_zero, List.drop_zero]
    apply List.take_of_length_le
    omega
  obtain ⟨response, hresponse, hanswers⟩ := answers_of_parse hsize hparse
    (length_slice_of_bounds (Int.le_refl 0) (by omega) (by omega))
  rw [hslice] at hanswers
  exact ⟨response, hresponse, hanswers⟩

/-- **Range requests.**  Without a range the response has the whole file.  Else
the request is answered 416 exactly when the header does not have one of the
three forms or selects no byte, and with exactly the selected bytes otherwise. -/
theorem local_range_requests (abc : Alphabet) (request : Request) (rangeHeader : Option String)
    (hsize : 1 ≤ request.chunkSize)
    (hwithin : ∀ text ∈ abc.asked rangeHeader, abc.Within text) :
    (abc.asked rangeHeader = none →
      ∃ response, buildStreamResponse abc request rangeHeader = .ok response
        ∧ Answers request response false 0 (request.file.length - 1) request.file)
    ∧ ∀ text ∈ abc.asked rangeHeader,
      ((∃ detail, buildStreamResponse abc request rangeHeader = .error (.http 416 detail)) ↔
        ¬ ∃ range, Denotes abc text range ∧ range.select request.file ≠ [])
      ∧ ∀ range, Denotes abc text range → range.select request.file ≠ [] →
        ∃ (response : Response) (start stop : ℤ),
          buildStreamResponse abc request rangeHeader = .ok response
          ∧ 0 ≤ start ∧ start ≤ stop ∧ stop < request.file.length
          ∧ Answers request response true start stop (range.select request.file) := by
  refine ⟨answers_whole abc hsize, ?_⟩
  intro text htext
  have hshort := hwithin text htext
  obtain ⟨header, rfl, hheader, rfl⟩ : ∃ header, rangeHeader = some header ∧ header ≠ ""
      ∧ abc.strip header.toList = text := by
    unfold Alphabet.asked at htext
    split at htext
    · cases htext
    · next header =>
      split_ifs at htext with hempty
      · cases htext
      · exact ⟨header, rfl, hempty, Option.some.inj htext⟩
  -- a form that selects a byte is answered with what it selects
  have hanswer : ∀ range, Denotes abc (abc.strip header.toList) range →
      range.select request.file ≠ [] →
      ∃ (response : Response) (start stop : ℤ),
        buildStreamResponse abc request (some header) = .ok response
        ∧ 0 ≤ start ∧ start ≤ stop ∧ stop < request.file.length
        ∧ Answers request response true start stop (range.select request.file) := by
    intro range hdenotes hselect
    have hslice := range.slice_bounds request.file hselect
    have hin := hselect
    rw [Ne, range.select_eq_nil, not_or] at hin
    have hnonneg := range.bounds_nonneg request.file.length
    have hparse := parseRangeHeader_of_denotes request.file.length hheader hdenotes hshort
    rw [if_neg (not_or.mpr hin)] at hparse
    obtain ⟨response, hresponse, hanswers⟩ := answers_of_parse hsize hparse
      (length_slice_of_bounds hnonneg (by omega) (by omega))
    rw [hslice] at hanswers
    exact ⟨response, _, _, hresponse, hnonneg, by omega, by omega, hanswers⟩
  refine ⟨⟨?_, ?_⟩, hanswer⟩
  · rintro ⟨detail, herror⟩ ⟨range, hdenotes, hselect⟩
    obtain ⟨response, start, stop, hresponse, -⟩ := hanswer range hdenotes hselect
    rw [herror] at hresponse
    cases hresponse
  · -- the parser refuses the others, for the bytes that they select or for their form
    intro hnone
    have hparse : ∃ detail, abc.parseRangeHeader (some header) request.file.length =
        .error (notSatisfiable detail) := by
      by_cases hform : ∃ range, Denotes abc (abc.strip header.toList) range
      · obtain ⟨range, hdenotes⟩ := hform
        have hempty : range.select request.file = [] := by
          by_contra hselect
          exact hnone ⟨range, hdenotes, hselect⟩
        refine ⟨"Requested range is outside the file", ?_⟩
        rw [parseRangeHeader_of_denotes request.file.length hheader hdenotes hshort]
        exact if_pos ((range.select_eq_nil request.file).mp hempty)
      · exact parseRangeHeader_of_not_denotes request.file.length hheader hform
    obtain ⟨detail, hdetail⟩ := hparse
    refine ⟨detail, ?_⟩
    rw [buildStreamResponse, hdetail]
    rfl

/-- The part of the alphabet that ASCII has. -/
def ascii : Alphabet where
  isSpace c := c = ' ' || ('\t' ≤ c && c ≤ '\r')
  decimal c := if c.isDigit then some (c.toNat - '0'.toNat) else none
  decimal_dash := by decide

/-- A file of two bytes, without a validator. -/
def twoBytes : Request where
  file := [1, 2]
  chunkSize := 1
  validatedChunkSize := none
  streamValidator := none
  guessedType := none

theorem local_range_requests_last_byte :
    ∃ (response : Response) (start stop : ℤ),
      buildStreamResponse ascii twoBytes (some "bytes=1-") = .ok response
        ∧ Answers twoBytes response true start stop [2] := by
  have hnumber : ascii.Number ['1'] := by
    refine ⟨by decide, fun c hc => ?_⟩
    rw [List.mem_singleton.mp hc]
    decide
  have hvalue : ascii.number ['1'] = 1 := by decide
  have htext : "bytes=1-".toList = "bytes=".toList ++ ['1'] ++ ['-'] := by decide
  have hdenotes : Denotes ascii "bytes=1-".toList (.openEnded 1) := by
    rw [htext, ← hvalue]
    exact Denotes.openEnded hnumber
  obtain ⟨response, start, stop, hresponse, -, -, -, hanswers⟩ :=
    ((local_range_requests ascii twoBytes (some "bytes=1-") (by decide) (by
      intro text htext digits hdigits _
      have hlength := hdigits.length_le
      have htext' : text = "bytes=1-".toList := (Option.some.inj htext).symm
      rw [htext'] at hlength
      exact hlength.trans (by decide))).2 "bytes=1-".toList rfl).2 (.openEnded 1) hdenotes
      (by decide)
  exact ⟨response, start, stop, hresponse, hanswers⟩

/-- A header that asks for the bytes from a number of 4301 zeros on. -/
def overlongHeader : String := String.ofList ("bytes=".toList ++ List.replicate 4301 '0' ++ ['-'])

/-- The empty header and one with spaces around it do not have one of the
forms, and are answered; a number of more than 4300 digits is not answered. -/
theorem local_range_requests_forms :
    (∃ response, buildStreamResponse ascii twoBytes (some "") = .ok response)
      ∧ (¬ ∃ range, Denotes ascii "".toList range)
      ∧ (∃ response, buildStreamResponse ascii twoBytes (some " bytes=0-0") = .ok response)
      ∧ (¬ ∃ range, Denotes ascii " bytes=0-0".toList range)
      ∧ buildStreamResponse ascii twoBytes (some overlongHeader) = .error .valueError
      ∧ ∃ range, Denotes ascii overlongHeader.toList range ∧
          range.select twoBytes.file = [1, 2] := by
  have hunmatched : ∀ text : List Char, ascii.fullmatch text = none →
      ¬ ∃ range, Denotes ascii text range := by
    rintro text hnone ⟨range, hdenotes⟩
    obtain ⟨startRaw, endRaw, hmatch, -⟩ := denotes_cases hdenotes
    rw [hnone] at hmatch
    cases hmatch
  have hzeros : ascii.Number (List.replicate 4301 '0') := by
    have hlength : (List.replicate 4301 '0').length = 4301 := List.length_replicate
    constructor
    · intro hnil
      rw [hnil] at hlength
      cases hlength
    · intro c hc
      rw [List.eq_of_mem_replicate hc]
      decide
  have hvalue : ascii.number (List.replicate 4301 '0') = 0 := by
    have hfold : ∀ n, (List.replicate n '0').foldl
        (fun n c => 10 * n + (ascii.decimal c).getD 0) 0 = 0 := by
      intro n
      induction n with
      | zero => rfl
      | succ n ih =>
        rw [List.replicate_succ, List.foldl_cons]
        exact ih
    exact hfold 4301
  have htext : overlongHeader.toList =
      "bytes=".toList ++ List.replicate 4301 '0' ++ ['-'] := String.toList_ofList
  have hdenotes : Denotes ascii overlongHeader.toList (.openEnded 0) := by
    rw [htext, ← hvalue]
    exact Denotes.openEnded hzeros
  refine ⟨⟨_, rfl⟩, hunmatched _ rfl, ⟨_, rfl⟩, hunmatched _ rfl, ?_, .openEnded 0, hdenotes, rfl⟩
  have hmatch : ascii.fullmatch overlongHeader.toList = some (List.replicate 4301 '0', []) := by
    rw [htext]
    exact fullmatch_eq_some.mpr ⟨rfl, hzeros.2, fun c hc => absurd hc List.not_mem_nil⟩
  have hstrip : ascii.strip overlongHeader.toList = overlongHeader.toList := by
    have hfront : overlongHeader.toList.dropWhile ascii.isSpace = overlongHeader.toList := by
      rw [htext]
      rfl
    have hback : overlongHeader.toList.reverse.dropWhile ascii.isSpace =
        overlongHeader.toList.reverse := by
      rw [htext, List.reverse_append]
      rfl
    rw [Alphabet.strip, hfront, hback, List.reverse_reverse]
  have hheader : overlongHeader ≠ "" := by
    intro hempty
    rw [hempty] at hmatch
    cases hmatch
  have hint : ascii.toInt (List.replicate 4301 '0') = .error .valueError := by
    rw [Alphabet.toInt, if_pos (by rw [List.length_replicate]; decide)]
  have hparse : ascii.parseRangeHeader (some overlongHeader) twoBytes.file.length =
      .error .valueError := by
    simp only [Alphabet.parseRangeHeader, if_neg hheader, hstrip, hmatch, hzeros.1, false_and,
      if_false, hint]
    rfl
  rw [buildStreamResponse, hparse]
  rfl

end LocalStreams
