/-
What the diagnostics let through (`playback_diagnostics/privacy.py`).

* `Matcher`, `search` — the patterns of secrets and of paths;
* `sanitizeScalar`, `sanitizePayload`, `sanitizeEvent` — what is kept of an event, or `none` where
  `DiagnosticsPrivacyError` is raised;
* `sanitizeEvent_key`, `sanitizeEvent_identifier` — an event that is let through has fields of the
  envelope only, and its identifiers are never split into lines.

A scalar is a JSON scalar and numbers are finite.
-/
import Elvern.JournalText

namespace Journal

/-! ### Patterns -/

/-- The character tables of `str`. -/
structure Unicode where
  isAlnum : Char → Bool
  isDigit : Char → Bool

/-- A place in a text: the character before it, and what is left. -/
abbrev Place := Option Char × List Char

/-- The places where a match from here can end. -/
abbrev Matcher := Place → List Place

def charSet (p : Char → Bool) : Matcher
  | (_, []) => []
  | (_, c :: rest) => if p c then [(some c, rest)] else []

def andThen (first second : Matcher) : Matcher := fun place => (first place).flatMap second

def oneOf (matchers : List Matcher) : Matcher := fun place => matchers.flatMap (· place)

def optional (matcher : Matcher) : Matcher := fun place => place :: matcher place

def starFrom (p : Char → Bool) : Option Char → List Char → List Place
  | before, [] => [(before, [])]
  | before, c :: rest => (before, c :: rest) :: if p c then starFrom p (some c) rest else []

/-- So many characters or more. -/
def atLeast (p : Char → Bool) : ℕ → Matcher
  | 0, (before, rest) => starFrom p before rest
  | n + 1, place => (charSet p place).flatMap (atLeast p n)

/-- With `(?i)` a character of a pattern matches these; a few letters beyond ASCII fold to it. -/
def folds (a c : Char) : Bool :=
  c == a || c == a.toUpper || a == 'i' && (c == Char.ofNat 0x130 || c == Char.ofNat 0x131) ||
    a == 's' && c == Char.ofNat 0x17f || a == 'k' && c == Char.ofNat 0x212a

def foldedSet (chars : String) (c : Char) : Bool := chars.toList.any (folds · c)

/-- A text of the pattern. -/
def word (s : String) : Matcher :=
  s.toList.foldr (fun a rest => andThen (charSet (folds a)) rest) fun place => [place]

def words (texts : List String) : Matcher := oneOf (texts.map word)

/-- `\s*` -/
def spaces : Matcher := atLeast (fun c => decide (c ∈ whitespace)) 0

/-- `pattern.search(text)` -/
def searchFrom (matcher : Matcher) : Option Char → List Char → Bool
  | before, [] => !(matcher (before, [])).isEmpty
  | before, c :: rest => !(matcher (before, c :: rest)).isEmpty || searchFrom matcher (some c) rest

def search (matcher : Matcher) (text : List Char) : Bool := searchFrom matcher none text

variable (unicode : Unicode)

def isWordChar (c : Char) : Bool := unicode.isAlnum c || c == '_'

/-- `\b` -/
def boundary : Matcher := fun place =>
  if place.1.any (isWordChar unicode) != place.2.head?.any (isWordChar unicode) then [place] else []

/-- `\b…\s*[:=]` -/
def assigned (name : Matcher) : Matcher :=
  andThen (boundary unicode) (andThen name (andThen spaces (charSet (foldedSet ":="))))

/-- `[_-]?` -/
def joiner : Matcher := optional (charSet (foldedSet "_-"))

def secretPatterns : List Matcher :=
  [assigned unicode (word "authorization"),
    andThen (boundary unicode) (andThen (word "bearer") (andThen
      (atLeast (fun c => decide (c ∈ whitespace)) 1)
      (atLeast (foldedSet "abcdefghijklmnopqrstuvwxyz0123456789._~+/=-") 12))),
    assigned unicode (andThen (words ["access", "refresh", "session", "id"])
      (andThen joiner (word "token"))),
    assigned unicode (oneOf [andThen (word "client") (andThen joiner (word "secret")), word "totp",
      word "password", andThen (word "recovery") (andThen joiner (word "code"))]),
    assigned unicode (oneOf [andThen (word "resource") (andThen joiner (word "key")),
      word "signature", word "sig"]),
    assigned unicode (words ["cookie", "set-cookie"]),
    andThen (charSet (foldedSet "?&"))
      (andThen (words ["token", "key", "resourcekey", "auth", "signature", "sig"]) (word "=")),
    andThen (word "ya29.") (atLeast (foldedSet "abcdefghijklmnopqrstuvwxyz0123456789_-") 1)]

/-- `contains_secret` of a text -/
def containsSecret (value : String) : Bool :=
  (secretPatterns unicode).any fun pattern => search pattern value.toList

/-- `_looks_like_absolute_path` -/
def looksLikeAbsolutePath (value : String) : Bool :=
  match value.toList with
  | '/' :: _ => true
  | '~' :: c :: _ => c == '/' || c == '\\'
  | '\\' :: '\\' :: _ => true
  | a :: ':' :: c :: _ => a.isAlpha && (c == '/' || c == '\\')
  | _ => false

/-- `part in text` -/
def hasText (part : String) (text : List Char) : Bool := text.tails.any part.toList.isPrefixOf

/-! ### Tables -/

def eventEnvelopeFields : List String :=
  ["schema_version", "event_id", "event_name", "event_source", "severity", "priority",
    "playback_session_id", "playback_attempt_id", "attachment_id", "epoch_id", "worker_id",
    "incident_id", "decision_id", "trace_id", "span_id", "parent_span_id", "event_sequence",
    "source_sequence", "client_wall_time_ms", "client_monotonic_time_us", "client_time_origin_ms",
    "client_timer_resolution_us", "server_wall_time_ns", "server_monotonic_time_ns",
    "server_received_wall_time_ns", "server_received_monotonic_time_ns", "aligned_wall_time_ns",
    "clock_offset_ns", "clock_uncertainty_ns", "network_rtt_ns", "clock_generation", "clock_valid",
    "clock_invalid_reason", "playhead_ms", "media_element_time_ms", "duration_ms", "platform",
    "device_class", "browser_family", "browser_version", "os_family", "os_version", "hls_engine",
    "playback_mode", "stream_mode", "source_kind", "observation_kind", "measurement_method",
    "measurement_resolution", "measurement_uncertainty", "sample_window_ms", "capability_available",
    "unavailable_reason", "payload"]

def safePayloadKeys : List String :=
  ["action_origin", "active", "actual_bytes", "actual_duration_ms", "aggregate_interval_ms",
    "algorithm_version", "alternative_hypotheses", "append_latency_ms", "architecture",
    "attempt_reason", "audio_codec", "audio_profile", "audio_stream_index", "audio_track_count",
    "available_bytes", "average_segment_bytes", "back_buffer_seconds", "batch_bytes",
    "batch_events", "batches_acked", "batches_sent", "bit_depth", "bottleneck_class",
    "buffer_hole_count", "buffer_hole_sizes_ms", "buffer_slope", "buffered_ahead_ms",
    "buffered_behind_ms", "buffered_ranges", "bytes", "bytes_read", "bytes_written",
    "cache_control_class", "callback_lateness_ms", "candidate_time_ns", "cancelled", "capabilities",
    "capacity_state", "channel_count", "channel_layout", "chunk_sequence", "client_attach_revision",
    "client_buffer_seconds", "client_fragment_loader_detail", "client_queue_bytes",
    "client_queue_depth", "client_received", "client_throughput_bps", "clock_algorithm",
    "clock_drift_ns", "clock_step_detected", "codec", "color_primaries", "color_space",
    "color_transfer", "command_fingerprint", "committed_playhead_ms", "calibrated",
    "compression_ms", "confidence", "confidence_basis", "confidence_kind", "connection_path",
    "container", "content_range_end", "content_range_start", "contiguous_buffered_ahead_ms",
    "corrupted_frames", "cpu_percent", "cpu_seconds", "cpu_seconds_per_media_second",
    "created_at_utc", "current_source_hash", "current_time_ms", "decision_action",
    "decoded_body_bytes", "decoder_delay_ms", "delta", "derp_region", "destination",
    "device_memory_gib", "diagnostics_bytes", "diagnostics_free_bytes", "disk_free_bytes",
    "disk_total_bytes", "disk_usage_bytes", "dropped_event_count", "dropped_frame_ratio",
    "dropped_frames", "duration_ms", "effective_rate_x", "elapsed_ms", "encoded_body_bytes",
    "encoder_publication_gap_ms", "ended", "epoch_revision", "error_class", "error_code",
    "error_detail_hash", "event_loop_lag_ms", "events_dropped", "events_generated",
    "exception_class", "exit_code", "expected_bytes", "expected_display_time_ms",
    "external_workload_percent", "filesystem_free_bytes", "filesystem_state", "first_byte_ms",
    "first_frame_ms", "fatal", "fps", "frame_cadence_ms", "frame_count", "frame_height",
    "frame_width", "free_inodes", "frontier_ms", "fsync_ms", "generated_at_utc",
    "generation_latency_ms", "gpu_decoder_percent", "gpu_encoder_percent", "gpu_memory_bytes",
    "gpu_temperature_c", "gpu_utilization_percent", "hash", "hdr", "height", "hls_event",
    "hls_level", "hls_stats", "host_boot_id_hash", "http_status", "identity", "in_flight",
    "incident_phase", "incident_type", "input_bitrate_bps", "input_bytes", "input_snapshot",
    "io_pressure", "is_adult", "is_muted", "key_id", "last_byte_ms", "last_client_observed_time",
    "last_error_class", "last_observed_ns", "latency_ms", "level", "load_average", "loader_stats",
    "long_animation_frame_ms", "long_task_ms", "longest_gap_ms", "manifest_revision",
    "max_buffer_size_bytes", "max_segment_bytes", "measurement", "media_element_time_ms",
    "media_item_id", "media_start_ms", "media_end_ms", "memory_available_bytes",
    "memory_current_bytes", "memory_pressure", "memory_rss_bytes", "memory_pss_bytes",
    "minimum_buffer_ms", "missing_capabilities", "missing_evidence", "muted",
    "native_hls_internal_cache", "network_state", "nonce", "normalized_route",
    "oldest_event_age_ms", "online", "orientation", "out_of_order_count", "out_time_ms",
    "output_bitrate_bps", "output_bytes", "page_state", "path_class", "pause_duration_ms", "paused",
    "peer_pseudonym", "pixel_format", "playback_rate", "playhead_advancement_rate",
    "policy_version", "predicted_duration_ms", "predicted_ready_monotonic_ns",
    "predicted_ready_time_ns", "prediction_id", "prediction_kind", "estimated_ready_wall_time_ns",
    "presented_frames", "presentation_time_ms", "priority", "process_state", "profile", "progress",
    "provider_request_id", "provider_throughput_bps", "publish_latency_ms", "queue_depth",
    "queue_wait_ms", "range_end", "range_start", "rate_bps", "ready_state", "reason",
    "received_bytes", "recorder_overhead_ms", "recovery_action", "redirect_count",
    "request_duration_ms", "request_start_ms", "request_video_frame_supported", "resolution",
    "response_end_ms", "response_headers_ready_ms", "retries", "ring_complete", "route_template",
    "runway_ms", "sample_count", "sample_interval_ms", "sample_monotonic_ms", "sample_rate",
    "samples", "segment_bytes", "segment_duration_ms", "segment_index", "segment_media_end_ms",
    "segment_media_start_ms", "selected_threads", "sequence_gap_count", "serialized_bytes",
    "serialization_ms", "session_state", "severity", "signal", "source_fingerprint",
    "source_original_filename", "source_rate_bps", "source_sequence", "speed_x", "stall_confirmed",
    "stall_duration_ms", "stall_reason", "standalone", "status", "storage", "storage_quota_bytes",
    "storage_usage_bytes", "stream_mode", "subtitle_count", "supporting_event_ids",
    "supporting_signals", "suspension_lower_bound_ns", "suspension_upper_bound_ns",
    "tailscale_health", "target_threads", "thermal_state", "throughput_bps",
    "time_to_first_byte_ms", "time_to_last_byte_ms", "timer_resolution_us", "total_buffered_ms",
    "total_frames", "total_size_bytes", "trace_event", "transfer_bytes", "transcode_strategy",
    "uncertainty_ns", "unsupported_fields", "upload_bytes", "upload_latency_ms", "url_hash",
    "video_codec", "video_level", "video_profile", "visible", "volume", "width", "worker_threads",
    "writer_latency_ms", "writer_queue_depth", "xid", "year", "document_was_discarded",
    "played_range_count", "played_ranges", "seekable_range_count", "seekable_ranges",
    "buffered_range_count", "ranges_truncated", "used_js_heap_bytes", "total_js_heap_bytes",
    "js_heap_limit_bytes", "duplicate_count", "attachment_revision", "stream_identity", "measured",
    "method", "available", "unavailable_reason", "value", "unit", "min", "max", "p5", "p50", "p95",
    "avg10", "avg60", "avg300", "some", "full", "total", "user", "system", "idle", "iowait",
    "steal", "per_core", "runnable_tasks", "context_switches", "interrupts", "frequency_hz",
    "swap_total_bytes", "swap_free_bytes", "swap_in", "swap_out", "swap_total", "swap_free",
    "buffers", "cache", "inactive", "transcode_free_bytes", "major_faults", "minor_faults",
    "read_bytes", "write_bytes", "cgroup", "cpu", "memory", "io", "psi", "gpu", "tailscale",
    "process", "ffmpeg", "host", "client", "server", "provider", "atc", "recorder", "ranges",
    "start_ms", "end_ms", "size_bytes", "count", "type", "state", "revision", "selected", "current",
    "previous", "requested", "applied", "blocked", "failed", "success", "complete", "final",
    "absolute_error_ms", "relative_error", "replacement_prediction_id", "replacement_reason",
    "signed_bias_ms", "missing_signals", "pid", "assigned_threads", "ahead_runway_seconds",
    "cpu_cores_used", "client_goodput_bytes_per_second", "server_goodput_bytes_per_second",
    "starvation_risk", "stalled_recovery_needed", "playback_mode", "return_code",
    "effective_playhead_seconds", "observation_seconds", "diagnostics_free_inodes",
    "transcode_free_inodes", "callback_monotonic_ms", "client_anchor_monotonic_us",
    "client_anchor_wall_ms", "compute_pressure", "cumulative_dropped_frames",
    "cumulative_total_frames", "delta_dropped_frames", "delta_total_frames", "device_memory",
    "frame_counter_reset", "frame_ring_complete", "frame_samples", "freeze_resume_events",
    "fullscreen", "global_queue_bytes", "hidden_duration_ms", "indexeddb", "initiator_type",
    "loader_aborted", "logical_request_identity", "long_animation_frame_timing", "long_task_timing",
    "network_information", "observed_drift_ppm", "offset_spread_ns", "path_hash_sha256",
    "performance_memory", "performance_observer", "picture_in_picture", "previous_incident_id",
    "recorder_queue_delay_ms", "recurrence_group_id", "rejected_event_name", "request_attempt",
    "request_attempt_id", "request_video_frame_callback", "resource_timing", "retry_attempt",
    "selected_sample_rtt_ns", "server_segment_request_trace", "storage_estimate",
    "timer_callback_gap_ms", "user_agent_specific_memory", "video_playback_quality",
    "window_dropped_frame_ratio", "sample_window_ms", "seeking"]

def safeRoutePayloadKeys : List String :=
  ["normalized_route", "route_template"]

def strictIdentifierFields : List String :=
  ["event_id", "event_name", "event_source", "severity", "priority", "playback_session_id",
    "playback_attempt_id", "attachment_id", "epoch_id", "worker_id", "incident_id", "decision_id",
    "trace_id", "span_id", "parent_span_id", "observation_kind"]

def decimalTimestampFields : List String :=
  ["server_wall_time_ns", "server_monotonic_time_ns", "server_received_wall_time_ns",
    "server_received_monotonic_time_ns", "aligned_wall_time_ns", "clock_offset_ns",
    "clock_uncertainty_ns", "network_rtt_ns"]

/-- `[A-Za-z0-9_.:-]` -/
def isIdentifierChar (c : Char) : Bool := c.isAlphanum || "_.:-".toList.contains c

/-- `SAFE_IDENTIFIER_PATTERN.fullmatch` -/
def safeIdentifier (value : String) : Bool :=
  decide (1 ≤ value.toList.length) && decide (value.toList.length ≤ 256) &&
    value.toList.all isIdentifierChar

/-- `SAFE_ROUTE_PATTERN.fullmatch` -/
def safeRoute (value : String) : Bool :=
  let start := "/api/browser-playback/".toList
  start.isPrefixOf value.toList && decide (value.toList.length ≤ start.length + 480) &&
    (value.toList.drop start.length).all fun c => isIdentifierChar c || c == '/'

/-! ### Sanitizing -/

/-- `basename`, which begins after the last slash -/
def basename (raw : List Char) : List Char :=
  ((raw.map fun c => if c = '\\' then '/' else c).reverse.takeWhile (· ≠ '/')).reverse

def safeSourceBasename (value : String) : Option String :=
  let name := basename value.toList
  if value.toList.contains (Char.ofNat 0) then none
  else if name = [] ∨ name = ['.'] ∨ name = ['.', '.'] then none
  else if (name.flatMap String.utf8EncodeChar).length > 4096 then none
  else some (String.ofList name)

/-- The checks of a text that is not a route. -/
def privateText (value : String) : Bool :=
  containsSecret unicode value || looksLikeAbsolutePath value || hasText "://" value.toList

def sanitizeScalar (key : String) : Value → Option Value
  | .null => some .null
  | .bool b => some (.bool b)
  | .number number => some (.number number)
  | .str value =>
    if key = "source_original_filename" then (safeSourceBasename value).map .str
    else if key ∈ safeRoutePayloadKeys then
      -- a route has no query and no fragment, and no step up
      if !safeRoute value || hasText ".." value.toList || value.toList.contains '?' ||
          value.toList.contains '#' then none
      else some (.str value)
    else if privateText unicode value then none
    else some (.str (String.ofList (value.toList.take 4096)))
  | .array _ => none
  | .object _ => none

mutual

/-- `sanitize_payload` of the members of a payload that is `depth` deep -/
def sanitizePayload (depth : ℕ) : List (String × Value) → Option (List (String × Value))
  | [] => if depth > 4 then none else some []
  | (key, value) :: rest =>
    if depth > 4 then none
    else if key ∉ safePayloadKeys then sanitizePayload depth rest
    else do
      let sanitized ← sanitizeValue depth key value
      let others ← sanitizePayload depth rest
      return (key, sanitized) :: others

def sanitizeValue (depth : ℕ) (key : String) : Value → Option Value
  | .object members => (sanitizePayload (depth + 1) members).map .object
  | .array items => (sanitizeItems depth key 512 items).map .array
  | value => sanitizeScalar unicode key value

/-- The first items of a list. -/
def sanitizeItems (depth : ℕ) (key : String) : ℕ → List Value → Option (List Value)
  | 0, _ => some []
  | _, [] => some []
  | limit + 1, item :: rest => do
    let sanitized ← sanitizeItem depth key item
    let others ← sanitizeItems depth key limit rest
    return sanitized :: others

def sanitizeItem (depth : ℕ) (key : String) : Value → Option Value
  | .object members => (sanitizePayload (depth + 1) members).map .object
  | .array nested => ((nested.take 16).mapM (sanitizeScalar unicode key)).map .array
  | value => sanitizeScalar unicode key value

end

/-- `text.lstrip("-").isdigit()` -/
def decimalText (text : List Char) : Bool :=
  let digits := text.dropWhile (· == '-')
  !digits.isEmpty && digits.all unicode.isDigit

def sanitizeTimestamp : Value → Option Value
  | .null => some .null
  | .number number =>
    if decimalText unicode number.text then some (.str (String.ofList number.text)) else none
  | .str text => if decimalText unicode text.toList then some (.str text) else none
  | _ => none

/-- A field of the envelope. -/
def sanitizeField (key : String) (value : Value) : Option Value :=
  if key = "payload" then
    match value with
    | .object members => (sanitizePayload unicode 0 members).map .object
    | _ => none
  else if key ∈ decimalTimestampFields then sanitizeTimestamp unicode value
  else
    match value with
    | .str text =>
      if privateText unicode text then none
      else if key ∈ strictIdentifierFields ∧ safeIdentifier text = false then none
      else some value
    | _ => some value

def sanitizeEvent (event : Event) : Option Event :=
  (eventEnvelopeFields.filterMap fun key => (event.lookup key).map (key, ·)).mapM fun field =>
    (sanitizeField unicode field.1 field.2).map (field.1, ·)

section Sanitized

variable {unicode} {event sanitized : Event} {key text : String} {value : Value}

/-- A field that is let through comes from the field of its name. -/
theorem sanitizeFields_mem {fields : List (String × Value)} : ∀ {sanitized : Event},
    fields.mapM (fun field => (sanitizeField unicode field.1 field.2).map (field.1, ·)) =
      some sanitized → (key, value) ∈ sanitized →
    ∃ before, (key, before) ∈ fields ∧ sanitizeField unicode key before = some value := by
  induction fields with
  | nil =>
    intro sanitized h hmem
    cases h
    cases hmem
  | cons field fields ih =>
    intro sanitized h hmem
    rw [List.mapM_cons] at h
    obtain ⟨first, hfirst, h⟩ := Option.bind_eq_some_iff.1 h
    obtain ⟨rest, hrest, h⟩ := Option.bind_eq_some_iff.1 h
    cases h
    rcases List.mem_cons.1 hmem with heq | hmem
    · obtain ⟨after, hafter, hpair⟩ := Option.map_eq_some_iff.1 hfirst
      cases hpair.trans heq.symm
      exact ⟨field.2, List.mem_cons_self .., hafter⟩
    · obtain ⟨before, hbefore, hvalue⟩ := ih hrest hmem
      exact ⟨before, List.mem_cons_of_mem _ hbefore, hvalue⟩

theorem sanitizeEvent_key (h : sanitizeEvent unicode event = some sanitized)
    (hmem : (key, value) ∈ sanitized) : key ∈ eventEnvelopeFields := by
  obtain ⟨before, hbefore, -⟩ := sanitizeFields_mem h hmem
  obtain ⟨name, hname, hlookup⟩ := List.mem_filterMap.1 hbefore
  obtain ⟨_, -, hpair⟩ := Option.map_eq_some_iff.1 hlookup
  cases hpair
  exact hname

theorem not_separator {c : Char} (h : isIdentifierChar c = true) : c ∉ separators := by
  intro hsep
  rcases List.mem_cons.1 hsep with rfl | hsep
  · exact absurd h (by decide)
  rcases List.mem_cons.1 hsep with rfl | hsep
  · exact absurd h (by decide)
  · cases List.mem_singleton.1 hsep
    exact absurd h (by decide)

/-- **Identifiers** have no separators in them. -/
theorem sanitizeEvent_identifier (h : sanitizeEvent unicode event = some sanitized)
    (hmem : (key, .str text) ∈ sanitized) (hkey : key ∈ strictIdentifierFields) :
    ∀ c ∈ text.toList, c ∉ separators := by
  have hother : ∀ name ∈ strictIdentifierFields, name ≠ "payload" ∧
      name ∉ decimalTimestampFields := by
    decide
  obtain ⟨hpayload, htimestamp⟩ := hother key hkey
  obtain ⟨before, -, hvalue⟩ := sanitizeFields_mem h hmem
  unfold sanitizeField at hvalue
  rw [if_neg hpayload, if_neg htimestamp] at hvalue
  cases before with
  | str value =>
    have hchecks : (if privateText unicode value then none
        else if key ∈ strictIdentifierFields ∧ safeIdentifier value = false then none
        else some (Value.str value)) = some (.str text) := hvalue
    split at hchecks
    · cases hchecks
    split at hchecks
    next => cases hchecks
    next hsafe =>
      cases hchecks
      have hall : safeIdentifier text = true := by
        by_contra hno
        exact hsafe ⟨hkey, Bool.eq_false_iff.2 hno⟩
      rw [safeIdentifier, Bool.and_eq_true, List.all_eq_true] at hall
      exact fun c hc => not_separator (hall.2 c hc)
  | _ => cases hvalue

end Sanitized

end Journal
