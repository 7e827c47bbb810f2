/-
The circuit breaker of the public connectivity probes (`connectivityRuntimeCore.js`,
`publicConnectivityProbes.js`).

Chains of probes may overlap; what they do to the breaker are the two calls `selectEndpointIds` and
`commitSuccessfulChain`, with any arguments and at any times.

* `Circuit.select`, `Circuit.commit`, `probeChain` — the functions;
* `history` — what was committed about an endpoint, and `trailing` its failures in a row;
* `follows_history` — the record of an endpoint is a function of its history;
* `skipped_endpoint_failed_recently` — who is left out of a probe, and that somebody never is;
* `unreachable_chain_explained` — what it means that a chain reaches nobody.
-/
import Mathlib.Data.List.Dedup
import Mathlib.Data.List.MinMax
import Mathlib.Data.Rat.Defs
import Mathlib.Algebra.Order.Ring.Rat
import Mathlib.Tactic.Common

namespace ProbeCircuit

/-- `circuitState` -/
inductive CircuitState where
  | closed
  | opened
  | halfOpen
  deriving DecidableEq

/-- The record of an endpoint. -/
structure EndpointState where
  circuitState : CircuitState
  consecutiveFailureCount : ℕ
  cooldownUntil : ℚ

/-- The record of a new endpoint, and of one that answered. -/
def EndpointState.reset : EndpointState := ⟨.closed, 0, 0⟩

/-- `publicProbeEndpointFailureThreshold` -/
def failureThreshold : ℕ := 3

/-- `publicProbeEndpointCooldownMs` -/
def cooldownMs : ℚ := 5 * 60 * 1000

/-- The endpoint is open, and its cooldown is not over. -/
def EndpointState.cooling (st : EndpointState) (now : ℚ) : Bool :=
  st.circuitState = .opened && decide (now < st.cooldownUntil)

/-- An open endpoint whose cooldown is over is tried again. -/
def EndpointState.reopen (st : EndpointState) (now : ℚ) : EndpointState :=
  if st.circuitState = .opened ∧ st.cooldownUntil ≤ now then
    { st with circuitState := .halfOpen } else st

/-- The endpoint failed in a chain that ended at `now`. -/
def EndpointState.fail (st : EndpointState) (now : ℚ) : EndpointState :=
  let count :=
    if st.circuitState = .halfOpen then max failureThreshold (st.consecutiveFailureCount + 1)
    else st.consecutiveFailureCount + 1
  if failureThreshold ≤ count then ⟨.opened, count, now + cooldownMs⟩
  else { st with consecutiveFailureCount := count }

/-- The `Map` of `createPublicProbeCircuit`: its keys in the order of insertion, and their
records. -/
structure Circuit (ε : Type) where
  ids : List ε
  state : ε → EndpointState

variable {ε : Type} [DecidableEq ε]

/-- `createPublicProbeCircuit` -/
def Circuit.create (endpointIds : List ε) : Circuit ε where
  ids := endpointIds.reverse.dedup.reverse
  state _ := .reset

/-- Change the record of an endpoint that the map knows. -/
def Circuit.set (c : Circuit ε) (id : ε) (f : EndpointState → EndpointState) : Circuit ε :=
  if id ∈ c.ids then { c with state := Function.update c.state id (f (c.state id)) } else c

/-- `selectEndpointIds` -/
def Circuit.select (c : Circuit ε) (now : ℚ) : List ε × Circuit ε :=
  let available := c.ids.filter fun id => !(c.state id).cooling now
  let cooling := c.ids.filter fun id => (c.state id).cooling now
  let reopened : Circuit ε := { c with state := fun id => (c.state id).reopen now }
  if available ≠ [] ∨ cooling = [] then (available, reopened)
  else
    -- the first of the endpoints sorted by the end of their cooldown
    match cooling.argmin fun id => (c.state id).cooldownUntil with
    | none => ([], reopened)
    | some id => ([id], reopened.set id fun st => { st with circuitState := .halfOpen })

/-- `commitSuccessfulChain` -/
def Circuit.commit (c : Circuit ε) (failedEndpointIds : List ε) (successfulEndpointId : ε)
    (now : ℚ) : Circuit ε :=
  failedEndpointIds.foldl (fun c id => c.set id fun st => st.fail now)
    (c.set successfulEndpointId fun _ => .reset)

/-- The loop of `probeChain` over the registry, where `answers` says which attempts succeed. -/
def attempts (answers : ε → Bool) (selectedIds : List ε) : List ε → List ε → List ε × Option ε
  | [], failed => (failed, none)
  | id :: rest, failed =>
    if id ∉ selectedIds then attempts answers selectedIds rest failed
    else if answers id then (failed, some id)
    else attempts answers selectedIds rest (failed ++ [id])

/-- `probeChain`: the endpoint that answered, if any, and the breaker after it. -/
def probeChain (c : Circuit ε) (registry : List ε) (answers : ε → Bool)
    (selectedAt succeededAt : ℚ) : Option ε × Circuit ε :=
  let selected := c.select selectedAt
  match attempts answers selected.1 registry [] with
  | (failed, some id) => (some id, selected.2.commit failed id succeededAt)
  | (_, none) => (none, selected.2)

/-! ### Histories -/

/-- A call on the breaker. -/
inductive Call (ε : Type) where
  | select (now : ℚ)
  | commit (failedEndpointIds : List ε) (successfulEndpointId : ε) (now : ℚ)

def Circuit.call (c : Circuit ε) : Call ε → Circuit ε
  | .select now => (c.select now).2
  | .commit failed id now => c.commit failed id now

/-- The breaker after the calls. -/
def run (endpointIds : List ε) (calls : List (Call ε)) : Circuit ε :=
  calls.foldl Circuit.call (.create endpointIds)

/-- What a chain that reached somebody says about an endpoint. -/
inductive Event where
  | success
  | failure (at_ : ℚ)
  deriving DecidableEq

def Event.isFailure : Event → Bool
  | .success => false
  | .failure _ => true

/-- The events of one call. -/
def Call.events (id : ε) : Call ε → List Event
  | .select _ => []
  | .commit failed success now =>
    (if id = success then [.success] else []) ++ (failed.filter (· = id)).map fun _ => .failure now

/-- The events of an endpoint, the oldest first. -/
def history (id : ε) (calls : List (Call ε)) : List Event := calls.flatMap (Call.events id)

/-- The failures in a row at the end. -/
def trailing (events : List Event) : ℕ := (events.reverse.takeWhile Event.isFailure).length

/-- The record of an endpoint with these events: it is closed below the threshold, and from there on
its cooldown counts from the last failure. -/
structure Follows (st : EndpointState) (events : List Event) : Prop where
  count : st.consecutiveFailureCount = trailing events
  closed : st.circuitState = .closed ↔ trailing events < failureThreshold
  below : trailing events < failureThreshold → st.cooldownUntil = 0
  above : failureThreshold ≤ trailing events →
    ∃ t, events.getLast? = some (.failure t) ∧ st.cooldownUntil = t + cooldownMs

variable {st : EndpointState} {events : List Event} {now : ℚ} {id : ε} {c : Circuit ε}

omit [DecidableEq ε] in
theorem trailing_append_success : trailing (events ++ [.success]) = 0 := by
  rw [trailing, List.reverse_append]
  rfl

omit [DecidableEq ε] in
theorem trailing_append_failure : trailing (events ++ [.failure now]) = trailing events + 1 := by
  rw [trailing, List.reverse_append]
  rfl

theorem follows_nil : Follows .reset [] where
  count := rfl
  closed := ⟨fun _ => by decide, fun _ => rfl⟩
  below _ := rfl
  above h := absurd h (by decide)

theorem follows_success : Follows .reset (events ++ [.success]) where
  count := trailing_append_success.symm
  closed := ⟨fun _ => by rw [trailing_append_success]; decide, fun _ => rfl⟩
  below _ := rfl
  above h := by
    rw [trailing_append_success] at h
    exact absurd h (by decide)

/-- The maximum in the code changes nothing: a half-open endpoint has reached the threshold. -/
theorem Follows.fail (h : Follows st events) :
    Follows (st.fail now) (events ++ [.failure now]) := by
  have hcount : (if st.circuitState = .halfOpen then
      max failureThreshold (st.consecutiveFailureCount + 1) else st.consecutiveFailureCount + 1) =
        trailing events + 1 := by
    rw [h.count]
    split
    · next hhalf =>
      have hreached : failureThreshold ≤ trailing events := by
        by_contra hlt
        rw [h.closed.mpr (not_le.mp hlt)] at hhalf
        cases hhalf
      omega
    · rfl
  unfold EndpointState.fail
  dsimp only
  rw [hcount]
  split
  · next hreached =>
    refine ⟨trailing_append_failure.symm, ?_, fun hlt => ?_, fun _ => ⟨now, by simp, rfl⟩⟩
    · rw [trailing_append_failure]
      constructor
      · intro hclosed
        cases hclosed
      · intro hlt
        omega
    · rw [trailing_append_failure] at hlt
      omega
  · next hbelow =>
    have hlt : trailing events < failureThreshold := by omega
    refine ⟨trailing_append_failure.symm, ?_, fun _ => h.below hlt, fun hle => ?_⟩
    · rw [trailing_append_failure]
      exact ⟨fun _ => not_le.mp hbelow, fun _ => h.closed.mpr hlt⟩
    · rw [trailing_append_failure] at hle
      exact absurd hle hbelow

/-- What a selection changes: an open endpoint becomes half-open. -/
theorem Follows.halfOpen (h : Follows st events) (hopen : st.circuitState = .opened) :
    Follows { st with circuitState := .halfOpen } events := by
  have hreached : failureThreshold ≤ trailing events := by
    by_contra hlt
    rw [h.closed.mpr (not_le.mp hlt)] at hopen
    cases hopen
  refine { h with closed := ⟨fun hclosed => ?_, fun hlt => ?_⟩ }
  · cases hclosed
  · exact absurd hreached (not_le.mpr hlt)

theorem Follows.reopen (h : Follows st events) : Follows (st.reopen now) events := by
  unfold EndpointState.reopen
  split
  · next hopen => exact h.halfOpen hopen.1
  · exact h

/-! ### The calls on the breaker -/

theorem set_ids (f : EndpointState → EndpointState) : (c.set id f).ids = c.ids := by
  unfold Circuit.set
  split <;> rfl

theorem set_state_self {f : EndpointState → EndpointState} (hid : id ∈ c.ids) :
    (c.set id f).state id = f (c.state id) := by
  rw [Circuit.set, if_pos hid]
  exact Function.update_self ..

theorem set_state_ne {f : EndpointState → EndpointState} {id' : ε} (hne : id' ≠ id) :
    (c.set id f).state id' = c.state id' := by
  unfold Circuit.set
  split
  · exact Function.update_of_ne hne ..
  · rfl

theorem select_ids : (c.select now).2.ids = c.ids := by
  unfold Circuit.select
  dsimp only
  split
  · rfl
  · split
    · rfl
    · exact set_ids ..

/-- The cases of a selection: all the endpoints that are not cooling, or, where all are, the one
whose cooldown ends first. -/
theorem select_cases (hids : c.ids ≠ []) (now : ℚ) :
    ((∃ id ∈ c.ids, (c.state id).cooling now = false) ∧
        (c.select now).1 = c.ids.filter fun id => !(c.state id).cooling now) ∨
      ((∀ id ∈ c.ids, (c.state id).cooling now = true) ∧ ∃ id ∈ c.ids, (c.select now).1 = [id] ∧
        ∀ id' ∈ c.ids, (c.state id).cooldownUntil ≤ (c.state id').cooldownUntil) := by
  by_cases hall : ∀ id ∈ c.ids, (c.state id).cooling now = true
  · -- Nobody is available: the least cooldown decides.
    have havailable : (c.ids.filter fun id => !(c.state id).cooling now) = [] := by
      rw [List.filter_eq_nil_iff]
      intro id hid
      rw [hall id hid]
      exact Bool.false_ne_true
    have hcooling : (c.ids.filter fun id => (c.state id).cooling now) = c.ids :=
      List.filter_eq_self.mpr hall
    obtain ⟨id, hmin⟩ : ∃ id, c.ids.argmin (fun id => (c.state id).cooldownUntil) = some id := by
      rcases hmin : c.ids.argmin fun id => (c.state id).cooldownUntil with _ | id
      · exact absurd (List.argmin_eq_none.mp hmin) hids
      · exact ⟨id, rfl⟩
    refine .inr ⟨hall, id, List.argmin_mem hmin, ?_, fun id' hid' =>
      List.le_of_mem_argmin (f := fun id => (c.state id).cooldownUntil) hid' hmin⟩
    unfold Circuit.select
    dsimp only
    rw [havailable, hcooling, if_neg (by simpa using hids), hmin]
  · obtain ⟨id, hid, hcool⟩ : ∃ id ∈ c.ids, (c.state id).cooling now = false := by
      by_contra hnone
      refine hall fun id hid => ?_
      by_contra hcool
      exact hnone ⟨id, hid, by simpa using hcool⟩
    refine .inl ⟨⟨id, hid, hcool⟩, ?_⟩
    have hmem : id ∈ c.ids.filter fun id => !(c.state id).cooling now :=
      List.mem_filter.mpr ⟨hid, by rw [hcool]; rfl⟩
    unfold Circuit.select
    dsimp only
    rw [if_pos (.inl (List.ne_nil_of_mem hmem))]

theorem Follows.select (h : Follows (c.state id) events) :
    Follows ((c.select now).2.state id) events := by
  unfold Circuit.select
  dsimp only
  split
  · exact h.reopen
  · split
    · exact h.reopen
    · next picked hpicked =>
      have hmem := List.mem_filter.mp (List.argmin_mem hpicked)
      have hcooling := hmem.2
      rw [EndpointState.cooling, Bool.and_eq_true] at hcooling
      show Follows ((Circuit.set { c with state := fun id => (c.state id).reopen now }
        picked _).state id) events
      by_cases heq : id = picked
      · subst heq
        rw [set_state_self (c := { c with state := fun id => (c.state id).reopen now }) hmem.1]
        -- The picked endpoint is cooling, so that it was not reopened.
        have hsame : (c.state id).reopen now = c.state id :=
          if_neg fun hand => absurd hand.2 (not_le.mpr (of_decide_eq_true hcooling.2))
        show Follows { (c.state id).reopen now with circuitState := .halfOpen } events
        rw [hsame]
        exact h.halfOpen (of_decide_eq_true hcooling.1)
      · rw [set_state_ne heq]
        exact h.reopen

/-- The failures of one chain, one after the other. -/
theorem Follows.failures (failed : List ε) (hid : id ∈ c.ids) (h : Follows (c.state id) events) :
    Follows ((failed.foldl (fun c id => c.set id fun st => st.fail now) c).state id)
      (events ++ (failed.filter (· = id)).map fun _ => .failure now) := by
  induction failed generalizing c events with
  | nil => simpa using h
  | cons other rest ih =>
    rw [List.foldl_cons]
    have hid' : id ∈ (c.set other fun st => st.fail now).ids := by
      rw [set_ids]
      exact hid
    by_cases heq : other = id
    · subst heq
      have hfirst : Follows ((c.set other fun st => st.fail now).state other)
          (events ++ [.failure now]) := by
        rw [set_state_self hid]
        exact h.fail
      have hnext := ih hid' hfirst
      rw [List.filter_cons_of_pos (by simp), List.map_cons]
      rwa [List.append_assoc, List.singleton_append] at hnext
    · rw [List.filter_cons_of_neg (by simpa using heq)]
      refine ih hid' ?_
      rw [set_state_ne (Ne.symm heq)]
      exact h

theorem failures_ids (failed : List ε) :
    (failed.foldl (fun c id => c.set id fun st => st.fail now) c).ids = c.ids := by
  induction failed generalizing c with
  | nil => rfl
  | cons other rest ih => rw [List.foldl_cons, ih, set_ids]

theorem call_ids (call : Call ε) : (c.call call).ids = c.ids := by
  cases call with
  | select now => exact select_ids
  | commit failed success now =>
    show (failed.foldl _ (c.set success _)).ids = c.ids
    rw [failures_ids, set_ids]

theorem Follows.call (hid : id ∈ c.ids) (h : Follows (c.state id) events) (call : Call ε) :
    Follows ((c.call call).state id) (events ++ call.events id) := by
  cases call with
  | select now =>
    rw [Call.events, List.append_nil]
    exact h.select
  | commit failed success now =>
    -- The endpoint that answered is reset before the failures are counted.
    show Follows ((failed.foldl _ (c.set success _)).state id) _
    rw [Call.events, ← List.append_assoc]
    refine Follows.failures failed (by rw [set_ids]; exact hid) ?_
    by_cases heq : id = success
    · subst heq
      rw [if_pos rfl, set_state_self hid]
      exact follows_success
    · rw [if_neg heq, List.append_nil, set_state_ne heq]
      exact h

theorem run_ids (endpointIds : List ε) (calls : List (Call ε)) :
    (run endpointIds calls).ids = endpointIds.reverse.dedup.reverse := by
  induction calls using List.reverseRecOn with
  | nil => rfl
  | append_singleton calls call ih =>
    rw [run, List.foldl_append]
    show (Circuit.call (run endpointIds calls) call).ids = _
    rw [call_ids, ih]

theorem mem_run_ids {endpointIds : List ε} {calls : List (Call ε)} :
    id ∈ (run endpointIds calls).ids ↔ id ∈ endpointIds := by
  rw [run_ids, List.mem_reverse, List.mem_dedup, List.mem_reverse]

/-- After any calls, the record of an endpoint is the one that its own history asks for. -/
theorem follows_history {endpointIds : List ε} (hid : id ∈ endpointIds) (calls : List (Call ε)) :
    Follows ((run endpointIds calls).state id) (history id calls) := by
  induction calls using List.reverseRecOn with
  | nil => exact follows_nil
  | append_singleton calls call ih =>
    rw [run, List.foldl_append, history, List.flatMap_append]
    show Follows ((Circuit.call (run endpointIds calls) call).state id)
      (history id calls ++ List.flatMap (Call.events id) [call])
    rw [List.flatMap_singleton]
    exact ih.call (mem_run_ids.mpr hid) call

/-! ### Who is probed -/

/-- The endpoint failed three times in a row, the last time within the cooldown before `now`. -/
def FailedRecently (events : List Event) (now : ℚ) : Prop :=
  failureThreshold ≤ trailing events ∧
    ∃ t, events.getLast? = some (.failure t) ∧ now < t + cooldownMs

theorem Follows.failedRecently (h : Follows st events) (hcooling : st.cooling now = true) :
    FailedRecently events now := by
  rw [EndpointState.cooling, Bool.and_eq_true] at hcooling
  have hopen : st.circuitState = .opened := of_decide_eq_true hcooling.1
  have hreached : failureThreshold ≤ trailing events := by
    by_contra hlt
    rw [h.closed.mpr (not_le.mp hlt)] at hopen
    cases hopen
  obtain ⟨t, hlast, huntil⟩ := h.above hreached
  exact ⟨hreached, t, hlast, huntil ▸ of_decide_eq_true hcooling.2⟩

/-- An endpoint that cools down has failed three times in a row. -/
theorem failedRecently_of_cooling {endpointIds : List ε} {calls : List (Call ε)}
    (hid : id ∈ endpointIds) (hcooling : ((run endpointIds calls).state id).cooling now = true) :
    FailedRecently (history id calls) now :=
  (follows_history hid calls).failedRecently hcooling

/-- The two branches of a selection after any calls: all that do not cool down, or, where every
endpoint cools down, one of them. -/
theorem select_run_cases {endpointIds : List ε} (hids : endpointIds ≠ [])
    (calls : List (Call ε)) (now : ℚ) :
    ((∃ id ∈ endpointIds, ((run endpointIds calls).state id).cooling now = false) ∧
        ∀ id, id ∈ ((run endpointIds calls).select now).1 ↔
          id ∈ endpointIds ∧ ((run endpointIds calls).state id).cooling now = false) ∨
      ((∀ id ∈ endpointIds, FailedRecently (history id calls) now) ∧
        ∃ picked ∈ endpointIds, ((run endpointIds calls).select now).1 = [picked]) := by
  obtain ⟨first, hfirst⟩ := List.exists_mem_of_ne_nil _ hids
  have hne : (run endpointIds calls).ids ≠ [] := List.ne_nil_of_mem (mem_run_ids.mpr hfirst)
  rcases select_cases hne now with ⟨⟨id, hid, hcool⟩, hselect⟩ | ⟨hall, id, hid, hselect, -⟩
  · refine .inl ⟨⟨id, mem_run_ids.mp hid, hcool⟩, fun id' => ?_⟩
    rw [hselect, List.mem_filter, mem_run_ids, Bool.not_eq_true']
  · refine .inr ⟨fun id' hid' => ?_, id, mem_run_ids.mp hid, hselect⟩
    exact failedRecently_of_cooling hid' (hall id' (mem_run_ids.mpr hid'))

/-- After any calls, a selection from a registry that is not empty picks somebody, and only from the
registry; whoever is left out has failed three times in a row, the last time less than five minutes
ago; and somebody whose cooldown still runs is only picked where all of them cool down. -/
theorem skipped_endpoint_failed_recently {endpointIds : List ε} (hids : endpointIds ≠ [])
    (calls : List (Call ε)) (now : ℚ) :
    ((run endpointIds calls).select now).1 ≠ [] ∧
      (∀ id ∈ ((run endpointIds calls).select now).1, id ∈ endpointIds) ∧
      (∀ id ∈ endpointIds, id ∉ ((run endpointIds calls).select now).1 →
        FailedRecently (history id calls) now) ∧
      ((∃ id ∈ endpointIds, ¬ FailedRecently (history id calls) now) →
        ∀ id ∈ ((run endpointIds calls).select now).1,
          ((run endpointIds calls).state id).cooling now = false) := by
  rcases select_run_cases hids calls now with ⟨⟨id, hid, hcool⟩, hselect⟩ | ⟨hall, picked,
    hpicked, hselect⟩
  · refine ⟨List.ne_nil_of_mem ((hselect id).mpr ⟨hid, hcool⟩), fun id' hid' =>
      ((hselect id').mp hid').1,
      fun id' hid' hnot => ?_, fun _ id' hid' => ((hselect id').mp hid').2⟩
    refine failedRecently_of_cooling hid' ?_
    by_contra hcool'
    exact hnot ((hselect id').mpr ⟨hid', by simpa using hcool'⟩)
  · rw [hselect]
    refine ⟨List.cons_ne_nil _ _, fun id' hid' => ?_, fun id' hid' _ => hall id' hid',
      fun ⟨id', hid', hnot⟩ => absurd (hall id' hid') hnot⟩
    rw [List.mem_singleton.mp hid']
    exact hpicked

/-- Three chains that reach endpoint 1 after endpoint 0 failed. -/
def threeFailures : List (Call ℕ) :=
  [.commit [0] 1 1000, .commit [0] 1 2000, .select 2500, .commit [0] 1 3000]

theorem skipped_endpoint_failed_recently_of_threeFailures :
    0 ∉ ((run [0, 1] threeFailures).select 4000).1 ∧
        FailedRecently (history 0 threeFailures) 4000 := by
  have hskipped : 0 ∉ ((run [0, 1] threeFailures).select 4000).1 := by decide +kernel
  exact ⟨hskipped, (skipped_endpoint_failed_recently (List.cons_ne_nil 0 [1])
    threeFailures 4000).2.2.1 0 (by decide) hskipped⟩

/-- A chain without an answer has tried every selected endpoint. -/
theorem attempts_none {answers : ε → Bool} {selectedIds registry failed failed' : List ε}
    (h : attempts answers selectedIds registry failed = (failed', none)) :
    ∀ id ∈ registry, id ∈ selectedIds → answers id = false := by
  induction registry generalizing failed with
  | nil =>
    intro id hid
    cases hid
  | cons other rest ih =>
    rw [attempts] at h
    intro id hid hselected
    split at h
    · next hskip =>
      rcases List.mem_cons.mp hid with rfl | hrest
      · exact absurd hselected hskip
      · exact ih h id hrest hselected
    · split at h
      · cases h
      · next hanswer =>
        rcases List.mem_cons.mp hid with rfl | hrest
        · simpa using hanswer
        · exact ih h id hrest hselected

/-- After any calls, a chain that reaches nobody has selected and tried an endpoint of the registry,
which failed, and every endpoint either was selected and failed or has failed three times in a row,
the last time less than five minutes before. -/
theorem unreachable_chain_explained {registry : List ε} (hids : registry ≠ [])
    (calls : List (Call ε)) (answers : ε → Bool) (selectedAt succeededAt : ℚ)
    (h : (probeChain (run registry calls) registry answers selectedAt succeededAt).1 = none) :
    (∃ id ∈ registry, id ∈ ((run registry calls).select selectedAt).1 ∧ answers id = false) ∧
      ∀ id ∈ registry, (id ∈ ((run registry calls).select selectedAt).1 ∧ answers id = false) ∨
        FailedRecently (history id calls) selectedAt := by
  -- Every endpoint that was selected was tried, and failed.
  have hfailed : ∀ id ∈ registry, id ∈ ((run registry calls).select selectedAt).1 →
      answers id = false := by
    unfold probeChain at h
    dsimp only at h
    split at h
    · cases h
    · next failed hattempts => exact attempts_none hattempts
  rcases select_run_cases hids calls selectedAt with
    ⟨⟨first, hfirst, hcool⟩, hselect⟩ | ⟨hall, picked, hpicked, hselect⟩
  · have hselected : ∀ id ∈ registry, ((run registry calls).state id).cooling selectedAt = false →
        id ∈ ((run registry calls).select selectedAt).1 ∧ answers id = false := by
      intro id hid hready
      have hmem := (hselect id).mpr ⟨hid, hready⟩
      exact ⟨hmem, hfailed id hid hmem⟩
    refine ⟨⟨first, hfirst, hselected first hfirst hcool⟩, fun id hid => ?_⟩
    rcases hcooling : ((run registry calls).state id).cooling selectedAt with _ | _
    · exact .inl (hselected id hid hcooling)
    · exact .inr (failedRecently_of_cooling hid hcooling)
  · have hmem : picked ∈ ((run registry calls).select selectedAt).1 := by
      rw [hselect]
      exact List.mem_singleton_self picked
    exact ⟨⟨picked, hpicked, hmem, hfailed picked hpicked hmem⟩, fun id hid => .inr (hall id hid)⟩

theorem unreachable_chain_explained_of_threeFailures :
    (probeChain (run [0, 1] threeFailures) [0, 1] (fun id => id == 0) 4000 4000).1 = none ∧
      FailedRecently (history 0 threeFailures) 4000 := by
  have hnone : (probeChain (run [0, 1] threeFailures) [0, 1] (fun id => id == 0)
      4000 4000).1 = none := by
    decide +kernel
  have hexplained :=
    (unreachable_chain_explained (List.cons_ne_nil 0 [1]) threeFailures (fun id => id == 0)
    4000 4000 hnone).2 0 (by decide)
  exact ⟨hnone, hexplained.resolve_left fun hselected => absurd hselected.2 (by decide)⟩

end ProbeCircuit
