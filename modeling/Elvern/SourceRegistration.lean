/-
The registration of Google Drive sources (`cloud_library_source_service.py`).

A call looks for the id it was given, asks Drive for the resource, and inserts the id that Drive
names. The look-up and the insert use a connection each, and other calls come between; the insert
takes the write lock, the commit publishes it.

* `fetchDriveResourceMetadata` — what is made of the answer of Drive;
* `Server.step` — the statements of the calls;
* `Watched` — the server, and the table that each call has looked at;
* `Apart` — no call gives an alias of a source that is there, and none inserts what another one has
  committed since its look-up;
* `Registered` — the ids of the sources are distinct, in the table and in the copy of the writer;
* `registered_once` — then no two sources have one resource, or one virtual path;
* `alias_registered_twice` — a resource that is named by an alias is registered twice.
-/
import Mathlib.Logic.Function.Basic
import Elvern.CloudSync
import Elvern.Runs

open Runs

namespace SourceRegistry

/-! ### Drive -/

inductive ResourceType
  | folder
  | sharedDrive
  deriving DecidableEq

def folderMimeType : String := "application/vnd.google-apps.folder"

/-- The answer of Drive for a resource; its ids have no slash. -/
structure DrivePayload where
  id : String
  name : Option String
  mimeType : Option String
  id_plain : '/' ∉ id.toList

structure DriveResource where
  resourceType : ResourceType
  resourceId : String
  displayName : String
  id_plain : '/' ∉ resourceId.toList

/-- `fetch_drive_resource_metadata`, from the answer; otherwise the detail of what it raises. -/
def fetchDriveResourceMetadata (resourceType : ResourceType) (payload : DrivePayload) :
    Except String DriveResource :=
  let resource (resourceType : ResourceType) : DriveResource :=
    ⟨resourceType, payload.id, PyText.orElse (payload.name.getD "") payload.id, payload.id_plain⟩
  match resourceType with
  | .folder =>
    if payload.mimeType.getD "None" ≠ folderMimeType then
      .error "This Google Drive resource is not a folder."
    else .ok (resource .folder)
  | .sharedDrive => .ok (resource .sharedDrive)

/-! ### Calls -/

/-- A row of `library_sources`. -/
structure LibrarySource where
  id : ℕ
  ownerUserId : ℕ
  provider : String
  googleDriveAccountId : ℕ
  providerIdentityId : ℕ
  resourceType : ResourceType
  resourceId : String
  displayName : String
  isShared : Bool
  deriving DecidableEq

/-- The table, and the sequence of its ids. -/
structure LibrarySources where
  rows : List LibrarySource
  sequence : ℕ
  deriving DecidableEq

/-- The arguments of `add_google_drive_library_source_record`. -/
structure AddSource where
  userId : ℕ
  isAdmin : Bool
  resourceType : ResourceType
  resourceId : String
  shared : Bool
  provider : String
  deriving DecidableEq

/-- The row of the user's Google account. -/
structure AccountRow where
  id : ℕ
  providerIdentityId : ℕ
  deriving DecidableEq

/-- Where a call is. -/
inductive Phase
  | called
  | checked (account : AccountRow)
  | named (account : AccountRow) (resource : DriveResource)
  | inserted (sourceId : ℕ)
  | returned (sourceId : ℕ)
  | raised (statusCode : ℕ) (detail : String)
  | lost

/-- The committed table, the call that writes with its own copy, and the calls. -/
structure Server where
  committed : LibrarySources
  writer : Option (ℕ × LibrarySources)
  calls : ℕ → Option (AddSource × Phase)

def Server.fresh : Server := ⟨⟨[], 0⟩, none, fun _ => none⟩

inductive Act
  | call (i : ℕ) (request : AddSource)
  /-- the account of the user, and the look-up -/
  | check (i : ℕ) (account : AccountRow)
  /-- the answer of Drive; without one the request raises -/
  | fetch (i : ℕ) (payload : Option DrivePayload)
  | insert (i : ℕ)
  | commit (i : ℕ)
  /-- the connection fails, or the process ends -/
  | lose (i : ℕ)

variable (uni : PyText.Unicode)

/-- The checks before the look-up. -/
def admitted (request : AddSource) : Phase :=
  if PyText.strip uni request.resourceId = "" then
    .raised 400 "Google Drive resource ID is required."
  else if request.shared = true ∧ request.isAdmin = false then
    .raised 403 "Only admins can add shared libraries."
  else .called

/-- The look-up of a duplicate. -/
def checkDuplicate (sources : LibrarySources) (request : AddSource)
    (account : AccountRow) : Phase :=
  let duplicate := sources.rows.find? fun r => decide (r.provider = request.provider ∧
    r.resourceType = request.resourceType ∧ r.resourceId = PyText.strip uni request.resourceId)
  match duplicate with
  | none => .checked account
  | some row =>
    if row.isShared = true ∧ row.ownerUserId ≠ request.userId then
      .raised 409 "This resource has already been added by your admin."
    else .raised 409 "This Google Drive resource has already been added."

/-- The insert. -/
def LibrarySources.insert (sources : LibrarySources) (request : AddSource) (account : AccountRow)
    (resource : DriveResource) : LibrarySources where
  rows := sources.rows ++
    [{ id := sources.sequence + 1
       ownerUserId := request.userId
       provider := request.provider
       googleDriveAccountId := account.id
       providerIdentityId := account.providerIdentityId
       resourceType := resource.resourceType
       resourceId := resource.resourceId
       displayName := resource.displayName
       isShared := request.shared }]
  sequence := sources.sequence + 1

namespace Server

variable (s : Server)

def setPhase (i : ℕ) (request : AddSource) (phase : Phase) : Server :=
  { s with calls := Function.update s.calls i (some (request, phase)) }

/-- One statement of one call; `none` where it is not its turn. -/
def step : Act → Option Server
  | .call i request =>
    match s.calls i with
    | none => some (s.setPhase i request (admitted uni request))
    | some _ => none
  | .check i account =>
    match s.calls i with
    | some (request, .called) =>
      some (s.setPhase i request (checkDuplicate uni s.committed request account))
    | _ => none
  | .fetch i payload =>
    match s.calls i with
    | some (request, .checked account) =>
      match payload with
      | none => some (s.setPhase i request (.raised 502 ""))
      | some payload =>
        match fetchDriveResourceMetadata request.resourceType payload with
        | .error detail => some (s.setPhase i request (.raised 400 detail))
        | .ok resource => some (s.setPhase i request (.named account resource))
    | _ => none
  | .insert i =>
    match s.calls i, s.writer with
    | some (request, .named account resource), none =>
      some { s.setPhase i request (.inserted (s.committed.sequence + 1)) with
        writer := some (i, s.committed.insert request account resource) }
    | _, _ => none
  | .commit i =>
    match s.calls i, s.writer with
    | some (request, .inserted sourceId), some (j, sources) =>
      if j = i then
        some { s.setPhase i request (.returned sourceId) with committed := sources, writer := none }
      else none
    | _, _ => none
  | .lose i =>
    match s.calls i with
    | some (_, .returned _) => none
    | some (_, .raised _ _) => none
    | some (request, _) =>
      some { s.setPhase i request .lost with
        writer := if (s.writer.map Prod.fst) = some i then none else s.writer }
    | none => none

end Server

/-- The server, and for each call the table as it was when the call looked for a duplicate. -/
structure Watched where
  server : Server
  seen : ℕ → LibrarySources

namespace Watched

def fresh : Watched := ⟨.fresh, fun _ => ⟨[], 0⟩⟩

/-- One statement of one call. -/
def step (w : Watched) (act : Act) : Option Watched :=
  (w.server.step uni act).map fun s =>
    { server := s
      seen := match act with
        | .check i _ => Function.update w.seen i w.server.committed
        | _ => w.seen }

/-- At an insert: a source that had the id of Drive at the look-up has it under the type and the id
as they were given, and every source with this id was there at the look-up. -/
def Apart (w : Watched) : Act → Prop
  | .insert i => ∀ request account resource,
      w.server.calls i = some (request, .named account resource) →
      (∀ row ∈ (w.seen i).rows, row.resourceId = resource.resourceId →
        row.provider = request.provider ∧ row.resourceType = request.resourceType ∧
          row.resourceId = PyText.strip uni request.resourceId) ∧
      ∀ row ∈ w.server.committed.rows, row.resourceId = resource.resourceId → row ∈ (w.seen i).rows
  | _ => True

end Watched

/-! ### One source for a resource -/

/-- The sources have ids without a slash, and no two have one. -/
structure LibrarySources.Distinct (sources : LibrarySources) : Prop where
  ids : (sources.rows.map LibrarySource.resourceId).Nodup
  plain : ∀ row ∈ sources.rows, '/' ∉ row.resourceId.toList

/-- An insert finds no source with the id that Drive has named. -/
def Unclaimed (s : Server) : Act → Prop
  | .insert i => ∀ request account resource, s.calls i = some (request, .named account resource) →
      ∀ row ∈ s.committed.rows, row.resourceId ≠ resource.resourceId
  | _ => True

/-- The call has looked for a duplicate, and has not inserted yet. -/
def Phase.looked : Phase → Bool
  | .checked _ => true
  | .named _ _ => true
  | _ => false

/-- What the look-up of a call has shown: it has seen no source of the type and the id as they were
given. -/
def Looked (w : Watched) : Prop :=
  ∀ i request phase, w.server.calls i = some (request, phase) → phase.looked = true →
    ∀ row ∈ (w.seen i).rows, ¬ (row.provider = request.provider ∧
      row.resourceType = request.resourceType ∧ row.resourceId =
        PyText.strip uni request.resourceId)

/-- The ids are distinct, in the table and in the copy of the writer. -/
structure Registered (s : Server) : Prop where
  committed : s.committed.Distinct
  writer : ∀ i sources, s.writer = some (i, sources) → sources.Distinct

section Steps

variable {uni} {s s' : Server} {request : AddSource} {account : AccountRow}
  {resource : DriveResource}

theorem LibrarySources.Distinct.insert {sources : LibrarySources} (h : sources.Distinct)
    (hnew : ∀ row ∈ sources.rows, row.resourceId ≠ resource.resourceId) :
    (sources.insert request account resource).Distinct where
  ids := by
    rw [LibrarySources.insert, List.map_append, List.map_singleton, List.nodup_append]
    refine ⟨h.ids, List.nodup_singleton _, fun a ha b hb => ?_⟩
    obtain ⟨row, hrow, rfl⟩ := List.mem_map.1 ha
    rw [List.mem_singleton.1 hb]
    exact hnew row hrow
  plain row hrow := by
    rcases List.mem_append.1 hrow with hrow | hrow
    · exact h.plain row hrow
    · rw [List.mem_singleton.1 hrow]
      exact resource.id_plain

theorem Registered.setPhase (h : Registered s) (i : ℕ) (phase : Phase) :
    Registered (s.setPhase i request phase) := ⟨h.committed, h.writer⟩

/-- **One statement** keeps the ids distinct. -/
theorem Registered.step (h : Registered s) {act : Act} (hok : Unclaimed s act)
    (hstep : s.step uni act = some s') : Registered s' := by
  cases act with
  | call i request =>
    rw [Server.step] at hstep
    split at hstep
    · cases hstep
      exact h.setPhase ..
    · cases hstep
  | check i account =>
    rw [Server.step] at hstep
    split at hstep
    · cases hstep
      exact h.setPhase ..
    · cases hstep
  | fetch i payload =>
    rw [Server.step] at hstep
    split at hstep
    · split at hstep
      · cases hstep
        exact h.setPhase ..
      · split at hstep
        · cases hstep
          exact h.setPhase ..
        · cases hstep
          exact h.setPhase ..
    · cases hstep
  | insert i =>
    rw [Server.step] at hstep
    split at hstep
    next request account resource hcall _ =>
      cases hstep
      -- the row is only seen by its own connection until it is committed
      refine ⟨h.committed, fun j sources hwriter => ?_⟩
      cases hwriter
      exact h.committed.insert (hok _ _ _ hcall)
    next => cases hstep
  | commit i =>
    rw [Server.step] at hstep
    split at hstep
    next request sourceId j sources _ hwriter =>
      split_ifs at hstep
      cases hstep
      exact ⟨h.writer _ _ hwriter, fun _ _ hnone => by cases hnone⟩
    next => cases hstep
  | lose i =>
    rw [Server.step] at hstep
    split at hstep
    · cases hstep
    · cases hstep
    · cases hstep
      -- the transaction of a lost connection is rolled back
      refine ⟨h.committed, fun j sources hwriter => ?_⟩
      dsimp only at hwriter
      split_ifs at hwriter
      exact h.writer _ _ hwriter
    · cases hstep

/-! ### The look-ups -/

variable {w w' : Watched} {i j : ℕ} {phase : Phase}

theorem setPhase_calls_self : (s.setPhase i request phase).calls i = some (request, phase) :=
  Function.update_self ..

theorem setPhase_calls_ne (hj : j ≠ i) : (s.setPhase i request phase).calls j = s.calls j :=
  Function.update_of_ne hj ..

/-- The look-up goes on only where it has found no duplicate. -/
theorem checkDuplicate_looked {sources : LibrarySources}
    (h : (checkDuplicate uni sources request account).looked = true) :
    ∀ row ∈ sources.rows, ¬ (row.provider = request.provider ∧
      row.resourceType = request.resourceType ∧ row.resourceId =
          PyText.strip uni request.resourceId) := by
  unfold checkDuplicate at h
  dsimp only at h
  split at h
  · next hnone =>
    intro row hrow hkey
    have hmissed := List.find?_eq_none.1 hnone row hrow
    exact hmissed (decide_eq_true hkey)
  · split at h
    · cases h
    · cases h

/-- A call whose phase is new, while the tables that were looked at stay. -/
theorem Looked.setPhase (h : Looked uni w)
    (hphase : phase.looked = true → ∃ old, w.server.calls i = some (request, old) ∧
      old.looked = true)
    {s' : Server} (hcalls : s'.calls = (w.server.setPhase i request phase).calls) :
    Looked uni { server := s', seen := w.seen } := by
  intro j request' phase' hcall hlooked
  dsimp only at hcall ⊢
  rw [hcalls] at hcall
  by_cases hj : j = i
  · subst hj
    rw [setPhase_calls_self, Option.some_inj, Prod.mk.injEq] at hcall
    obtain ⟨rfl, rfl⟩ := hcall
    obtain ⟨old, hold, holdLooked⟩ := hphase hlooked
    exact h j _ old hold holdLooked
  · rw [setPhase_calls_ne hj] at hcall
    exact h j _ _ hcall hlooked

/-- **One statement** keeps what the look-ups have shown. -/
theorem Looked.step (h : Looked uni w) {act : Act} (hstep : w.step uni act = some w') :
    Looked uni w' := by
  obtain ⟨s', hs', rfl⟩ := Option.map_eq_some_iff.1 hstep
  cases act with
  | call i request =>
    rw [Server.step] at hs'
    split at hs'
    · cases hs'
      refine h.setPhase (fun hlooked => ?_) rfl
      -- A call that is only admitted has not looked yet.
      unfold admitted at hlooked
      split_ifs at hlooked <;> cases hlooked
    · cases hs'
  | check i account =>
    rw [Server.step] at hs'
    split at hs'
    next request _ =>
      cases hs'
      intro j request' phase hcall hlooked
      dsimp only at hcall ⊢
      by_cases hj : j = i
      · subst hj
        rw [setPhase_calls_self, Option.some_inj, Prod.mk.injEq] at hcall
        obtain ⟨rfl, rfl⟩ := hcall
        rw [Function.update_self]
        exact checkDuplicate_looked hlooked
      · rw [setPhase_calls_ne hj] at hcall
        rw [Function.update_of_ne hj]
        exact h j _ _ hcall hlooked
    next => cases hs'
  | fetch i payload =>
    rw [Server.step] at hs'
    split at hs'
    next request account hcall =>
      split at hs'
      · cases hs'
        exact h.setPhase (fun hlooked => by cases hlooked) rfl
      · split at hs'
        · cases hs'
          exact h.setPhase (fun hlooked => by cases hlooked) rfl
        · -- The answer of Drive changes nothing in what the look-up has shown.
          cases hs'
          exact h.setPhase (fun _ => ⟨_, hcall, rfl⟩) rfl
    next => cases hs'
  | insert i =>
    rw [Server.step] at hs'
    split at hs'
    next request account resource _ _ =>
      cases hs'
      exact h.setPhase (fun hlooked => by cases hlooked) rfl
    next => cases hs'
  | commit i =>
    rw [Server.step] at hs'
    split at hs'
    next request sourceId j sources _ _ =>
      split_ifs at hs'
      cases hs'
      exact h.setPhase (fun hlooked => by cases hlooked) rfl
    next => cases hs'
  | lose i =>
    rw [Server.step] at hs'
    split at hs'
    · cases hs'
    · cases hs'
    · cases hs'
      exact h.setPhase (fun hlooked => by cases hlooked) rfl
    · cases hs'

/-- What was looked at shows that the insert finds no source with its id. -/
theorem Looked.unclaimed (h : Looked uni w) {act : Act} (hok : w.Apart uni act) :
    Unclaimed w.server act := by
  cases act with
  | insert i =>
    intro request account resource hcall row hrow hid
    obtain ⟨hkey, hseen⟩ := hok request account resource hcall
    have hold := hseen row hrow hid
    exact h i request _ hcall rfl row hold (hkey row hold hid)
  | call i request => trivial
  | check i account => trivial
  | fetch i payload => trivial
  | commit i => trivial
  | lose i => trivial

end Steps

/-- A virtual path begins with the id of its source. -/
theorem resourceId_of_virtualPath {id id' : String} {row row' : HiddenKeys.DriveRow}
    (hplain : '/' ∉ id.toList) (hplain' : '/' ∉ id'.toList)
    (h : row.virtualPath id = row'.virtualPath id') : id = id' := by
  have hpath : ∀ (id : String) (row : HiddenKeys.DriveRow), '/' ∉ id.toList →
      ((row.virtualPath id).toList.drop 9).takeWhile (· ≠ '/') = id.toList := by
    intro id row hid
    have htail : ∃ tail, (row.virtualPath id).toList = "gdrive://".toList ++
        (id.toList ++ '/' :: tail) := by
      refine ⟨row.id.toList ++ '/' :: (PyText.orElse
        (PyText.pathName (PyText.orElse row.fileName row.id)) row.id).toList, ?_⟩
      rw [HiddenKeys.DriveRow.virtualPath, HiddenKeys.buildCloudVirtualPath]
      simp only [String.toList_append, List.append_assoc]
      rfl
    obtain ⟨tail, htail⟩ := htail
    have hdrop : ("gdrive://".toList ++ (id.toList ++ '/' :: tail)).drop 9 =
      id.toList ++ '/' :: tail := rfl
    rw [htail, hdrop, List.takeWhile_append_of_pos]
    · simp
    · intro c hc
      refine decide_eq_true ?_
      rintro rfl
      exact hid hc
  have hlist := hpath id row hplain
  rw [h, hpath id' row' hplain'] at hlist
  exact (String.toList_inj.1 hlist).symm

/-- After every run in which no call gives an alias of a source that is there when it looks, and
none commits between the look-up of another one and its insert what that one inserts, no two sources
have one resource, and no two have one virtual path. -/
theorem registered_once (uni : PyText.Unicode) (w : Watched)
    (h : Reach (Watched.step uni) (Watched.Apart uni) .fresh w) :
    w.server.committed.rows.Pairwise fun a b =>
      (a.provider, a.resourceType, a.resourceId) ≠ (b.provider, b.resourceType, b.resourceId) ∧
      ∀ row row' : HiddenKeys.DriveRow,
        row.virtualPath a.resourceId ≠ row'.virtualPath b.resourceId := by
  have hfresh : Registered Server.fresh :=
    ⟨⟨List.nodup_nil, fun _ hrow => absurd hrow List.not_mem_nil⟩, fun _ _ hnone => by cases hnone⟩
  have hlooked : Looked uni .fresh := fun _ _ _ hcall => by cases hcall
  have hw : Registered w.server ∧ Looked uni w := by
    refine Reach.invariant (P := fun w => Registered w.server ∧ Looked uni w) ⟨hfresh, hlooked⟩ ?_ h
    intro w act w' _ hw hok hstep
    obtain ⟨s', hs', hw'⟩ := Option.map_eq_some_iff.1 hstep
    refine ⟨?_, hw.2.step hstep⟩
    rw [← hw']
    exact hw.1.step (hw.2.unclaimed hok) hs'
  have hne : w.server.committed.rows.Pairwise fun a b => a.resourceId ≠ b.resourceId :=
    List.pairwise_map.1 hw.1.committed.ids
  refine hne.imp_of_mem fun {a b} ha hb hab => ⟨fun heq => hab ?_, fun row row' heq => hab ?_⟩
  · exact congrArg (fun key => key.2.2) heq
  · exact resourceId_of_virtualPath (hw.1.committed.plain a ha) (hw.1.committed.plain b hb) heq

section Examples

def addFolder (userId : ℕ) (resourceId : String) : AddSource :=
  ⟨userId, true, .folder, resourceId, false, "google_drive"⟩

def moviesFolder : DrivePayload := ⟨"0AMovies", some "Movies", some folderMimeType, by decide⟩

/-- A call from its first statement to its last. -/
def wholeCall (i : ℕ) (resourceId : String) : List Act :=
  [.call i (addFolder i resourceId), .check i ⟨i, i⟩, .fetch i (some moviesFolder),
    .insert i, .commit i]

/-- A folder is added, and then again, which is refused. -/
theorem registered_once_movies :
    ∃ w, Reach (Watched.step .ascii) (Watched.Apart .ascii) .fresh w ∧
      w.server.calls 2 = some (addFolder 2 "0AMovies",
        .raised 409 "This Google Drive resource has already been added.") ∧
      w.server.committed.rows.Pairwise fun a b =>
        (a.provider, a.resourceType, a.resourceId) ≠ (b.provider, b.resourceType, b.resourceId) ∧
        ∀ row row' : HiddenKeys.DriveRow,
          row.virtualPath a.resourceId ≠ row'.virtualPath b.resourceId := by
  have hcall := (@Reach.start Watched Act (Watched.step .ascii) (Watched.Apart .ascii) .fresh).next
    (a := Act.call 1 (addFolder 1 "0AMovies")) True.intro rfl
  have hcheck := hcall.next (a := Act.check 1 ⟨1, 1⟩) True.intro rfl
  have hfetch := hcheck.next (a := Act.fetch 1 (some moviesFolder)) True.intro rfl
  have hinsert := hfetch.next (a := Act.insert 1)
    (fun _ _ _ _ => ⟨fun row hrow => (by cases hrow), fun row hrow => (by cases hrow)⟩) rfl
  have hcommit := hinsert.next (a := Act.commit 1) True.intro rfl
  have hagain := hcommit.next (a := Act.call 2 (addFolder 2 "0AMovies")) True.intro rfl
  have hrefused := hagain.next (a := Act.check 2 ⟨2, 2⟩) True.intro rfl
  exact ⟨_, hrefused, rfl, registered_once .ascii _ hrefused⟩

/-- The folder is added by its alias, and again. -/
theorem alias_registered_twice :
    ∃ s, runFrom (Server.step .ascii) .fresh (wholeCall 1 "root" ++ wholeCall 2 "root") = some s ∧
      ¬ s.committed.rows.Pairwise fun a b =>
        (a.provider, a.resourceType, a.resourceId) ≠
          (b.provider, b.resourceType, b.resourceId) := by
  have hrun : runFrom (Server.step .ascii) .fresh (wholeCall 1 "root" ++ wholeCall 2 "root") =
    some _ := rfl
  refine ⟨_, hrun, fun hpairwise => ?_⟩
  have hfirst := List.rel_of_pairwise_cons hpairwise (List.mem_singleton_self _)
  exact hfirst rfl

end Examples

end SourceRegistry
