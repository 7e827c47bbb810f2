/-
The ledger of the diagnostics store (`playback_diagnostics/capacity.py`), a document that holds its
own size.

* `encodeJsonDocument` — JSON with `indent=2`, and `byteLength`, its size in UTF-8;
* `ledgerDocument`, `writeLedger` — the document with its digest, and the search for its size;
* `byteLength_ledger` — the size is a constant and the digits of `committed_usage_bytes`;
* `ledger_converges` — the search ends within its rounds for every size a file can have, and far
  beyond.

Python writes no integer of more than 4300 digits; the sizes and times that come here have some
twenty, and `encodeJsonDocument` writes integers of any length.
-/
import Mathlib.Algebra.BigOperators.Group.List.Basic
import Mathlib.Algebra.Order.Ring.Int
import Elvern.CapacityGuard
import Elvern.JournalText
import Elvern.SizeFixpoints

open Journal SizeFixpoints

namespace Capacity

/-! ### JSON with an indent -/

/-- How many bytes the text has in UTF-8. -/
def byteLength (text : List Char) : ℕ := (text.map Char.utf8Size).sum

def newline (depth : ℕ) : List Char := '\n' :: List.replicate (2 * depth) ' '

/-- The parts, each on a line of its own. -/
def onLines (depth : ℕ) : List (List Char) → List Char
  | [] => []
  | [part] => part
  | part :: rest => part ++ ',' :: newline depth ++ onLines depth rest

def indentedMember (m : String × List Char) : List Char := escape m.1 ++ ':' :: ' ' :: m.2

/-- Brackets around the parts; without parts there is no line. -/
def bracketed (left right : Char) (depth : ℕ) (parts : List (List Char)) : List Char :=
  if parts = [] then [left, right]
  else left :: newline (depth + 1) ++ onLines (depth + 1) parts ++ newline depth ++ [right]

mutual

/-- `json.dumps(value, ensure_ascii=False, indent=2, sort_keys=True)` -/
def indented (depth : ℕ) : Value → List Char
  | .array items => bracketed '[' ']' depth (indentedItems (depth + 1) items)
  | .object members =>
    bracketed '{' '}' depth ((sortKeys (indentedMembers (depth + 1) members)).map indentedMember)
  | value => value.dumps

def indentedItems (depth : ℕ) : List Value → List (List Char)
  | [] => []
  | item :: rest => indented depth item :: indentedItems depth rest

def indentedMembers (depth : ℕ) : List (String × Value) → List (String × List Char)
  | [] => []
  | (key, value) :: rest => (key, indented depth value) :: indentedMembers depth rest

end

/-- `encode_json_document` -/
def encodeJsonDocument (document : Event) : List Char := indented 0 (.object document) ++ ['\n']

theorem indented_str (depth : ℕ) (text : String) : indented depth (.str text) = escape text := by
  simp [indented, Value.dumps]

theorem indented_number (depth : ℕ) (number : NumberText) :
    indented depth (.number number) = number.text := by
  simp [indented, Value.dumps]

theorem digit_plain {c : Char} {n : ℕ} (h : c ∈ Nat.toDigits 10 n) :
    c ∈ "0123456789+-.e".toList := by
  have hdigit := Nat.isDigit_of_mem_toDigits (by decide) (by decide) h
  rw [Char.isDigit, Bool.and_eq_true, decide_eq_true_eq, decide_eq_true_eq] at hdigit
  have hlow : 48 ≤ c.toNat := hdigit.1
  have hhigh : c.toNat ≤ 57 := hdigit.2
  have hc : c = Nat.digitChar (c.toNat - 48) := by
    apply Char.toNat_inj.1
    rw [Nat.toNat_digitChar_of_lt_ten (by omega)]
    omega
  have hall : ∀ k < 10, Nat.digitChar k ∈ "0123456789+-.e".toList := by decide
  rw [hc]
  exact hall _ (by omega)

/-- `int.__repr__` -/
def intText : ℤ → NumberText
  | .ofNat n => ⟨Nat.toDigits 10 n, fun _ h => digit_plain h⟩
  | .negSucc n => ⟨'-' :: Nat.toDigits 10 (n + 1), by
      intro c h
      rcases List.mem_cons.1 h with rfl | h
      · decide
      · exact digit_plain h⟩

/-! ### The document -/

/-- `hashlib.sha256(canonical).hexdigest()` -/
structure Sha256 where
  hexdigest : List Char → String
  length : ∀ text, (hexdigest text).toList.length = 64
  hex : ∀ text, ∀ c ∈ (hexdigest text).toList, c ∈ "0123456789abcdef".toList

inductive ShutdownState
  | clean
  | dirty
  deriving DecidableEq

def ShutdownState.text : ShutdownState → String
  | .clean => "clean"
  | .dirty => "dirty"

def ledgerSchemaVersion : String := "playback-diagnostics-capacity-ledger-v1"

/-- `CAPACITY_MANAGED_FILE_CLASSES` -/
def managedFileClasses : List String :=
  ["catalog", "exports", "host_observations", "identity", "journals", "keys", "lease_metadata",
    "manifests", "quarantine", "recovery_scratch", "session_artifacts", "status", "temporary_files"]

/-- A guard with what it keeps for its ledger. -/
structure LedgerGuard (limits : Limits) where
  guard : Guard limits
  ledgerGeneration : ℤ
  lastReconciliationNs : ℤ

section

variable {limits : Limits} (sha256 : Sha256) (g : LedgerGuard limits)
  (shutdownState : ShutdownState) (generation generatedAtNs : ℤ)

/-- The document before its digest. -/
def ledgerPayload (committedUsageBytes : ℤ) : Event :=
  [("schema_version", .str ledgerSchemaVersion),
    ("ledger_generation", .number (intText generation)),
    ("shutdown_state", .str shutdownState.text),
    ("all_mutation_workers_stopped", .bool (shutdownState = .clean)),
    ("committed_usage_bytes", .number (intText committedUsageBytes)),
    ("reserved_bytes", .number (intText 0)),
    ("hard_cap_bytes", .number (intText limits.hardCapBytes)),
    ("emergency_reserve_bytes", .number (intText limits.emergencyReserveBytes)),
    ("last_reconciliation_ns", .number (intText g.lastReconciliationNs)),
    ("generated_at_ns", .number (intText generatedAtNs)),
    ("managed_file_classes", .array (managedFileClasses.map Value.str))]

/-- `_ledger_document` -/
def ledgerDocument (committedUsageBytes : ℤ) : Event :=
  let payload := ledgerPayload g shutdownState generation generatedAtNs committedUsageBytes
  payload ++ [("integrity_sha256", .str (sha256.hexdigest (Value.object payload).dumps))]

end

inductive LedgerError
  | replacementUnderflow
  | sizeDidNotConverge
  | hardCapInvariantBroken
  | sizeMismatch
  deriving DecidableEq

/-- The loop over the size: the usage with which it ends, and the document as it is then encoded. -/
def sizeLoop (document : ℤ → Event) (baseUsage : ℤ) : ℕ → ℤ → Option (ℤ × List Char)
  | 0, _ => none
  | rounds + 1, candidateUsage =>
    let encoded := encodeJsonDocument (document candidateUsage)
    let nextUsage := baseUsage + byteLength encoded
    if nextUsage = candidateUsage then some (candidateUsage, encoded)
    else sizeLoop document baseUsage rounds nextUsage

/-- `_write_ledger_locked` over a file of `oldSize` bytes: the guard behind it, and what is in the
file. -/
def writeLedger {limits : Limits} (sha256 : Sha256) (g : LedgerGuard limits)
    (shutdownState : ShutdownState) (generatedAtNs : ℤ) (oldSize : ℕ) :
    Except LedgerError (LedgerGuard limits × List Char) :=
  let generation := g.ledgerGeneration + 1
  let baseUsage := g.guard.usageBytes - oldSize
  if baseUsage < 0 then .error .replacementUnderflow
  else
    let document := ledgerDocument sha256 g shutdownState generation generatedAtNs
    match sizeLoop document baseUsage 8 g.guard.usageBytes with
    | none => .error .sizeDidNotConverge
    | some (candidateUsage, encoded) =>
      if candidateUsage + g.guard.reservedBytes > limits.hardCapBytes then
        .error .hardCapInvariantBroken
      else
        let file := encodeJsonDocument (document candidateUsage)
        let actualSize := byteLength file
        if actualSize ≠ byteLength encoded then .error .sizeMismatch
        else
          .ok ({ g with
            guard := { g.guard with usageBytes := baseUsage + actualSize }
            ledgerGeneration := generation }, file)

/-! ### The size of the document -/

theorem byteLength_append (a b : List Char) :
    byteLength (a ++ b) = byteLength a + byteLength b := by
  rw [byteLength, List.map_append, List.sum_append]
  rfl

theorem byteLength_cons (c : Char) (a : List Char) :
    byteLength (c :: a) = c.utf8Size + byteLength a := by
  rw [byteLength, List.map_cons, List.sum_cons]
  rfl

/-- A text of characters of one byte each. -/
theorem byteLength_eq_length {text : List Char} (h : ∀ c ∈ text, c.utf8Size = 1) :
    byteLength text = text.length := by
  induction text with
  | nil => rfl
  | cons c text ih =>
    rw [byteLength_cons, h c List.mem_cons_self, ih fun d hd => h d (List.mem_cons_of_mem _ hd),
      List.length_cons, Nat.add_comm]

/-- The parts and what stands between them. -/
theorem byteLength_onLines {depth : ℕ} {parts : List (List Char)} (hne : parts ≠ []) :
    byteLength (onLines depth parts) + byteLength (',' :: newline depth) =
      (parts.map fun part => byteLength part + byteLength (',' :: newline depth)).sum := by
  induction parts with
  | nil => exact absurd rfl hne
  | cons part rest ih =>
    cases rest with
    | nil => simp [onLines]
    | cons next rest =>
      have hrest := ih (List.cons_ne_nil _ _)
      rw [List.map_cons, List.sum_cons, ← hrest]
      simp only [onLines, byteLength_append]
      omega

/-- A member with the separator behind it. -/
def memberBytes (m : String × List Char) : ℕ :=
  byteLength (indentedMember m) + byteLength (',' :: newline 1)

/-- The bytes of the members of a document. -/
def membersBytes (document : Event) : ℕ := ((indentedMembers 1 document).map memberBytes).sum

theorem membersBytes_cons (key : String) (value : Value) (rest : Event) :
    membersBytes ((key, value) :: rest) = memberBytes (key, indented 1 value) +
        membersBytes rest := by
  rw [membersBytes, indentedMembers, List.map_cons, List.sum_cons]
  rfl

theorem membersBytes_nil : membersBytes [] = 0 := by
  rw [membersBytes, indentedMembers]
  rfl

theorem membersBytes_append (document document' : Event) :
    membersBytes (document ++ document') = membersBytes document + membersBytes document' := by
  induction document with
  | nil => rw [List.nil_append, membersBytes_nil, Nat.zero_add]
  | cons m rest ih =>
    rw [List.cons_append, membersBytes_cons, membersBytes_cons, ih, Nat.add_assoc]

/-- The size of a document does not depend on the order of its members. -/
theorem byteLength_encode {document : Event} (hne : document ≠ []) :
    byteLength (encodeJsonDocument document) = membersBytes document + 3 := by
  have hmembers : indentedMembers 1 document ≠ [] := by
    cases document with
    | nil => exact absurd rfl hne
    | cons m rest => simp [indentedMembers]
  -- sorting the keys permutes the members, and a sum does not mind
  have hperm := List.mergeSort_perm (indentedMembers 1 document)
    fun a b => decide (a.1 ≤ b.1)
  have hsorted : (sortKeys (indentedMembers 1 document)).map indentedMember ≠ [] := by
    intro hnil
    rw [List.map_eq_nil_iff] at hnil
    rw [sortKeys] at hnil
    rw [hnil] at hperm
    exact hmembers hperm.nil_eq.symm
  have hlines := @byteLength_onLines 1 _ hsorted
  have hsum : (((sortKeys (indentedMembers 1 document)).map indentedMember).map
      fun part => byteLength part + byteLength (',' :: newline 1)).sum =
        membersBytes document := by
    rw [List.map_map]
    exact (hperm.map memberBytes).sum_eq
  have hseparator : byteLength (',' :: newline 1) = 4 := by decide
  have hopen : byteLength ('{' :: newline 1) = 4 := by decide
  have hclose : byteLength (newline 0) = 1 := by decide
  have hbrace : byteLength ['}'] = 1 := by decide
  have hend : byteLength ['\n'] = 1 := by decide
  rw [encodeJsonDocument, indented, bracketed, if_neg hsorted]
  simp only [byteLength_append, Nat.zero_add] at hlines ⊢
  omega

theorem length_intText (n : ℕ) : byteLength (intText n).text = digits n := by
  refine byteLength_eq_length fun c hc => ?_
  have hall : "0123456789+-.e".toList.all (fun c => c.utf8Size = 1) = true := by decide
  exact of_decide_eq_true (List.all_eq_true.1 hall c (digit_plain hc))

/-- A digest is written with 66 bytes. -/
theorem byteLength_hexdigest (sha256 : Sha256) (text : List Char) :
    byteLength (escape (sha256.hexdigest text)) = 66 := by
  have hall : "0123456789abcdef".toList.all
      (fun c => decide (escapeChar c = [c]) && decide (c.utf8Size = 1)) = true := by decide
  have hplain : ∀ c ∈ (sha256.hexdigest text).toList, escapeChar c = [c] ∧ c.utf8Size = 1 := by
    intro c hc
    have hboth := List.all_eq_true.1 hall c (sha256.hex text c hc)
    rw [Bool.and_eq_true, decide_eq_true_eq, decide_eq_true_eq] at hboth
    exact hboth
  have hflat : (sha256.hexdigest text).toList.flatMap escapeChar =
      (sha256.hexdigest text).toList := by
    rw [List.flatMap_congr fun c hc => (hplain c hc).1]
    exact List.flatMap_singleton' _
  have hlength := byteLength_eq_length fun c hc => (hplain c hc).2
  rw [sha256.length] at hlength
  rw [escape, hflat, byteLength_append, byteLength_cons, hlength]
  decide

section Size

variable {limits : Limits} (sha256 : Sha256) (g : LedgerGuard limits)
  (shutdownState : ShutdownState) (generation generatedAtNs : ℤ)

/-- The size of the document but for the digits of `committed_usage_bytes`: the other members, the
digest, the key of the size and the braces. -/
def fixedBytes : ℕ :=
  membersBytes ((ledgerPayload g shutdownState generation generatedAtNs 0).eraseIdx 4) + 122

theorem memberBytes_eq (m : String × List Char) :
    memberBytes m = byteLength (escape m.1) + 6 + byteLength m.2 := by
  have hcolon : Char.utf8Size ':' = 1 := by decide
  have hspace : Char.utf8Size ' ' = 1 := by decide
  have hseparator : byteLength (',' :: newline 1) = 4 := by decide
  rw [memberBytes, hseparator, indentedMember, byteLength_append, byteLength_cons, byteLength_cons,
    hcolon, hspace]
  omega

/-- The members of the document but for the digest. -/
theorem membersBytes_payload (n : ℕ) :
    membersBytes (ledgerPayload g shutdownState generation generatedAtNs n) =
      membersBytes ((ledgerPayload g shutdownState generation generatedAtNs 0).eraseIdx 4) +
        (29 + digits n) := by
  have hcommitted : memberBytes ("committed_usage_bytes", indented 1 (.number (intText n))) =
      29 + digits n := by
    have hkey : byteLength (escape "committed_usage_bytes") = 23 := by decide
    rw [memberBytes_eq, indented_number, length_intText, hkey]
  simp only [ledgerPayload, List.eraseIdx_cons_succ, List.eraseIdx_cons_zero, membersBytes_cons,
    membersBytes_nil]
  omega

/-- The document is as long as its constant part and the digits. -/
theorem byteLength_ledger (n : ℕ) :
    byteLength (encodeJsonDocument (ledgerDocument sha256 g shutdownState generation
      generatedAtNs n)) = fixedBytes g shutdownState generation generatedAtNs + digits n := by
  have hintegrity : ∀ text, memberBytes
      ("integrity_sha256", indented 1 (.str (sha256.hexdigest text))) = 90 := by
    intro text
    have hkey : byteLength (escape "integrity_sha256") = 18 := by decide
    rw [memberBytes_eq, hkey, indented_str, byteLength_hexdigest]
  rw [byteLength_encode (by simp [ledgerDocument]), fixedBytes, ledgerDocument, membersBytes_append,
    membersBytes_payload, membersBytes_cons, membersBytes_nil, hintegrity]
  omega

/-- The loop looks for a fixed point of base and digits. -/
theorem sizeLoop_eq (base rounds n : ℕ) :
    sizeLoop (ledgerDocument sha256 g shutdownState generation generatedAtNs) base rounds n =
      (untilFixed (growth (base + fixedBytes g shutdownState generation generatedAtNs))
        rounds n).map
        fun y : ℕ => ((y : ℤ), encodeJsonDocument
          (ledgerDocument sha256 g shutdownState generation generatedAtNs y)) := by
  induction rounds generalizing n with
  | zero => rfl
  | succ rounds ih =>
    -- a round adds the size of the document, and that has a digit for each of the number before it
    have hnext : (base : ℤ) + byteLength (encodeJsonDocument
        (ledgerDocument sha256 g shutdownState generation generatedAtNs n)) =
        (growth (base + fixedBytes g shutdownState generation generatedAtNs) n : ℕ) := by
      rw [byteLength_ledger, growth]
      omega
    rw [sizeLoop, untilFixed, hnext]
    by_cases hfixed : growth (base + fixedBytes g shutdownState generation generatedAtNs) n = n
    · rw [if_pos hfixed, if_pos (congrArg Nat.cast hfixed), Option.map_some]
    · rw [if_neg hfixed, if_neg fun heq => hfixed (Int.ofNat_inj.1 heq)]
      exact ih _

/-- Whatever the loop ends with is the size that it looks for. -/
theorem sizeLoop_some {document : ℤ → Event} {base candidate : ℤ} {rounds : ℕ} {start : ℤ}
    {encoded : List Char} (h : sizeLoop document base rounds start = some (candidate, encoded)) :
    encoded = encodeJsonDocument (document candidate) ∧ base + byteLength encoded = candidate := by
  induction rounds generalizing start with
  | zero => cases h
  | succ rounds ih =>
    rw [sizeLoop] at h
    split_ifs at h with hfixed
    · cases h
      exact ⟨rfl, hfixed⟩
    · exact ih h

end Size

/-- What is written when the loop has ended. -/
theorem writeLedger_eq {limits : Limits} {sha256 : Sha256} {g : LedgerGuard limits}
    {shutdownState : ShutdownState} {generatedAtNs committed : ℤ} {oldSize : ℕ} {file : List Char}
    (hold : (oldSize : ℤ) ≤ g.guard.usageBytes)
    (hloop : sizeLoop (ledgerDocument sha256 g shutdownState (g.ledgerGeneration + 1) generatedAtNs)
      (g.guard.usageBytes - oldSize) 8 g.guard.usageBytes = some (committed, file)) :
    writeLedger sha256 g shutdownState generatedAtNs oldSize =
      if committed + g.guard.reservedBytes > limits.hardCapBytes then .error .hardCapInvariantBroken
      else .ok ({ g with
        guard := { g.guard with usageBytes := committed }
        ledgerGeneration := g.ledgerGeneration + 1 }, file) := by
  obtain ⟨rfl, hsize⟩ := sizeLoop_some hloop
  have hbase : ¬ g.guard.usageBytes - (oldSize : ℤ) < 0 := by omega
  rw [writeLedger]
  simp only [hloop, if_neg hbase, ne_eq, not_true_eq_false, if_false, hsize]

/-- For every usage below a tower of five powers of ten with 100 on top, and every old ledger within
it, the search for the size ends within its eight rounds, with the rest of the usage and the size of
the very document that says so; and so is what is then written. -/
theorem ledger_converges {limits : Limits} (sha256 : Sha256) (g : LedgerGuard limits)
    (shutdownState : ShutdownState) (generatedAtNs : ℤ) (oldSize : ℕ)
    (hold : (oldSize : ℤ) ≤ g.guard.usageBytes) (husage : g.guard.usageBytes < (tower 5 100 : ℕ)) :
    (∃ committed, sizeLoop
        (ledgerDocument sha256 g shutdownState (g.ledgerGeneration + 1) generatedAtNs)
        (g.guard.usageBytes - oldSize) 8 g.guard.usageBytes =
          some (committed, encodeJsonDocument
            (ledgerDocument sha256 g shutdownState (g.ledgerGeneration + 1)
              generatedAtNs committed)) ∧
      committed = g.guard.usageBytes - oldSize + byteLength (encodeJsonDocument
        (ledgerDocument sha256 g shutdownState (g.ledgerGeneration + 1) generatedAtNs committed))) ∧
    writeLedger sha256 g shutdownState generatedAtNs oldSize ≠ .error .sizeDidNotConverge ∧
    ∀ g' file, writeLedger sha256 g shutdownState generatedAtNs oldSize = .ok (g', file) →
      file = encodeJsonDocument (ledgerDocument sha256 g shutdownState (g.ledgerGeneration + 1)
        generatedAtNs g'.guard.usageBytes) ∧
      g'.guard.usageBytes = g.guard.usageBytes - oldSize + byteLength file := by
  obtain ⟨usage, husageEq⟩ := Int.eq_ofNat_of_zero_le (a := g.guard.usageBytes) (by omega)
  have hbase : g.guard.usageBytes - oldSize = (usage - oldSize : ℕ) := by omega
  have hlt : usage < tower 5 100 := by omega
  -- the braces, the digest and the key alone are enough against the digits on top of the tower
  have henough : 100 + 1 < 9 * (usage - oldSize +
      fixedBytes g shutdownState (g.ledgerGeneration + 1) generatedAtNs) := by
    rw [fixedBytes]
    omega
  obtain ⟨committed, hcommitted⟩ := untilFixed_growth_isSome (n := 4) (by decide) henough hlt
  have hloop := sizeLoop_eq sha256 g shutdownState (g.ledgerGeneration + 1) generatedAtNs
    (usage - oldSize) 8 usage
  rw [hcommitted, ← hbase, ← husageEq] at hloop
  obtain ⟨-, hsize⟩ := sizeLoop_some hloop
  refine ⟨⟨committed, hloop, hsize.symm⟩, ?_, ?_⟩
  · rw [writeLedger_eq hold hloop]
    split_ifs
    · intro h
      cases h
    · intro h
      cases h
  · intro g' file hok
    rw [writeLedger_eq hold hloop] at hok
    split_ifs at hok
    cases hok
    exact ⟨rfl, hsize.symm⟩

/-- A digest of the right form. -/
def zeroDigest : Sha256 where
  hexdigest _ := String.ofList (List.replicate 64 '0')
  length _ := by rw [String.toList_ofList, List.length_replicate]
  hex _ c hc := by
    rw [String.toList_ofList] at hc
    rw [List.eq_of_mem_replicate hc]
    decide

def gigabyte : Limits := ⟨1000000000, 100000000, 0, by decide, by decide⟩

def usedGuard (usage : ℤ) : LedgerGuard gigabyte := ⟨⟨usage, 0, none⟩, 1, 0⟩

theorem ledger_converges_usedGuard :
    writeLedger zeroDigest (usedGuard 999999) .clean 1700000000000000000 705 ≠
      .error .sizeDidNotConverge := by
  have hbelow : (usedGuard 999999).guard.usageBytes < (tower 5 100 : ℕ) := by
    have hsmall : 999999 < 10 ^ 6 := by decide
    have hpow : 999999 < tower 5 100 :=
      lt_tower (hsmall.trans_le (Nat.pow_le_pow_right (by decide) (by decide))) (by decide)
    exact Int.ofNat_lt.2 hpow
  exact (ledger_converges zeroDigest (usedGuard 999999) .clean 1700000000000000000 705 (by decide)
    hbelow).2.1

end Capacity
