/-
The text of a journal chunk (`playback_diagnostics/journal.py`): events as lines of JSON.

The encoder ends every event with a line feed, and writes JSON with `ensure_ascii=False`; the
decoder splits the text with `str.splitlines`, which knows more line boundaries than the line feed.

* `Value.dumps`, `splitlines`, `decodeLines` — JSON as it is written, and lines as they are read;
* `mem_dumps_boundary` — of the boundaries only U+0085, U+2028 and U+2029 get into the JSON of a
  value, from its strings;
* `decode_plaintext` — without them the events come back;
* `decode_plaintext_separated` — with them the lines are not as many as the events.
-/
import Mathlib.Data.List.Basic
import Mathlib.Tactic.Common

namespace Journal

/-! ### JSON -/

/-- What `int.__repr__` and `float.__repr__` give of finite numbers. -/
structure NumberText where
  text : List Char
  plain : ∀ c ∈ text, c ∈ "0123456789+-.e".toList

/-- A value of an event, as `json.dumps` takes it. -/
inductive Value
  | null
  | bool (b : Bool)
  | number (text : NumberText)
  | str (s : String)
  | array (items : List Value)
  | object (members : List (String × Value))

/-- An event is an object. -/
abbrev Event := List (String × Value)

/-- The escape of a character with `ensure_ascii=False`. -/
def escapeChar (c : Char) : List Char :=
  if c = '"' then ['\\', '"']
  else if c = '\\' then ['\\', '\\']
  else if c = '\n' then ['\\', 'n']
  else if c = '\r' then ['\\', 'r']
  else if c = '\t' then ['\\', 't']
  else if c = Char.ofNat 8 then ['\\', 'b']
  else if c = Char.ofNat 12 then ['\\', 'f']
  else if c.toNat < 32 then
    ['\\', 'u', '0', '0', Nat.digitChar (c.toNat / 16), Nat.digitChar (c.toNat % 16)]
  else [c]

def escape (s : String) : List Char := '"' :: s.toList.flatMap escapeChar ++ ['"']

/-- `",".join(parts)` -/
def joined : List (List Char) → List Char
  | [] => []
  | [part] => part
  | part :: rest => part ++ ',' :: joined rest

/-- `sort_keys=True` -/
def sortKeys (members : List (String × List Char)) : List (String × List Char) :=
  members.mergeSort fun a b => decide (a.1 ≤ b.1)

def member (m : String × List Char) : List Char := escape m.1 ++ ':' :: m.2

mutual

/-- `json.dumps(value, ensure_ascii=False, sort_keys=True, separators=(",", ":"))` -/
def Value.dumps : Value → List Char
  | .null => ['n', 'u', 'l', 'l']
  | .bool true => ['t', 'r', 'u', 'e']
  | .bool false => ['f', 'a', 'l', 's', 'e']
  | .number number => number.text
  | .str s => escape s
  | .array items => '[' :: joined (dumpsItems items) ++ [']']
  | .object members => '{' :: joined ((sortKeys (dumpsMembers members)).map member) ++ ['}']

def dumpsItems : List Value → List (List Char)
  | [] => []
  | item :: rest => item.dumps :: dumpsItems rest

def dumpsMembers : List (String × Value) → List (String × List Char)
  | [] => []
  | (key, value) :: rest => (key, value.dumps) :: dumpsMembers rest

end

mutual

/-- The strings of a value, its keys included. -/
def Value.texts : Value → List String
  | .str s => [s]
  | .array items => textsItems items
  | .object members => textsMembers members
  | _ => []

def textsItems : List Value → List String
  | [] => []
  | item :: rest => item.texts ++ textsItems rest

def textsMembers : List (String × Value) → List String
  | [] => []
  | (key, value) :: rest => key :: value.texts ++ textsMembers rest

end

/-! ### Lines -/

/-- The line boundaries of `str.splitlines`. -/
def lineBoundaries : List Char :=
  ['\n', Char.ofNat 0x0b, Char.ofNat 0x0c, '\r', Char.ofNat 0x1c, Char.ofNat 0x1d, Char.ofNat 0x1e,
    Char.ofNat 0x85, Char.ofNat 0x2028, Char.ofNat 0x2029]

/-- The boundaries that JSON does not escape. -/
def separators : List Char := [Char.ofNat 0x85, Char.ofNat 0x2028, Char.ofNat 0x2029]

/-- What `str.strip` takes away. -/
def whitespace : List Char :=
  ['\t', '\n', Char.ofNat 0x0b, Char.ofNat 0x0c, '\r', Char.ofNat 0x1c, Char.ofNat 0x1d,
    Char.ofNat 0x1e, Char.ofNat 0x1f, ' ', Char.ofNat 0x85, Char.ofNat 0xa0, Char.ofNat 0x1680,
    Char.ofNat 0x2000, Char.ofNat 0x2001, Char.ofNat 0x2002, Char.ofNat 0x2003, Char.ofNat 0x2004,
    Char.ofNat 0x2005, Char.ofNat 0x2006, Char.ofNat 0x2007, Char.ofNat 0x2008, Char.ofNat 0x2009,
    Char.ofNat 0x200a, Char.ofNat 0x2028, Char.ofNat 0x2029, Char.ofNat 0x202f, Char.ofNat 0x205f,
    Char.ofNat 0x3000]

/-- `str.splitlines()`, with what has been read of the current line. -/
def splitFrom : List Char → List Char → List (List Char)
  | [], [] => []
  | current, [] => [current]
  | current, '\r' :: '\n' :: rest => current :: splitFrom [] rest
  | current, c :: rest =>
    if c ∈ lineBoundaries then current :: splitFrom [] rest else splitFrom (current ++ [c]) rest

def splitlines (text : List Char) : List (List Char) := splitFrom [] text

/-- `line.strip()` is true. -/
def marked (line : List Char) : Bool := line.any fun c => decide (c ∉ whitespace)

/-- The text of a chunk. -/
def plaintext (events : List Event) : List Char :=
  events.flatMap fun event => (Value.object event).dumps ++ ['\n']

/-- The events of a text, by `json.loads`; `none` where it raises. -/
def decodeLines (loads : List Char → Option Event) (text : List Char) : Option (List Event) :=
  ((splitlines text).filter marked).mapM loads

/-- No string of the event has a separator in it. -/
def Event.Unseparated (event : Event) : Prop :=
  ∀ s ∈ (Value.object event).texts, ∀ c ∈ s.toList, c ∉ separators

/-! ### The characters of JSON -/

section Characters

variable {c : Char} {s : String}

theorem separators_sub (h : c ∈ separators) : c ∈ lineBoundaries := by
  simp only [separators, lineBoundaries, List.mem_cons] at h ⊢
  tauto

/-- A check of each character of a list. -/
theorem forall_of_all {l : List Char} {P : Char → Prop} [DecidablePred P]
    (h : (l.all fun c => decide (P c)) = true) : ∀ c ∈ l, P c :=
  fun c hc => of_decide_eq_true (List.all_eq_true.1 h c hc)

theorem digitChar_plain : ∀ n < 16, Nat.digitChar n ∉ lineBoundaries := by decide

/-- A boundary comes out of an escape only as a separator that is not escaped. -/
theorem mem_escapeChar {d : Char} (hc : c ∈ lineBoundaries) :
    c ∈ escapeChar d ↔ d = c ∧ c ∈ separators := by
  have hplain : ∀ e ∈ ['\\', '"', 'n', 'r', 't', 'b', 'f', 'u', '0'], e ∉ lineBoundaries :=
    forall_of_all (by decide)
  have hnot : ∀ e ∈ ['\\', '"', 'n', 'r', 't', 'b', 'f', 'u', '0'], c ≠ e := fun e he heq =>
    hplain e he (heq ▸ hc)
  have hpair : ∀ e ∈ ['\\', '"', 'n', 'r', 't', 'b', 'f', 'u', '0'], c ∉ ['\\', e] := by
    intro e he hmem
    rcases List.mem_cons.1 hmem with h | h
    · exact hnot '\\' (by decide) h
    · exact hnot e he (List.mem_singleton.1 h)
  have hlow : ∀ e ∈ separators, ¬ e.toNat < 32 ∧ e ≠ '"' ∧ e ≠ '\\' ∧ e ≠ '\n' ∧
    e ≠ '\r' ∧ e ≠ '\t' ∧
      e ≠ Char.ofNat 8 ∧ e ≠ Char.ofNat 12 := forall_of_all (by decide)
  have hhigh : ∀ e ∈ lineBoundaries, ¬ e.toNat < 32 → e ∈ separators := forall_of_all (by decide)
  constructor
  · intro hmem
    rw [escapeChar] at hmem
    split_ifs at hmem with h1 h2 h3 h4 h5 h6 h7 hsmall
    · exact (hpair _ (by decide) hmem).elim
    · exact (hpair _ (by decide) hmem).elim
    · exact (hpair _ (by decide) hmem).elim
    · exact (hpair _ (by decide) hmem).elim
    · exact (hpair _ (by decide) hmem).elim
    · exact (hpair _ (by decide) hmem).elim
    · exact (hpair _ (by decide) hmem).elim
    · exfalso
      have hdigit : ∀ n < 16, c ≠ Nat.digitChar n := fun n hn heq => digitChar_plain n hn (heq ▸ hc)
      simp only [List.mem_cons, List.not_mem_nil, or_false] at hmem
      rcases hmem with h | h | h | h | h | h
      · exact hnot '\\' (by decide) h
      · exact hnot 'u' (by decide) h
      · exact hnot '0' (by decide) h
      · exact hnot '0' (by decide) h
      · exact hdigit _ (by omega) h
      · exact hdigit _ (Nat.mod_lt _ (by decide)) h
    · obtain rfl := List.mem_singleton.1 hmem
      exact ⟨rfl, hhigh _ hc hsmall⟩
  · rintro ⟨rfl, hsep⟩
    obtain ⟨h32, h1, h2, h3, h4, h5, h6, h7⟩ := hlow d hsep
    rw [escapeChar, if_neg h1, if_neg h2, if_neg h3, if_neg h4, if_neg h5, if_neg h6, if_neg h7,
      if_neg h32]
    exact List.mem_singleton_self _

theorem mem_escape (hc : c ∈ lineBoundaries) : c ∈ escape s ↔ c ∈ s.toList ∧ c ∈ separators := by
  have hquote : c ≠ '"' := by
    rintro rfl
    exact absurd hc (by decide)
  rw [escape, List.mem_append, List.mem_cons, List.mem_flatMap, List.mem_singleton]
  simp only [hquote, false_or, or_false, mem_escapeChar hc]
  constructor
  · rintro ⟨d, hd, rfl, hsep⟩
    exact ⟨hd, hsep⟩
  · rintro ⟨hmem, hsep⟩
    exact ⟨c, hmem, rfl, hsep⟩

theorem mem_joined (hcomma : c ≠ ',') :
    ∀ {parts : List (List Char)}, c ∈ joined parts ↔ ∃ part ∈ parts, c ∈ part := by
  intro parts
  induction parts with
  | nil => simp [joined]
  | cons part rest ih =>
    cases rest with
    | nil => simp [joined]
    | cons next rest =>
      have hstep : joined (part :: next :: rest) = part ++ ',' :: joined (next :: rest) := rfl
      rw [hstep, List.mem_append, List.mem_cons, ih]
      simp only [List.mem_cons, exists_eq_or_imp, hcomma, false_or]

mutual

/-- Of the boundaries only the separators get into the JSON of a value, from its strings. -/
theorem mem_dumps_boundary (hc : c ∈ lineBoundaries) (v : Value) :
    c ∈ v.dumps ↔ c ∈ separators ∧ ∃ s ∈ v.texts, c ∈ s.toList := by
  have hplain : ∀ e ∈ ['n', 'u', 'l', 't', 'r', 'e', 'f', 'a', 's'] ++
    "0123456789+-.e[]{},:".toList,
      e ∉ lineBoundaries := forall_of_all (by decide)
  have hnot : ∀ e ∈ ['n', 'u', 'l', 't', 'r', 'e', 'f', 'a', 's'] ++ "0123456789+-.e[]{},:".toList,
      c ≠ e := fun e he heq => hplain e he (heq ▸ hc)
  match v with
  | .null =>
    have hword : ∀ e ∈ ['n', 'u', 'l', 'l'], e ∉ lineBoundaries := forall_of_all (by decide)
    exact ⟨fun h => absurd hc (hword c h), fun h => absurd h.2.choose_spec.1 List.not_mem_nil⟩
  | .bool true =>
    have hword : ∀ e ∈ ['t', 'r', 'u', 'e'], e ∉ lineBoundaries := forall_of_all (by decide)
    exact ⟨fun h => absurd hc (hword c h), fun h => absurd h.2.choose_spec.1 List.not_mem_nil⟩
  | .bool false =>
    have hword : ∀ e ∈ ['f', 'a', 'l', 's', 'e'], e ∉ lineBoundaries := forall_of_all (by decide)
    exact ⟨fun h => absurd hc (hword c h), fun h => absurd h.2.choose_spec.1 List.not_mem_nil⟩
  | .number number =>
    have hdigits : ∀ e ∈ "0123456789+-.e".toList, e ∉ lineBoundaries := forall_of_all (by decide)
    exact ⟨fun h => absurd hc (hdigits c (number.plain c h)),
      fun h => absurd h.2.choose_spec.1 List.not_mem_nil⟩
  | .str s =>
    rw [Value.dumps, Value.texts, mem_escape hc]
    simp only [List.mem_singleton, exists_eq_left]
    exact and_comm
  | .array items =>
    rw [Value.dumps, Value.texts, List.mem_append, List.mem_cons, List.mem_singleton,
      mem_joined (hnot ',' (by decide)), mem_dumpsItems_boundary hc items]
    simp only [hnot '[' (by decide), hnot ']' (by decide), false_or, or_false]
  | .object members =>
    rw [Value.dumps, Value.texts, List.mem_append, List.mem_cons, List.mem_singleton,
      mem_joined (hnot ',' (by decide)), ← mem_dumpsMembers_boundary hc members]
    simp only [hnot '{' (by decide), hnot '}' (by decide), false_or, or_false, List.mem_map,
      exists_exists_and_eq_and]
    exact exists_congr fun m => and_congr_left fun _ => (List.mergeSort_perm _ _).mem_iff

theorem mem_dumpsItems_boundary (hc : c ∈ lineBoundaries) (items : List Value) :
    (∃ part ∈ dumpsItems items, c ∈ part) ↔ c ∈ separators ∧ ∃ s ∈ textsItems items,
    c ∈ s.toList := by
  match items with
  | [] => simp [dumpsItems, textsItems]
  | item :: rest =>
    have hhead : (∃ part ∈ dumpsItems (item :: rest), c ∈ part) ↔
        c ∈ item.dumps ∨ ∃ part ∈ dumpsItems rest, c ∈ part := by
      simp only [dumpsItems, List.mem_cons, exists_eq_or_imp]
    rw [hhead, mem_dumps_boundary hc item, mem_dumpsItems_boundary hc rest, textsItems]
    simp only [List.mem_append, or_and_right, exists_or, and_or_left]

theorem mem_dumpsMembers_boundary (hc : c ∈ lineBoundaries) (members : List (String × Value)) :
    (∃ m ∈ dumpsMembers members, c ∈ member m) ↔
      c ∈ separators ∧ ∃ s ∈ textsMembers members, c ∈ s.toList := by
  match members with
  | [] => simp [dumpsMembers, textsMembers]
  | (key, value) :: rest =>
    have hcolon : c ≠ ':' := by
      rintro rfl
      exact absurd hc (by decide)
    have hhead : (∃ m ∈ dumpsMembers ((key, value) :: rest), c ∈ member m) ↔
        c ∈ member (key, value.dumps) ∨ ∃ m ∈ dumpsMembers rest, c ∈ member m := by
      simp only [dumpsMembers, List.mem_cons, exists_eq_or_imp]
    rw [hhead, mem_dumpsMembers_boundary hc rest, member, List.mem_append,
      List.mem_cons, mem_escape hc, mem_dumps_boundary hc value, textsMembers]
    simp only [List.cons_append, List.mem_cons, List.mem_append, exists_eq_left, or_and_right,
      exists_or, and_or_left, hcolon, false_or, or_assoc, and_comm (a := c ∈ key.toList)]

end

theorem boundary_iff_separated {event : Event} :
    (∃ c ∈ (Value.object event).dumps, c ∈ lineBoundaries) ↔ ¬ event.Unseparated := by
  simp only [Event.Unseparated, not_forall, not_not]
  constructor
  · rintro ⟨c, hmem, hc⟩
    obtain ⟨hsep, s, hs, hcs⟩ := (mem_dumps_boundary hc _).1 hmem
    exact ⟨s, hs, c, hcs, hsep⟩
  · rintro ⟨s, hs, c, hcs, hsep⟩
    have hc := separators_sub hsep
    exact ⟨c, (mem_dumps_boundary hc _).2 ⟨hsep, s, hs, hcs⟩, hc⟩

/-- A return is always escaped. -/
theorem return_not_mem_dumps (event : Event) : '\r' ∉ (Value.object event).dumps := by
  intro h
  exact absurd ((mem_dumps_boundary (by decide) _).1 h).1 (by decide)

end Characters

/-! ### The lines of a text -/

section Lines

variable {current text rest line : List Char} {c : Char}

/-- Text before a line feed is split without what comes after it. -/
theorem splitFrom_append (hreturn : '\r' ∉ text) :
    splitFrom current (text ++ '\n' :: rest) = splitFrom current (text ++ ['\n']) ++
        splitlines rest := by
  induction text generalizing current with
  | nil => simp [splitFrom, lineBoundaries, splitlines]
  | cons c text ih =>
    rw [List.mem_cons, not_or] at hreturn
    have hne : c ≠ '\r' := fun heq => hreturn.1 heq.symm
    rw [List.cons_append, List.cons_append, splitFrom, splitFrom, ih hreturn.2, ih hreturn.2]
    · split_ifs <;> simp
    all_goals
      intro _ heq
      exact absurd heq hne

/-- Text without a boundary is one line. -/
theorem splitFrom_plain (hplain : ∀ c ∈ text, c ∉ lineBoundaries) :
    splitFrom current (text ++ '\n' :: rest) = (current ++ text) :: splitlines rest := by
  induction text generalizing current with
  | nil => simp [splitFrom, lineBoundaries, splitlines]
  | cons c text ih =>
    have hc := hplain c (List.mem_cons_self ..)
    have hne : c ≠ '\r' := by
      rintro rfl
      exact hc (by decide)
    rw [List.cons_append, splitFrom, if_neg hc, ih fun d hd => hplain d (List.mem_cons_of_mem _ hd),
      List.append_assoc, List.singleton_append]
    intro _ heq
    exact absurd heq hne

theorem boundary_whitespace (h : c ∈ lineBoundaries) : c ∈ whitespace := by
  have hall : ∀ d ∈ lineBoundaries, d ∈ whitespace := forall_of_all (by decide)
  exact hall c h

theorem marked_iff : marked line = true ↔ ∃ c ∈ line, c ∉ whitespace := by
  rw [marked, List.any_eq_true]
  simp only [decide_eq_true_eq]

/-- The step of `splitFrom` at a character that is no return. -/
theorem splitFrom_cons (hne : c ≠ '\r') : splitFrom current (c :: rest) =
    if c ∈ lineBoundaries then current :: splitFrom [] rest else splitFrom
        (current ++ [c]) rest := by
  rw [splitFrom]
  intro _ heq
  exact absurd heq hne

/-- Every character that is no whitespace is in some line. -/
theorem one_le_marked (hreturn : '\r' ∉ text) (h : ∃ c ∈ current ++ text, c ∉ whitespace) :
    1 ≤ ((splitFrom current (text ++ ['\n'])).filter marked).length := by
  induction text generalizing current with
  | nil =>
    have hsplit : splitFrom current ([] ++ ['\n']) =
      [current] := by simp [splitFrom, lineBoundaries]
    rw [List.append_nil] at h
    rw [hsplit, List.filter_cons, if_pos (marked_iff.2 h), List.length_cons]
    exact Nat.le_add_left _ _
  | cons c text ih =>
    rw [List.mem_cons, not_or] at hreturn
    rw [List.cons_append, splitFrom_cons fun heq => hreturn.1 heq.symm]
    split_ifs with hc
    · by_cases hmarked : marked current = true
      · rw [List.filter_cons, if_pos hmarked, List.length_cons]
        exact Nat.le_add_left _ _
      · rw [List.filter_cons, if_neg hmarked]
        refine ih hreturn.2 ?_
        obtain ⟨d, hd, hplain⟩ := h
        refine ⟨d, ?_, hplain⟩
        rcases List.mem_append.1 hd with hd | hd
        · exact absurd (marked_iff.2 ⟨d, hd, hplain⟩) hmarked
        · refine (List.mem_cons.1 hd).resolve_left ?_
          rintro rfl
          exact hplain (boundary_whitespace hc)
    · refine ih hreturn.2 ?_
      rw [List.append_assoc, List.singleton_append]
      exact h

/-- A boundary between two characters that are no whitespace makes two lines of them. -/
theorem two_le_marked (hreturn : '\r' ∉ text) (hfirst : ∃ c ∈ current, c ∉ whitespace)
    (hboundary : ∃ c ∈ text, c ∈ lineBoundaries) {d : Char} (hlast : text.getLast? = some d)
    (hd : d ∉ whitespace) : 2 ≤ ((splitFrom current (text ++ ['\n'])).filter marked).length := by
  induction text generalizing current with
  | nil => cases hlast
  | cons c text ih =>
    rw [List.mem_cons, not_or] at hreturn
    rw [List.cons_append, splitFrom_cons fun heq => hreturn.1 heq.symm]
    have hrest : text ≠ [] → text.getLast? = some d := by
      intro hne
      rw [List.getLast?_cons_of_ne_nil hne] at hlast
      exact hlast
    split_ifs with hc
    · -- the line up to the boundary has the first character, what follows the last one
      have hne : text ≠ [] := by
        rintro rfl
        cases hlast
        exact hd (boundary_whitespace hc)
      have hmem : d ∈ text := List.mem_of_getLast? (hrest hne)
      rw [List.filter_cons, if_pos (marked_iff.2 hfirst), List.length_cons]
      exact Nat.succ_le_succ (one_le_marked hreturn.2 ⟨d, hmem, hd⟩)
    · obtain ⟨b, hb, hboundary⟩ := hboundary
      have hb : b ∈ text := (List.mem_cons.1 hb).resolve_left fun heq => hc (heq ▸ hboundary)
      obtain ⟨e, he, hplain⟩ := hfirst
      exact ih hreturn.2 ⟨e, List.mem_append_left _ he, hplain⟩ ⟨b, hb, hboundary⟩
        (hrest (List.ne_nil_of_mem hb))

end Lines

/-! ### The events of a text -/

section Events

variable {event : Event} {events : List Event} {loads : List Char → Option Event}

/-- The JSON of an event begins and ends with a brace. -/
theorem dumps_event (event : Event) :
    ∃ body, (Value.object event).dumps = '{' :: body ∧ body.getLast? = some '}' :=
  ⟨joined ((sortKeys (dumpsMembers event)).map member) ++ ['}'], rfl, List.getLast?_concat⟩

theorem splitlines_plaintext_cons : splitlines (plaintext (event :: events)) =
    splitFrom [] ((Value.object event).dumps ++ ['\n']) ++ splitlines (plaintext events) := by
  rw [plaintext, List.flatMap_cons, List.append_assoc, List.singleton_append, splitlines,
    splitFrom_append (return_not_mem_dumps event)]
  rfl

/-- The lines of one event. -/
theorem event_lines (event : Event) :
    (event.Unseparated → splitFrom [] ((Value.object event).dumps ++ ['\n']) =
      [(Value.object event).dumps]) ∧
    1 ≤ ((splitFrom [] ((Value.object event).dumps ++ ['\n'])).filter marked).length ∧
    (¬ event.Unseparated →
      2 ≤ ((splitFrom [] ((Value.object event).dumps ++ ['\n'])).filter marked).length) := by
  obtain ⟨body, hbody, hlast⟩ := dumps_event event
  have hreturn := return_not_mem_dumps event
  refine ⟨fun hclean => ?_, one_le_marked hreturn ⟨'{', ?_, by decide⟩, fun hseparated => ?_⟩
  · have hplain : ∀ c ∈ (Value.object event).dumps, c ∉ lineBoundaries := fun c hmem hc =>
      (boundary_iff_separated.1 ⟨c, hmem, hc⟩) hclean
    rw [splitFrom_plain hplain]
    rfl
  · rw [List.nil_append, hbody]
    exact List.mem_cons_self ..
  · obtain ⟨c, hmem, hc⟩ := boundary_iff_separated.2 hseparated
    rw [hbody] at hmem hreturn ⊢
    have hmem : c ∈ body := by
      refine (List.mem_cons.1 hmem).resolve_left ?_
      rintro rfl
      exact absurd hc (by decide)
    have hstep : splitFrom [] ('{' :: body ++ ['\n']) = splitFrom ['{'] (body ++ ['\n']) := by
      rw [List.cons_append, splitFrom_cons (by decide), if_neg (by decide), List.nil_append]
    rw [hstep]
    exact two_le_marked (fun h => hreturn (List.mem_cons_of_mem _ h))
      ⟨'{', List.mem_singleton_self _, by decide⟩ ⟨c, hmem, hc⟩ hlast (by decide)

/-- **Without separators** the events come back. -/
theorem decode_plaintext (hclean : ∀ event ∈ events, event.Unseparated)
    (hloads : ∀ event ∈ events, loads (Value.object event).dumps = some event) :
    decodeLines loads (plaintext events) = some events := by
  have hlines : splitlines (plaintext events) = events.map fun event =>
      (Value.object event).dumps := by
    clear hloads
    induction events with
    | nil => rfl
    | cons event events ih =>
      rw [splitlines_plaintext_cons, (event_lines event).1 (hclean event (List.mem_cons_self ..)),
        ih fun e he => hclean e (List.mem_cons_of_mem _ he)]
      rfl
  have hmarked : (events.map fun event => (Value.object event).dumps).filter marked =
      events.map fun event => (Value.object event).dumps := by
    refine List.filter_eq_self.2 fun line hline => ?_
    obtain ⟨event, -, rfl⟩ := List.mem_map.1 hline
    obtain ⟨body, hbody, -⟩ := dumps_event event
    exact marked_iff.2 ⟨'{', hbody ▸ List.mem_cons_self .., by decide⟩
  rw [decodeLines, hlines, hmarked]
  clear hlines hmarked hclean
  induction events with
  | nil => rfl
  | cons event events ih =>
    rw [List.map_cons, List.mapM_cons, hloads event (List.mem_cons_self ..),
      ih fun e he => hloads e (List.mem_cons_of_mem _ he)]
    rfl

/-- There are at least as many lines as events, and more where an event is separated. -/
theorem lines_le (events : List Event) :
    events.length ≤ ((splitlines (plaintext events)).filter marked).length ∧
      ((∃ event ∈ events, ¬ event.Unseparated) →
        events.length < ((splitlines (plaintext events)).filter marked).length) := by
  induction events with
  | nil => exact ⟨Nat.zero_le _, fun ⟨_, h, _⟩ => absurd h List.not_mem_nil⟩
  | cons event events ih =>
    obtain ⟨-, hone, htwo⟩ := event_lines event
    rw [splitlines_plaintext_cons, List.filter_append, List.length_append, List.length_cons]
    refine ⟨by omega, ?_⟩
    rintro ⟨e, he, hseparated⟩
    rcases List.mem_cons.1 he with rfl | he
    · have := htwo hseparated
      omega
    · have := ih.2 ⟨e, he, hseparated⟩
      omega

theorem mapM_length {α β : Type} {f : α → Option β} :
    ∀ {l : List α} {l' : List β}, l.mapM f = some l' → l'.length = l.length := by
  intro l
  induction l with
  | nil =>
    intro l' h
    cases h
    rfl
  | cons a l ih =>
    intro l' h
    rw [List.mapM_cons] at h
    cases ha : f a with
    | none =>
      rw [ha] at h
      cases h
    | some b =>
      cases hl : l.mapM f with
      | none =>
        rw [ha, hl] at h
        cases h
      | some bs =>
        rw [ha, hl] at h
        cases h
        rw [List.length_cons, List.length_cons, ih hl]

/-- **With a separator** there are never as many events read as were written. -/
theorem decode_plaintext_separated (hseparated : ∃ event ∈ events, ¬ event.Unseparated)
    {decoded : List Event} (h : decodeLines loads (plaintext events) = some decoded) :
    decoded.length ≠ events.length := by
  have hlength := mapM_length h
  have hmore := (lines_le events).2 hseparated
  omega

end Events

end Journal
