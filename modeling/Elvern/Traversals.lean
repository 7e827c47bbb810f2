/-
Depth-first traversal of a graph with one list of visited vertices.

A vertex that is visited, or that is to be skipped, is left alone; any other is put on the
list and its successors are traversed in their order.  The list is shared by all roots, and
the fuel bounds the depth.

* `visit`, `visitAll` -- the traversal, from one vertex and from several roots;
* `Reached` -- the vertices that the traversal has to come to;
* `foldlM_keeps`, `foldlM_map_state` -- folds that may fail;
* `visit_sound`, `visit_extends` -- what one call keeps, and what it leaves behind;
* `visitAll_sound`, `mem_visitAll_iff` -- the list holds what is reached and not skipped,
  once.
-/
import Mathlib.Data.List.Nodup
import Mathlib.Tactic.Common

namespace Traversal

variable {α : Type*} (next : α → List α) (skip : α → Bool)

/-- The traversal from one vertex; `none` when the fuel has run out. -/
def visit [DecidableEq α] : ℕ → List α → α → Option (List α)
  | 0, _, _ => none
  | fuel + 1, visited, a =>
    if a ∈ visited then some visited
    else if skip a then some visited
    else (next a).foldlM (visit fuel) (a :: visited)

/-- The traversal from the roots, one after the other. -/
def visitAll [DecidableEq α] (fuel : ℕ) (roots : List α) : Option (List α) :=
  roots.foldlM (visit next skip fuel) []

/-- The roots, and the successors of what is reached and not skipped. -/
inductive Reached (roots : α → Prop) : α → Prop
  | root {a : α} : roots a → Reached roots a
  | next {a b : α} : Reached roots a → skip a = false → b ∈ next a → Reached roots b

variable {next skip} {roots : α → Prop} {fuel : ℕ} {visited visited' visited'' : List α} {a b : α}

/-! ### Folds -/

/-- A fold that keeps a property at each element of its list. -/
theorem foldlM_keeps {β γ : Type*} {P : γ → Prop} {f : γ → β → Option γ} {l : List β}
    (hf : ∀ x ∈ l, ∀ c c', P c → f c x = some c' → P c') :
    ∀ {c c' : γ}, P c → l.foldlM f c = some c' → P c' := by
  induction l with
  | nil =>
    intro c c' hc h
    cases h
    exact hc
  | cons x l ih =>
    intro c c' hc h
    rw [List.foldlM_cons] at h
    obtain ⟨d, hd, hrest⟩ := Option.bind_eq_some_iff.1 h
    exact ih (fun y hy => hf y (List.mem_cons_of_mem x hy))
      (hf x List.mem_cons_self c d hc hd) hrest

/-- A fold that is carried along by a map of its states is a fold of the images. -/
theorem foldlM_map_state {β γ δ ε : Type*} {f : γ → β → Option γ} {g : ε → δ → Option ε}
    {state : γ → ε} {image : β → δ} {l : List β}
    (hf : ∀ x ∈ l, ∀ c c', f c x = some c' → g (state c) (image x) = some (state c')) :
    ∀ {c c' : γ}, l.foldlM f c = some c' → (l.map image).foldlM g (state c) = some (state c') := by
  induction l with
  | nil =>
    intro c c' h
    cases h
    rfl
  | cons x l ih =>
    intro c c' h
    rw [List.foldlM_cons] at h
    obtain ⟨d, hd, hrest⟩ := Option.bind_eq_some_iff.1 h
    rw [List.map_cons, List.foldlM_cons, hf x List.mem_cons_self c d hd]
    exact ih (fun y hy => hf y (List.mem_cons_of_mem x hy)) hrest

/-! ### Only what is reached, and once -/

/-- The visited vertices are distinct, reached and not skipped. -/
structure Sound (next : α → List α) (skip : α → Bool) (roots : α → Prop) (visited : List α) :
    Prop where
  nodup : visited.Nodup
  reached : ∀ b ∈ visited, Reached next skip roots b ∧ skip b = false

theorem Sound.cons (h : Sound next skip roots visited) (ha : a ∉ visited)
    (hreached : Reached next skip roots a) (hskip : skip a = false) :
    Sound next skip roots (a :: visited) where
  nodup := List.nodup_cons.2 ⟨ha, h.nodup⟩
  reached := List.forall_mem_cons.2 ⟨⟨hreached, hskip⟩, h.reached⟩

theorem visit_sound [DecidableEq α] (hvisited : Sound next skip roots visited)
    (ha : Reached next skip roots a)
    (h : visit next skip fuel visited a = some visited') : Sound next skip roots visited' := by
  -- on the depth: the successors are traversed one after the other, each from what is kept
  induction fuel generalizing visited visited' a with
  | zero => cases h
  | succ fuel ih =>
    rw [visit] at h
    split_ifs at h with hmem hskip
    · cases h
      exact hvisited
    · cases h
      exact hvisited
    · rw [Bool.not_eq_true] at hskip
      refine foldlM_keeps (fun b hb c c' hc hstep => ?_) (hvisited.cons hmem ha hskip) h
      exact ih hc (ha.next hskip hb) hstep

/-! ### All that is reached -/

/-- More has been visited, and what is new has its successors visited or skipped. -/
structure Extends (next : α → List α) (skip : α → Bool) (visited visited' : List α) : Prop where
  subset : visited ⊆ visited'
  closed : ∀ b ∈ visited', b ∉ visited → ∀ c ∈ next b, c ∈ visited' ∨ skip c = true

theorem Extends.refl : Extends next skip visited visited where
  subset := List.Subset.refl _
  closed _ hb hnew := absurd hb hnew

theorem Extends.trans (h : Extends next skip visited visited')
    (h' : Extends next skip visited' visited'') : Extends next skip visited visited'' where
  subset := List.Subset.trans h.subset h'.subset
  closed b hb hnew c hc := by
    by_cases hold : b ∈ visited'
    · exact (h.closed b hold hnew c hc).imp_left fun hc => h'.subset hc
    · exact h'.closed b hb hold c hc

/-- A fold of extensions that deal with their elements deals with all of them. -/
theorem foldlM_extends {f : List α → α → Option (List α)} {l : List α}
    (hf : ∀ x ∈ l, ∀ c c', f c x = some c' → Extends next skip c c' ∧ (x ∈ c' ∨ skip x = true)) :
    ∀ {c c' : List α}, l.foldlM f c = some c' →
      Extends next skip c c' ∧ ∀ x ∈ l, x ∈ c' ∨ skip x = true := by
  induction l with
  | nil =>
    intro c c' h
    cases h
    exact ⟨.refl, fun x hx => absurd hx List.not_mem_nil⟩
  | cons x l ih =>
    intro c c' h
    rw [List.foldlM_cons] at h
    obtain ⟨d, hd, hrest⟩ := Option.bind_eq_some_iff.1 h
    obtain ⟨hfirst, hx⟩ := hf x List.mem_cons_self c d hd
    obtain ⟨hlater, hl⟩ := ih (fun y hy => hf y (List.mem_cons_of_mem x hy)) hrest
    exact ⟨hfirst.trans hlater,
      List.forall_mem_cons.2 ⟨hx.imp_left fun hx => hlater.subset hx, hl⟩⟩

theorem visit_extends [DecidableEq α] (h : visit next skip fuel visited a = some visited') :
    Extends next skip visited visited' ∧ (a ∈ visited' ∨ skip a = true) := by
  induction fuel generalizing visited visited' a with
  | zero => cases h
  | succ fuel ih =>
    rw [visit] at h
    split_ifs at h with hmem hskip
    · cases h
      exact ⟨.refl, Or.inl hmem⟩
    · cases h
      exact ⟨.refl, Or.inr hskip⟩
    · obtain ⟨hextends, hnext⟩ := foldlM_extends (fun b _ c c' hstep => ih hstep) h
      refine ⟨⟨fun b hb => hextends.subset (List.mem_cons_of_mem a hb), fun b hb hnew c hc => ?_⟩,
        Or.inl (hextends.subset List.mem_cons_self)⟩
      -- the successors of the vertex itself are traversed by the fold
      by_cases hba : b = a
      · subst hba
        exact hnext c hc
      · exact hextends.closed b hb (fun hmem => (List.mem_cons.1 hmem).elim hba hnew) c hc

/-! ### The whole traversal -/

section VisitAll

variable [DecidableEq α] {starts : List α}

theorem visitAll_sound (h : visitAll next skip fuel starts = some visited) :
    Sound next skip (· ∈ starts) visited := by
  refine foldlM_keeps (fun a ha c c' hc hstep => ?_)
    ⟨List.nodup_nil, fun b hb => absurd hb List.not_mem_nil⟩ h
  exact visit_sound hc (.root ha) hstep

/-- The traversal lists what is reached and not skipped. -/
theorem mem_visitAll_iff (h : visitAll next skip fuel starts = some visited) :
    a ∈ visited ↔ Reached next skip (· ∈ starts) a ∧ skip a = false := by
  obtain ⟨hextends, hstarts⟩ := foldlM_extends (fun b _ c c' hstep => visit_extends hstep) h
  refine ⟨(visitAll_sound h).reached a, fun hboth => ?_⟩
  -- along the way on which the vertex is reached
  obtain ⟨hreached, hskip⟩ := hboth
  induction hreached with
  | root ha => exact (hstarts _ ha).resolve_right (by rw [hskip]; exact Bool.false_ne_true)
  | next _ hprevious hb ih =>
    exact (hextends.closed _ (ih hprevious) List.not_mem_nil _ hb).resolve_right
      (by rw [hskip]; exact Bool.false_ne_true)

end VisitAll

end Traversal
