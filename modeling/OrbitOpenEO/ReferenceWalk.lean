import OrbitOpenEO.Json
import OrbitOpenEO.Lib.Except
import Mathlib.Tactic.Common

/-!
# The walk that collects `from_node` references

`collect_in_value` recurses through one argument value and hands every
reference `{"from_node": "<id>"}` to a visitor:

* an object whose `from_node` member is a string is a link, whatever other
  members it has; it is visited and the walk does not enter it;
* an object with a `process_graph` member is a callback; its references live in
  an inner namespace and the walk does not enter it;
* other objects and arrays are entered, one level deeper; past
  `MAX_SUBGRAPH_DEPTH` the walk fails.

The walk is compared with three functions on values that know neither the
visitor nor the depth counter: `refs` (the counted references in order),
`nesting` (how deep the walk goes) and `eraseCallbacks` (the value with every
callback emptied).
-/

namespace OrbitOpenEO

open Lib

/-- Maximum recursion depth for argument-value walks. -/
def MAX_SUBGRAPH_DEPTH : Nat := 64

/-- Errors a graph build can surface. -/
inductive GraphError where
  | cycle (id : String)
  | unknownNodeReference (id : String)
  | ambiguousResult (count : Nat)
  | depthExceeded (limit : Nat)
deriving DecidableEq

/-- The text of a graph error. -/
def GraphError.toText : GraphError → String
  | .cycle id =>
      s!"process graph contains a cycle through node `{id}`"
  | .unknownNodeReference id =>
      s!"unknown node `{id}` referenced as `from_node`"
  | .ambiguousResult count =>
      s!"expected exactly one result-marked node (got {count})"
  | .depthExceeded limit =>
      s!"process graph argument nesting exceeded depth limit ({limit})"

/-- The string under `from_node`, if the object is a link. -/
def linkTarget (fs : List (String × Json)) : Option String :=
  match fs.lookup "from_node" with
  | some (.str s) => some s
  | _ => none

section Walk

variable {σ : Type} (visit : σ → String → Except GraphError σ)

mutual

/-- `collect_in_value_inner`, with the visitor's state passed along. -/
def collectInValueInner : Json → Nat → σ → Except GraphError σ
  | .obj fs, depth, acc =>
      if MAX_SUBGRAPH_DEPTH < depth then
        .error (.depthExceeded MAX_SUBGRAPH_DEPTH)
      else
        match linkTarget fs with
        | some s => visit acc s
        | none =>
            if containsKey "process_graph" fs then .ok acc
            else collectInFields fs (depth + 1) acc
  | .arr xs, depth, acc =>
      if MAX_SUBGRAPH_DEPTH < depth then
        .error (.depthExceeded MAX_SUBGRAPH_DEPTH)
      else collectInItems xs (depth + 1) acc
  | _, depth, acc =>
      if MAX_SUBGRAPH_DEPTH < depth then
        .error (.depthExceeded MAX_SUBGRAPH_DEPTH)
      else .ok acc

/-- The loop over the members of an object. -/
def collectInFields : List (String × Json) → Nat → σ → Except GraphError σ
  | [], _, acc => .ok acc
  | (_, v) :: fs, depth, acc => do
      let acc' ← collectInValueInner v depth acc
      collectInFields fs depth acc'

/-- The loop over the items of an array. -/
def collectInItems : List Json → Nat → σ → Except GraphError σ
  | [], _, acc => .ok acc
  | v :: vs, depth, acc => do
      let acc' ← collectInValueInner v depth acc
      collectInItems vs depth acc'

end

/-- `collect_in_value`: the walk from depth zero. -/
def collectInValue (v : Json) (acc : σ) : Except GraphError σ :=
  collectInValueInner visit v 0 acc

/-- `collect_from_node_refs`: the walk over all arguments of a node. -/
def collectFromNodeRefs : List Json → σ → Except GraphError σ
  | [], acc => .ok acc
  | v :: vs, acc => do
      let acc' ← collectInValue visit v acc
      collectFromNodeRefs vs acc'

end Walk

mutual

/-- The references the walk counts, in the order it meets them. -/
def refs : Json → List String
  | .obj fs =>
      match linkTarget fs with
      | some s => [s]
      | none => if containsKey "process_graph" fs then [] else refsInFields fs
  | .arr xs => refsInItems xs
  | _ => []

def refsInFields : List (String × Json) → List String
  | [] => []
  | (_, v) :: fs => refs v ++ refsInFields fs

def refsInItems : List Json → List String
  | [] => []
  | v :: vs => refs v ++ refsInItems vs

end

mutual

/-- How many levels the walk descends below a value. -/
def nesting : Json → Nat
  | .obj fs =>
      match linkTarget fs with
      | some _ => 0
      | none => if containsKey "process_graph" fs then 0 else nestingInFields fs
  | .arr xs => nestingInItems xs
  | _ => 0

def nestingInFields : List (String × Json) → Nat
  | [] => 0
  | (_, v) :: fs => max (nesting v + 1) (nestingInFields fs)

def nestingInItems : List Json → Nat
  | [] => 0
  | v :: vs => max (nesting v + 1) (nestingInItems vs)

end

/-- A value carries a counted reference to `s`: the rules of the walk, without
its order. -/
inductive Counted : Json → String → Prop
  | link {fs : List (String × Json)} {s : String} :
      linkTarget fs = some s → Counted (.obj fs) s
  | field {fs : List (String × Json)} {k : String} {v : Json} {s : String} :
      linkTarget fs = none → containsKey "process_graph" fs = false →
      (k, v) ∈ fs → Counted v s → Counted (.obj fs) s
  | item {xs : List Json} {v : Json} {s : String} :
      v ∈ xs → Counted v s → Counted (.arr xs) s

section Counted

mutual

theorem counted_of_mem_refs {s : String} :
    ∀ {v : Json}, s ∈ refs v → Counted v s
  | .obj fs, h => by
      unfold refs at h
      split at h
      · rename_i t ht
        rw [List.mem_singleton] at h
        exact Counted.link (h ▸ ht)
      · rename_i ht
        split_ifs at h with hpg
        · simp at h
        · obtain ⟨k, v, hmem, hv⟩ := counted_of_mem_refsInFields h
          exact Counted.field ht (by simpa using hpg) hmem hv
  | .arr xs, h => by
      unfold refs at h
      obtain ⟨v, hmem, hv⟩ := counted_of_mem_refsInItems h
      exact Counted.item hmem hv
  | .null, h => by simp [refs] at h
  | .bool _, h => by simp [refs] at h
  | .num _, h => by simp [refs] at h
  | .str _, h => by simp [refs] at h

theorem counted_of_mem_refsInFields {s : String} :
    ∀ {fs : List (String × Json)},
      s ∈ refsInFields fs → ∃ k v, (k, v) ∈ fs ∧ Counted v s
  | [], h => by simp [refsInFields] at h
  | (k, v) :: fs, h => by
      unfold refsInFields at h
      rcases List.mem_append.mp h with h | h
      · exact ⟨k, v, List.mem_cons_self, counted_of_mem_refs h⟩
      · obtain ⟨k', v', hmem, hv⟩ := counted_of_mem_refsInFields h
        exact ⟨k', v', List.mem_cons_of_mem _ hmem, hv⟩

theorem counted_of_mem_refsInItems {s : String} :
    ∀ {xs : List Json},
      s ∈ refsInItems xs → ∃ v, v ∈ xs ∧ Counted v s
  | [], h => by simp [refsInItems] at h
  | v :: vs, h => by
      unfold refsInItems at h
      rcases List.mem_append.mp h with h | h
      · exact ⟨v, List.mem_cons_self, counted_of_mem_refs h⟩
      · obtain ⟨v', hmem, hv⟩ := counted_of_mem_refsInItems h
        exact ⟨v', List.mem_cons_of_mem _ hmem, hv⟩

end

theorem mem_refsInFields_of_mem {s k : String} {v : Json} (hs : s ∈ refs v) :
    ∀ {fs : List (String × Json)}, (k, v) ∈ fs → s ∈ refsInFields fs
  | [], h => by simp at h
  | (k', v') :: fs, h => by
      unfold refsInFields
      rcases List.mem_cons.mp h with he | h
      · cases he
        exact List.mem_append_left _ hs
      · exact List.mem_append_right _ (mem_refsInFields_of_mem hs h)

theorem mem_refsInItems_of_mem {s : String} {v : Json} (hs : s ∈ refs v) :
    ∀ {xs : List Json}, v ∈ xs → s ∈ refsInItems xs
  | [], h => by simp at h
  | v' :: vs, h => by
      unfold refsInItems
      rcases List.mem_cons.mp h with rfl | h
      · exact List.mem_append_left _ hs
      · exact List.mem_append_right _ (mem_refsInItems_of_mem hs h)

/-- The reference list of a value holds exactly its counted references. -/
theorem mem_refs_iff {v : Json} {s : String} : s ∈ refs v ↔ Counted v s := by
  constructor
  · exact counted_of_mem_refs
  · intro h
    induction h with
    | link ht =>
        simp [refs, ht]
    | field ht hpg hmem _ ih =>
        simp only [refs, ht, hpg, Bool.false_eq_true, if_false]
        exact mem_refsInFields_of_mem ih hmem
    | item hmem _ ih =>
        simp only [refs]
        exact mem_refsInItems_of_mem ih hmem

end Counted

section WalkSpec

variable {σ : Type} (visit : σ → String → Except GraphError σ)

mutual

/-- **The walk succeeds exactly when it stays within the depth limit and the
visitor accepts every counted reference in turn.** -/
theorem collectInValueInner_eq_ok_iff :
    ∀ (v : Json) (depth : Nat) (acc acc' : σ),
      collectInValueInner visit v depth acc = .ok acc' ↔
        depth + nesting v ≤ MAX_SUBGRAPH_DEPTH ∧
          (refs v).foldlM visit acc = .ok acc'
  | .obj fs, depth, acc, acc' => by
      unfold collectInValueInner nesting refs
      by_cases hd : MAX_SUBGRAPH_DEPTH < depth
      · simp only [hd, if_true, reduceCtorEq, false_iff]
        omega
      · simp only [hd, if_false]
        cases hl : linkTarget fs with
        | some s =>
            have hd' : depth + 0 ≤ MAX_SUBGRAPH_DEPTH := by omega
            simp only [hd', true_and, List.foldlM_cons, List.foldlM_nil]
            cases visit acc s <;> simp [bind, Except.bind, pure, Except.pure]
        | none =>
            by_cases hpg : containsKey "process_graph" fs = true
            · have hd' : depth + 0 ≤ MAX_SUBGRAPH_DEPTH := by omega
              simp [hpg, pure, Except.pure]
              omega
            · simp only [hpg, if_false, Bool.false_eq_true]
              exact collectInFields_eq_ok_iff fs depth acc acc' (by omega)
  | .arr xs, depth, acc, acc' => by
      unfold collectInValueInner nesting refs
      by_cases hd : MAX_SUBGRAPH_DEPTH < depth
      · simp only [hd, if_true, reduceCtorEq, false_iff]
        omega
      · simp only [hd, if_false]
        exact collectInItems_eq_ok_iff xs depth acc acc' (by omega)
  | .null, depth, acc, acc' => by
      simp [collectInValueInner, nesting, refs, pure, Except.pure]
      split_ifs <;> simp <;> omega
  | .bool _, depth, acc, acc' => by
      simp [collectInValueInner, nesting, refs, pure, Except.pure]
      split_ifs <;> simp <;> omega
  | .num _, depth, acc, acc' => by
      simp [collectInValueInner, nesting, refs, pure, Except.pure]
      split_ifs <;> simp <;> omega
  | .str _, depth, acc, acc' => by
      simp [collectInValueInner, nesting, refs, pure, Except.pure]
      split_ifs <;> simp <;> omega

theorem collectInFields_eq_ok_iff :
    ∀ (fs : List (String × Json)) (depth : Nat) (acc acc' : σ),
      depth ≤ MAX_SUBGRAPH_DEPTH →
      (collectInFields visit fs (depth + 1) acc = .ok acc' ↔
        depth + nestingInFields fs ≤ MAX_SUBGRAPH_DEPTH ∧
          (refsInFields fs).foldlM visit acc = .ok acc')
  | [], depth, acc, acc', hd => by
      simp [collectInFields, nestingInFields, refsInFields, pure, Except.pure, hd]
  | (k, v) :: fs, depth, acc, acc', hd => by
      unfold collectInFields nestingInFields refsInFields
      rw [foldlM_append_eq_ok_iff]
      rw [bind_eq_ok_iff_of_iff (collectInValueInner_eq_ok_iff v (depth + 1) acc)
        (fun mid => collectInFields_eq_ok_iff fs depth mid acc' hd)]
      refine and_congr ?_ Iff.rfl
      omega

theorem collectInItems_eq_ok_iff :
    ∀ (xs : List Json) (depth : Nat) (acc acc' : σ),
      depth ≤ MAX_SUBGRAPH_DEPTH →
      (collectInItems visit xs (depth + 1) acc = .ok acc' ↔
        depth + nestingInItems xs ≤ MAX_SUBGRAPH_DEPTH ∧
          (refsInItems xs).foldlM visit acc = .ok acc')
  | [], depth, acc, acc', hd => by
      simp [collectInItems, nestingInItems, refsInItems, pure, Except.pure, hd]
  | v :: vs, depth, acc, acc', hd => by
      unfold collectInItems nestingInItems refsInItems
      rw [foldlM_append_eq_ok_iff]
      rw [bind_eq_ok_iff_of_iff (collectInValueInner_eq_ok_iff v (depth + 1) acc)
        (fun mid => collectInItems_eq_ok_iff vs depth mid acc' hd)]
      refine and_congr ?_ Iff.rfl
      omega

end

/-- The walk over a list of arguments, in the same terms. -/
theorem collectFromNodeRefs_eq_ok_iff :
    ∀ (vs : List Json) (acc acc' : σ),
      collectFromNodeRefs visit vs acc = .ok acc' ↔
        (∀ v ∈ vs, nesting v ≤ MAX_SUBGRAPH_DEPTH) ∧
          (vs.flatMap refs).foldlM visit acc = .ok acc'
  | [], acc, acc' => by
      simp [collectFromNodeRefs, pure, Except.pure]
  | v :: vs, acc, acc' => by
      rw [List.flatMap_cons, foldlM_append_eq_ok_iff]
      unfold collectFromNodeRefs collectInValue
      rw [bind_eq_ok_iff_of_iff (collectInValueInner_eq_ok_iff visit v 0 acc)
        (fun mid => collectFromNodeRefs_eq_ok_iff vs mid acc')]
      simp

end WalkSpec

section Callbacks

mutual

/-- A value with the body of every callback taken out: a callback object keeps
only an empty `process_graph`, and so does that member of a link. -/
def eraseCallbacks : Json → Json
  | .obj fs =>
      if (linkTarget fs).isNone && containsKey "process_graph" fs then
        .obj [("process_graph", .null)]
      else .obj (eraseInFields fs)
  | .arr xs => .arr (eraseInItems xs)
  | v => v

def eraseInFields : List (String × Json) → List (String × Json)
  | [] => []
  | (k, v) :: fs =>
      (k, if k = "process_graph" then .null else eraseCallbacks v) :: eraseInFields fs

def eraseInItems : List Json → List Json
  | [] => []
  | v :: vs => eraseCallbacks v :: eraseInItems vs

end

theorem lookup_eraseInFields (key : String) :
    ∀ fs : List (String × Json),
      (eraseInFields fs).lookup key =
        (fs.lookup key).map
          (fun v => if key = "process_graph" then .null else eraseCallbacks v)
  | [] => rfl
  | (k, v) :: fs => by
      unfold eraseInFields
      by_cases hk : key = k
      · subst hk
        simp
      · have hk' : (key == k) = false := by simpa using hk
        simp [List.lookup_cons, hk', lookup_eraseInFields key fs]

@[simp] theorem containsKey_eraseInFields (key : String) (fs : List (String × Json)) :
    containsKey key (eraseInFields fs) = containsKey key fs := by
  simp only [containsKey, lookup_eraseInFields]
  cases fs.lookup key <;> rfl

@[simp] theorem linkTarget_eraseInFields (fs : List (String × Json)) :
    linkTarget (eraseInFields fs) = linkTarget fs := by
  have hne : ("from_node" : String) ≠ "process_graph" := by decide
  unfold linkTarget
  rw [lookup_eraseInFields]
  cases fs.lookup "from_node" with
  | none => rfl
  | some v =>
      simp only [Option.map_some, if_neg hne]
      cases v with
      | obj gs =>
          unfold eraseCallbacks
          split_ifs <;> rfl
      | _ => simp [eraseCallbacks]

variable {σ : Type} (visit : σ → String → Except GraphError σ)

mutual

/-- The walk cannot see what is inside a callback. -/
theorem collectInValueInner_eraseCallbacks :
    ∀ (v : Json) (depth : Nat) (acc : σ),
      collectInValueInner visit (eraseCallbacks v) depth acc =
        collectInValueInner visit v depth acc
  | .obj fs, depth, acc => by
      by_cases hcb : ((linkTarget fs).isNone && containsKey "process_graph" fs) = true
      · have hl : linkTarget fs = none := by simp_all
        have hpg : containsKey "process_graph" fs = true := by simp_all
        have hl' : linkTarget [("process_graph", Json.null)] = none := by decide
        have hpg' : containsKey "process_graph" [("process_graph", Json.null)] = true := by
          decide
        rw [eraseCallbacks, if_pos hcb]
        simp only [collectInValueInner, hl, hl', hpg, hpg', if_true]
      · rw [eraseCallbacks, if_neg hcb]
        simp only [collectInValueInner, linkTarget_eraseInFields, containsKey_eraseInFields]
        cases hl : linkTarget fs with
        | some s => rfl
        | none =>
            have hpg : containsKey "process_graph" fs = false := by
              simpa [hl] using hcb
            simp only [hpg, Bool.false_eq_true, if_false]
            rw [collectInFields_eraseInFields fs (depth + 1) acc hpg]
  | .arr xs, depth, acc => by
      simp only [eraseCallbacks, collectInValueInner]
      rw [collectInItems_eraseInItems xs (depth + 1) acc]
  | .null, _, _ => rfl
  | .bool _, _, _ => rfl
  | .num _, _, _ => rfl
  | .str _, _, _ => rfl

theorem collectInFields_eraseInFields :
    ∀ (fs : List (String × Json)) (depth : Nat) (acc : σ),
      containsKey "process_graph" fs = false →
      collectInFields visit (eraseInFields fs) depth acc =
        collectInFields visit fs depth acc
  | [], _, _, _ => rfl
  | (k, v) :: fs, depth, acc, h => by
      have hk : ¬ k = "process_graph" := by
        rintro rfl
        simp [containsKey] at h
      have h' : containsKey "process_graph" fs = false := by
        have hk' : ("process_graph" == k) = false := by simpa using fun he => hk he.symm
        simpa [containsKey, List.lookup_cons, hk'] using h
      simp only [eraseInFields, collectInFields, if_neg hk]
      rw [collectInValueInner_eraseCallbacks v depth acc]
      cases collectInValueInner visit v depth acc with
      | error e => rfl
      | ok mid => exact collectInFields_eraseInFields fs depth mid h'

theorem collectInItems_eraseInItems :
    ∀ (xs : List Json) (depth : Nat) (acc : σ),
      collectInItems visit (eraseInItems xs) depth acc =
        collectInItems visit xs depth acc
  | [], _, _ => rfl
  | v :: vs, depth, acc => by
      simp only [eraseInItems, collectInItems]
      rw [collectInValueInner_eraseCallbacks v depth acc]
      cases collectInValueInner visit v depth acc with
      | error e => rfl
      | ok mid => exact collectInItems_eraseInItems vs depth mid

end

/-- Emptying the callbacks of the arguments does not change the walk. -/
theorem collectFromNodeRefs_map_eraseCallbacks :
    ∀ (vs : List Json) (acc : σ),
      collectFromNodeRefs visit (vs.map eraseCallbacks) acc =
        collectFromNodeRefs visit vs acc
  | [], _ => rfl
  | v :: vs, acc => by
      simp only [List.map_cons, collectFromNodeRefs, collectInValue]
      rw [collectInValueInner_eraseCallbacks visit v 0 acc]
      cases collectInValueInner visit v 0 acc with
      | error e => rfl
      | ok mid => exact collectFromNodeRefs_map_eraseCallbacks vs mid

end Callbacks

end OrbitOpenEO
