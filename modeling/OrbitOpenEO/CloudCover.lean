import OrbitOpenEO.Callbacks
import OrbitOpenEO.MaskOps
import Mathlib.Algebra.Order.Ring.Rat
import Mathlib.Tactic.Linarith

/-!
# The cloud-cover filter of a search

`load_collection` takes a predicate on `eo:cloud_cover`, written as a process graph.  Where
one of its nodes compares the value with a number, that number goes to the server as the
bound of a filter of its own.  The recogniser reads the nodes one after the other and does
not look for the result node; the filter is right when the result node is that comparison.

Nothing in the repository evaluates the predicate.  Here it is evaluated with the processes
as a parameter, of which only the two comparisons that the recogniser knows have a fixed
meaning.
-/

namespace OrbitOpenEO

section Recogniser

variable (ops : FloatOps)

/-- Whether an argument is `{"from_parameter": "value"}`. -/
def isValueParameter (x : Option Json) : Bool :=
  match (x.bind (Json.get · "from_parameter")).bind Json.asStr with
  | some s => s == "value"
  | none => false

/-- The body of the loop of `parse_eo_cloud_cover_lt`.  `none` leaves the function with
`None`, `some (some y)` leaves it with `Some(y)`, and `some none` goes on. -/
def readComparison (node : Json) : Option (Option F64) := do
  let pid ← (node.get "process_id").bind Json.asStr
  if pid ≠ "lt" ∧ pid ≠ "lte" then some none
  else
    match node.get "arguments" with
    | some (.obj args) =>
        let xOk := isValueParameter (args.lookup "x")
        let y ← (args.lookup "y").bind (Json.asF64 ops)
        if xOk then some (some y) else some none
    | _ => none

/-- The loop of `parse_eo_cloud_cover_lt`. -/
def readComparisons : SubGraph → Option F64
  | [] => none
  | e :: pg =>
      match readComparison ops e.2 with
      | none => none
      | some (some y) => some y
      | some none => readComparisons pg

/-- The predicate graph in the `properties` of a `load_collection`. -/
def cloudCoverGraph (props : Json) : Option SubGraph :=
  match (props.get "eo:cloud_cover").bind (Json.get · "process_graph") with
  | some (.obj pg) => some pg
  | _ => none

/-- `parse_eo_cloud_cover_lt`. -/
def parseEoCloudCoverLt (props : Json) : Option F64 :=
  (cloudCoverGraph props).bind (readComparisons ops)

/-- The `query` of the searcher's request. -/
def cloudCoverQuery (maxCloudCover : F64) : Json :=
  .obj [("eo:cloud_cover", .obj [("lt", Json.ofF64 maxCloudCover)])]

/-- A scene passes a query whose `lt` is above its cloud cover. -/
def Passes (query : Json) (v : F64) : Prop :=
  ∃ bound, ((query.get "eo:cloud_cover").bind (Json.get · "lt")).bind (Json.asF64 ops) =
    some bound ∧ v.lt bound

end Recogniser

/-- The processes of a predicate, by the values of the arguments. -/
abbrev Processes := String → (String → Option Json) → Option Json

mutual

/-- The value of an argument, given those of the nodes. -/
def argumentValue (node : String → Option Json) (v : F64) : Json → Option Json
  | .arr xs => (itemValues node v xs).map .arr
  | .obj fs =>
      match fs.lookup "from_parameter" with
      | some p => if p.asStr = some "value" then some (.num (.float v)) else none
      | none =>
          match fs.lookup "from_node" with
          | some k => k.asStr.bind node
          | none => some (.obj fs)
  | w => some w

def itemValues (node : String → Option Json) (v : F64) : List Json → Option (List Json)
  | [] => some []
  | x :: xs => do
      let w ← argumentValue node v x
      let ws ← itemValues node v xs
      some (w :: ws)

end

/-- The value of a node, given those of the others. -/
def applyProcess (sem : Processes) (node : String → Option Json) (v : F64) (n : Json) :
    Option Json :=
  ((n.get "process_id").bind Json.asStr).bind (fun pid =>
    sem pid (fun key =>
      ((n.get "arguments").bind (Json.get · key)).bind (argumentValue node v)))

/-- The values of the nodes that need no chain of references longer than the bound. -/
def nodeValue (sem : Processes) (pg : SubGraph) (v : F64) : Nat → String → Option Json
  | 0, _ => none
  | bound + 1, k =>
      (pg.lookup k).bind (applyProcess sem (nodeValue sem pg v bound) v)

/-- The result node is true, whatever the bound, once it is large enough. -/
def Accepts (sem : Processes) (pg : SubGraph) (v : F64) : Prop :=
  ∃ e, findUniqueResultNode pg "properties" = .ok e ∧
    ∃ n, ∀ bound, n ≤ bound →
      applyProcess sem (nodeValue sem pg v bound) v e.2 = some (.bool true)

/-- What `lt` and `lte` are documented to be. -/
structure Comparisons (ops : FloatOps) (sem : Processes) : Prop where
  lt : ∀ args a b, (args "x").bind (Json.asF64 ops) = some a →
    (args "y").bind (Json.asF64 ops) = some b → sem "lt" args = some (.bool (a.lt b))
  lte : ∀ args a b, (args "x").bind (Json.asF64 ops) = some a →
    (args "y").bind (Json.asF64 ops) = some b → sem "lte" args = some (.bool (a.le b))

/-- The processes of which nothing but the two comparisons is known. -/
def comparisonsOnly (ops : FloatOps) : Processes := fun pid args => do
  let a ← (args "x").bind (Json.asF64 ops)
  let b ← (args "y").bind (Json.asF64 ops)
  if pid = "lt" then some (.bool (a.lt b))
  else if pid = "lte" then some (.bool (a.le b))
  else none

theorem comparisonsOnly_comparisons (ops : FloatOps) : Comparisons ops (comparisonsOnly ops) := by
  constructor
  · intro args a b ha hb
    simp [comparisonsOnly, ha, hb]
  · intro args a b ha hb
    simp [comparisonsOnly, ha, hb]

/-- The other name of a node. -/
def renameNode (ρ : String → String) : Json → Json
  | .str k => .str (ρ k)
  | v => v

mutual

/-- Give the nodes other names where an argument refers to them. -/
def renameReferences (ρ : String → String) : Json → Json
  | .arr xs => .arr (renameInItems ρ xs)
  | .obj fs => .obj (renameInFields ρ fs)
  | v => v

def renameInFields (ρ : String → String) : List (String × Json) → List (String × Json)
  | [] => []
  | (key, v) :: fs =>
      (key, if key = "from_node" then renameNode ρ v else renameReferences ρ v) ::
        renameInFields ρ fs

def renameInItems (ρ : String → String) : List Json → List Json
  | [] => []
  | v :: vs => renameReferences ρ v :: renameInItems ρ vs

end

/-- The same nodes under other names and in another order. -/
def SameNodes (pg pg' : SubGraph) : Prop :=
  ∃ ρ : String → String, pg'.Perm (pg.map (fun e => (ρ e.1, renameReferences ρ e.2)))

section Renaming

variable (ρ : String → String)

theorem asStr_renameReferences (v : Json) : (renameReferences ρ v).asStr = v.asStr := by
  cases v <;> rfl

theorem asF64_renameReferences (ops : FloatOps) (v : Json) :
    (renameReferences ρ v).asF64 ops = v.asF64 ops := by
  cases v <;> rfl

theorem lookup_renameInFields {key : String} (hkey : key ≠ "from_node")
    (fs : List (String × Json)) :
    (renameInFields ρ fs).lookup key = (fs.lookup key).map (renameReferences ρ) := by
  induction fs with
  | nil =>
      rfl
  | cons f fs ih =>
      obtain ⟨k, v⟩ := f
      rw [renameInFields, BTreeMap.lookup_cons_ite, BTreeMap.lookup_cons_ite]
      by_cases hk : key = k
      · subst hk
        simp only [if_true, Option.map_some, if_neg hkey]
      · simp only [if_neg hk]
        exact ih

theorem get_renameReferences {key : String} (hkey : key ≠ "from_node") (v : Json) :
    (renameReferences ρ v).get key = (v.get key).map (renameReferences ρ) := by
  cases v with
  | obj fs =>
      exact lookup_renameInFields ρ hkey fs
  | _ =>
      rfl

theorem readComparison_renameReferences (ops : FloatOps) (node : Json) :
    readComparison ops (renameReferences ρ node) = readComparison ops node := by
  have hstr : ∀ {key} (v : Json), key ≠ "from_node" →
      ((renameReferences ρ v).get key).bind Json.asStr = (v.get key).bind Json.asStr := by
    intro key v hkey
    rw [get_renameReferences ρ hkey]
    cases v.get key with
    | none =>
        rfl
    | some w =>
        exact asStr_renameReferences ρ w
  unfold readComparison
  rw [hstr node (by decide), get_renameReferences ρ (by decide)]
  cases node.get "arguments" with
  | none =>
      rfl
  | some arguments =>
      cases arguments with
      | obj args =>
          have hy : ((renameInFields ρ args).lookup "y").bind (Json.asF64 ops) =
              (args.lookup "y").bind (Json.asF64 ops) := by
            rw [lookup_renameInFields ρ (by decide)]
            cases args.lookup "y" with
            | none =>
                rfl
            | some w =>
                exact asF64_renameReferences ρ ops w
          have hx : isValueParameter ((renameInFields ρ args).lookup "x") =
              isValueParameter (args.lookup "x") := by
            rw [lookup_renameInFields ρ (by decide)]
            unfold isValueParameter
            cases args.lookup "x" with
            | none =>
                rfl
            | some w =>
                have hname := hstr w (by decide : "from_parameter" ≠ "from_node")
                simp only [Option.map_some, Option.bind_some, hname]
          simp only [Option.map_some, renameReferences, hx, hy]
      | _ =>
          rfl

end Renaming

section Reading

variable {ops : FloatOps} {pg pg' : SubGraph} {y : F64}

/-- The bound comes from one of the nodes. -/
theorem exists_of_readComparisons (h : readComparisons ops pg = some y) :
    ∃ e ∈ pg, readComparison ops e.2 = some (some y) := by
  induction pg with
  | nil =>
      cases h
  | cons e pg ih =>
      rw [readComparisons] at h
      split at h
      · cases h
      · rename_i y' hread
        cases h
        exact ⟨e, List.mem_cons_self, hread⟩
      · obtain ⟨e', he', hread⟩ := ih h
        exact ⟨e', List.mem_cons_of_mem _ he', hread⟩

/-- Nodes that can be read and name one bound give that bound in every order. -/
theorem readComparisons_eq_some (hread : ∀ e ∈ pg, readComparison ops e.2 ≠ none)
    (hone : ∀ e ∈ pg, ∀ y', readComparison ops e.2 = some (some y') → y' = y)
    (hfound : ∃ e ∈ pg, readComparison ops e.2 = some (some y)) :
    readComparisons ops pg = some y := by
  induction pg with
  | nil =>
      obtain ⟨e, he, -⟩ := hfound
      cases he
  | cons e pg ih =>
      rw [readComparisons]
      rw [List.forall_mem_cons] at hread hone
      cases hfirst : readComparison ops e.2 with
      | none =>
          exact absurd hfirst hread.1
      | some r =>
          cases r with
          | some y' =>
              exact congrArg some (hone.1 y' hfirst)
          | none =>
              obtain ⟨e', he', hbound⟩ := hfound
              rcases List.mem_cons.mp he' with rfl | he'
              · rw [hfirst] at hbound
                cases hbound
              · exact ih hread.2 hone.2 ⟨e', he', hbound⟩

/-- A node read first decides. -/
theorem readComparisons_cons_of_mem {e : String × Json} (he : e ∈ pg)
    (hstable : ∀ pg', SameNodes pg pg' → readComparisons ops pg' = some y) :
    ∃ rest, readComparisons ops (e :: rest) = some y := by
  obtain ⟨before, after, rfl⟩ := List.append_of_mem he
  let same : String × Json → String × Json := fun e => (e.1, renameReferences id e.2)
  have hperm : SameNodes (before ++ e :: after) (same e :: (before ++ after).map same) := by
    refine ⟨id, ?_⟩
    rw [← List.map_cons]
    exact (List.perm_middle.symm.map same)
  refine ⟨(before ++ after).map same, ?_⟩
  have hread := hstable _ hperm
  rw [readComparisons] at hread ⊢
  rwa [readComparison_renameReferences id ops e.2] at hread

/-- The bound depends on the order just when a node cannot be read or there are two bounds. -/
theorem stable_iff (h : readComparisons ops pg = some y) :
    (∀ pg', SameNodes pg pg' → readComparisons ops pg' = some y) ↔
      (∀ e ∈ pg, readComparison ops e.2 ≠ none) ∧
        ∀ e ∈ pg, ∀ y', readComparison ops e.2 = some (some y') → y' = y := by
  constructor
  · intro hstable
    refine ⟨?_, ?_⟩
    · intro e he hnone
      obtain ⟨rest, hrest⟩ := readComparisons_cons_of_mem he hstable
      rw [readComparisons, hnone] at hrest
      cases hrest
    · intro e he y' hread
      obtain ⟨rest, hrest⟩ := readComparisons_cons_of_mem he hstable
      rw [readComparisons, hread] at hrest
      exact Option.some.inj hrest
  · rintro ⟨hread, hone⟩ pg' ⟨ρ, hperm⟩
    have hmem : ∀ e ∈ pg', ∃ e₀ ∈ pg, readComparison ops e.2 = readComparison ops e₀.2 := by
      intro e he
      obtain ⟨e₀, he₀, rfl⟩ := List.mem_map.mp (hperm.mem_iff.mp he)
      exact ⟨e₀, he₀, readComparison_renameReferences ρ ops e₀.2⟩
    apply readComparisons_eq_some
    · intro e he
      obtain ⟨e₀, he₀, hsame⟩ := hmem e he
      rw [hsame]
      exact hread e₀ he₀
    · intro e he y' hy'
      obtain ⟨e₀, he₀, hsame⟩ := hmem e he
      rw [hsame] at hy'
      exact hone e₀ he₀ y' hy'
    · obtain ⟨e₀, he₀, hbound⟩ := exists_of_readComparisons h
      refine ⟨_, hperm.mem_iff.mpr (List.mem_map_of_mem he₀), ?_⟩
      rw [readComparison_renameReferences]
      exact hbound

end Reading

/-- An operand of a comparison: the value itself, or a number. -/
inductive Operand where
  | value
  | number (a : F64)

namespace Operand

def eval : Operand → F64 → F64
  | .value, v => v
  | .number a, _ => a

/-- What a comparison can be given without another node. -/
def read (ops : FloatOps) (w : Json) : Option Operand :=
  match (w.get "from_parameter").bind Json.asStr with
  | some s => if s = "value" then some .value else none
  | none => (w.asF64 ops).map .number

end Operand

section Operands

variable {ops : FloatOps} {node : String → Option Json} {v : F64}

/-- Where the nodes have no numbers, only the value and numbers are compared. -/
theorem argumentValue_asF64 (hnode : ∀ k w, node k = some w → w.asF64 ops = none) (w : Json) :
    (argumentValue node v w).bind (Json.asF64 ops) =
      (Operand.read ops w).map (fun o => o.eval v) := by
  cases w with
  | obj fs =>
      unfold argumentValue Operand.read
      simp only [Json.get]
      cases fs.lookup "from_parameter" with
      | some p =>
          cases p with
          | str name =>
              by_cases hname : name = "value"
              · simp [Json.asStr, hname, Operand.eval, Json.asF64, Number.asF64]
              · simp [Json.asStr, hname]
          | _ =>
              rfl
      | none =>
          cases fs.lookup "from_node" with
          | some k =>
              cases k with
              | str name =>
                  cases hw : node name with
                  | none =>
                      simp [Json.asStr, hw, Json.asF64]
                  | some w =>
                      have hnumber := hnode name w hw
                      simp only [Json.asStr, Option.bind_some, hw, hnumber, Option.bind_none]
                      rfl
              | _ =>
                  rfl
          | none =>
              rfl
  | arr xs =>
      unfold argumentValue
      cases itemValues node v xs with
      | none =>
          rfl
      | some ws =>
          rfl
  | _ =>
      rfl

theorem Operand.read_eq_value {w : Json} :
    Operand.read ops w = some .value ↔
      (w.get "from_parameter").bind Json.asStr = some "value" := by
  unfold Operand.read
  cases (w.get "from_parameter").bind Json.asStr with
  | none =>
      cases w.asF64 ops <;> simp
  | some s =>
      simp

theorem Operand.read_eq_number {w : Json} {a : F64} :
    Operand.read ops w = some (.number a) ↔ w.asF64 ops = some a := by
  unfold Operand.read
  cases w with
  | obj fs =>
      cases (Json.get (.obj fs) "from_parameter").bind Json.asStr with
      | none =>
          simp [Json.asF64]
      | some s =>
          simp [Json.asF64]
  | _ =>
      simp [Json.get, Json.asF64]

/-- An operand has its value whatever the nodes have. -/
theorem argumentValue_of_read {w : Json} {o : Operand} (h : Operand.read ops w = some o) :
    (argumentValue node v w).bind (Json.asF64 ops) = some (o.eval v) := by
  cases o with
  | value =>
      rw [Operand.read_eq_value] at h
      cases w with
      | obj fs =>
          obtain ⟨p, hp, hname⟩ := Option.bind_eq_some_iff.mp h
          have hlookup : fs.lookup "from_parameter" = some p := hp
          unfold argumentValue
          simp only [hlookup, hname, if_true, Option.bind_some]
          rfl
      | _ =>
          cases h
  | number a =>
      rw [Operand.read_eq_number] at h
      cases w with
      | num n =>
          exact h
      | _ =>
          cases h

/-- The operand of a node under a key. -/
def operandAt (ops : FloatOps) (n : Json) (key : String) : Option Operand :=
  ((n.get "arguments").bind (Json.get · key)).bind (Operand.read ops)

/-- With nothing but comparisons known, a node is true just when it is one that holds. -/
theorem applyProcess_comparisonsOnly (hnode : ∀ k w, node k = some w → w.asF64 ops = none)
    {n : Json} :
    applyProcess (comparisonsOnly ops) node v n = some (.bool true) ↔
      ∃ x y, operandAt ops n "x" = some x ∧ operandAt ops n "y" = some y ∧
        (((n.get "process_id").bind Json.asStr = some "lt" ∧ (x.eval v).lt (y.eval v)) ∨
          ((n.get "process_id").bind Json.asStr = some "lte" ∧ (x.eval v).le (y.eval v))) := by
  have harg : ∀ key, (((n.get "arguments").bind (Json.get · key)).bind
      (argumentValue node v)).bind (Json.asF64 ops) =
      (operandAt ops n key).map (fun o => o.eval v) := by
    intro key
    unfold operandAt
    cases (n.get "arguments").bind (Json.get · key) with
    | none =>
        rfl
    | some w =>
        exact argumentValue_asF64 hnode w
  unfold applyProcess comparisonsOnly
  rw [harg, harg]
  cases (n.get "process_id").bind Json.asStr with
  | none =>
      simp
  | some pid =>
      cases operandAt ops n "x" with
      | none =>
          simp
      | some x =>
          cases operandAt ops n "y" with
          | none =>
              simp
          | some y =>
              by_cases hlt : pid = "lt"
              · simp [hlt]
              · by_cases hlte : pid = "lte"
                · simp [hlte]
                · simp [hlt, hlte]

theorem asF64_nodeValue {pg : SubGraph} (bound : Nat) (k : String) (w : Json)
    (h : nodeValue (comparisonsOnly ops) pg v bound k = some w) : w.asF64 ops = none := by
  cases bound with
  | zero =>
      cases h
  | succ bound =>
      obtain ⟨n, -, h⟩ := Option.bind_eq_some_iff.mp h
      obtain ⟨pid, -, h⟩ := Option.bind_eq_some_iff.mp h
      obtain ⟨a, -, h⟩ := Option.bind_eq_some_iff.mp h
      obtain ⟨b, -, h⟩ := Option.bind_eq_some_iff.mp h
      split at h
      · cases h
        rfl
      · split at h
        · cases h
          rfl
        · cases h

end Operands

namespace F64

/-- A finite float is a rational for the comparisons. -/
theorem exists_rat_of_isFinite {y : F64} (hy : y.isFinite) :
    ∃ t : ℚ, (∀ q : ℚ, (F64.finite q).lt y ↔ q < t) ∧ (F64.finite t).le y := by
  cases y with
  | finite t =>
      exact ⟨t, fun q => by simp [lt], by simp [le, feq]⟩
  | negZero =>
      exact ⟨0, fun q => by simp [lt], by simp [le, feq]⟩
  | _ =>
      cases hy

theorem lt_mono {a : F64} {p q : ℚ} (h : a.lt (.finite p)) (hpq : p ≤ q) : a.lt (.finite q) := by
  cases a with
  | finite r =>
      simp only [lt, decide_eq_true_eq] at h ⊢
      exact h.trans_le hpq
  | negZero =>
      simp only [lt, decide_eq_true_eq] at h ⊢
      exact h.trans_le hpq
  | negInf =>
      rfl
  | _ =>
      cases h

theorem le_mono {a : F64} {p q : ℚ} (h : a.le (.finite p)) (hpq : p ≤ q) : a.le (.finite q) := by
  unfold le at h ⊢
  rw [Bool.or_eq_true] at h ⊢
  rcases h with h | h
  · exact .inl (lt_mono h hpq)
  · cases a with
    | finite r =>
        simp only [feq, lt, decide_eq_true_eq] at h ⊢
        rcases hpq.lt_or_eq with hlt | heq
        · exact .inl (h ▸ hlt)
        · exact .inr (h.trans heq)
    | negZero =>
        simp only [feq, lt, decide_eq_true_eq] at h ⊢
        rcases hpq.lt_or_eq with hlt | heq
        · exact .inl (h ▸ hlt)
        · exact .inr (heq ▸ h)
    | _ =>
        cases h

end F64

/-- What pushing a bound down promises: a scene passes the filter just when the predicate
accepts it, and the bound depends on neither the names nor the order of the nodes. -/
structure SoundPushDown (ops : FloatOps) (pg : SubGraph) (y : F64) : Prop where
  sound : ∀ sem, Comparisons ops sem → ∀ v : ℚ,
    Accepts sem pg (.finite v) ↔ Passes ops (cloudCoverQuery y) (.finite v)
  stable : ∀ pg', SameNodes pg pg' → readComparisons ops pg' = some y

/-- Every node has a process, and its comparisons a number as bound; those of the value all
have one bound; and the result node is one of them, with `lt`. -/
structure PlainBound (ops : FloatOps) (pg : SubGraph) : Prop where
  readable : ∀ e ∈ pg, readComparison ops e.2 ≠ none
  one : ∃ bound, ∀ e ∈ pg, ∀ y, readComparison ops e.2 = some (some y) → y = bound
  result : ∃ e y, findUniqueResultNode pg "properties" = .ok e ∧
    (e.2.get "process_id").bind Json.asStr = some "lt" ∧ readComparison ops e.2 = some (some y)

section PushDown

variable {ops : FloatOps} {pg : SubGraph} {y : F64}

theorem passes_cloudCoverQuery (hy : y.isFinite) (v : F64) :
    Passes ops (cloudCoverQuery y) v ↔ v.lt y := by
  have hbound : (((cloudCoverQuery y).get "eo:cloud_cover").bind (Json.get · "lt")).bind
      (Json.asF64 ops) = some y := by
    simp only [cloudCoverQuery, Json.ofF64, hy, if_true]
    rfl
  unfold Passes
  rw [hbound]
  simp

/-- The operands of a comparison that the recogniser takes. -/
theorem operandAt_of_readComparison {n : Json}
    (hpid : (n.get "process_id").bind Json.asStr = some "lt" ∨
      (n.get "process_id").bind Json.asStr = some "lte") :
    readComparison ops n = some (some y) ↔
      operandAt ops n "x" = some .value ∧ operandAt ops n "y" = some (.number y) := by
  obtain ⟨pid, hpid, hkind⟩ : ∃ pid, (n.get "process_id").bind Json.asStr = some pid ∧
      ¬ (pid ≠ "lt" ∧ pid ≠ "lte") := by
    rcases hpid with h | h
    · exact ⟨_, h, by simp⟩
    · exact ⟨_, h, by simp⟩
  unfold readComparison operandAt
  simp only [hpid, Option.bind_eq_bind, Option.bind_some, if_neg hkind]
  cases n.get "arguments" with
  | none =>
      simp
  | some arguments =>
      cases arguments with
      | obj args =>
          have hx : (Json.obj args).get "x" = args.lookup "x" := rfl
          have hy : (Json.obj args).get "y" = args.lookup "y" := rfl
          have hvalue : (args.lookup "x").bind (Operand.read ops) = some .value ↔
              isValueParameter (args.lookup "x") := by
            unfold isValueParameter
            cases args.lookup "x" with
            | none =>
                simp
            | some w =>
                rw [Option.bind_some, Operand.read_eq_value, Option.bind_some]
                cases (w.get "from_parameter").bind Json.asStr with
                | none =>
                    simp
                | some s =>
                    simp
          have hnumber : (args.lookup "y").bind (Operand.read ops) = some (.number y) ↔
              (args.lookup "y").bind (Json.asF64 ops) = some y := by
            cases args.lookup "y" with
            | none =>
                simp
            | some w =>
                exact Operand.read_eq_number
          rw [Option.bind_some, Option.bind_some, hx, hy, hvalue, hnumber]
          cases hbound : (args.lookup "y").bind (Json.asF64 ops) with
          | none =>
              simp [hbound]
          | some y' =>
              by_cases hparam : isValueParameter (args.lookup "x")
              · simp [hbound, hparam]
              · simp [hbound, hparam]
      | _ =>
          simp [Json.get]

/-- A comparison of the value has the documented meaning under every reading of the others. -/
theorem applyProcess_lt {sem : Processes} (hsem : Comparisons ops sem)
    {node : String → Option Json} {v : F64} {n : Json}
    (hpid : (n.get "process_id").bind Json.asStr = some "lt")
    (hread : readComparison ops n = some (some y)) :
    applyProcess sem node v n = some (.bool (v.lt y)) := by
  obtain ⟨hx, hy⟩ := (operandAt_of_readComparison (.inl hpid)).mp hread
  obtain ⟨wx, hwx, hx⟩ := Option.bind_eq_some_iff.mp hx
  obtain ⟨wy, hwy, hy⟩ := Option.bind_eq_some_iff.mp hy
  unfold applyProcess
  rw [hpid, Option.bind_some]
  apply hsem.lt
  · rw [hwx]
    exact argumentValue_of_read hx
  · rw [hwy]
    exact argumentValue_of_read hy

theorem mem_of_findUniqueResultNode {field : String} {e : String × Json}
    (h : findUniqueResultNode pg field = .ok e) : e ∈ pg := by
  unfold findUniqueResultNode at h
  split at h
  · cases h
  · rename_i e' hfilter
    cases h
    have hmem : e ∈ pg.filter (fun e => isResultNode e.2) := by
      rw [hfilter]
      exact List.mem_singleton_self e
    exact (List.mem_filter.mp hmem).1
  · cases h

/-- With nothing but comparisons known, the predicate is the comparison at its result node. -/
theorem accepts_comparisonsOnly {v : F64} :
    Accepts (comparisonsOnly ops) pg v ↔
      ∃ e x y, findUniqueResultNode pg "properties" = .ok e ∧
        operandAt ops e.2 "x" = some x ∧ operandAt ops e.2 "y" = some y ∧
        (((e.2.get "process_id").bind Json.asStr = some "lt" ∧ (x.eval v).lt (y.eval v)) ∨
          ((e.2.get "process_id").bind Json.asStr = some "lte" ∧ (x.eval v).le (y.eval v))) := by
  unfold Accepts
  constructor
  · rintro ⟨e, he, n, htrue⟩
    obtain ⟨x, y, hx, hy, hholds⟩ :=
      (applyProcess_comparisonsOnly (asF64_nodeValue n)).mp (htrue n (le_refl n))
    exact ⟨e, x, y, he, hx, hy, hholds⟩
  · rintro ⟨e, x, y, he, hx, hy, hholds⟩
    refine ⟨e, he, 0, ?_⟩
    intro bound _
    exact (applyProcess_comparisonsOnly (asF64_nodeValue bound)).mpr ⟨x, y, hx, hy, hholds⟩

/-- A predicate that accepts what lies below a bound compares the value by `lt`. -/
theorem result_of_sound (hy : y.isFinite)
    (hone : ∀ e ∈ pg, ∀ y', readComparison ops e.2 = some (some y') → y' = y)
    (hsound : ∀ v : ℚ, Accepts (comparisonsOnly ops) pg (.finite v) ↔ (F64.finite v).lt y) :
    ∃ e y, findUniqueResultNode pg "properties" = .ok e ∧
      (e.2.get "process_id").bind Json.asStr = some "lt" ∧
      readComparison ops e.2 = some (some y) := by
  obtain ⟨t, hlt, hle⟩ := F64.exists_rat_of_isFinite hy
  have hbelow : Accepts (comparisonsOnly ops) pg (.finite (t - 1)) :=
    (hsound _).mpr ((hlt _).mpr (by linarith))
  have hat : ¬ Accepts (comparisonsOnly ops) pg (.finite t) := fun h =>
    lt_irrefl t ((hlt t).mp ((hsound t).mp h))
  have hstep : t - 1 ≤ t := by linarith
  obtain ⟨e, x, z, he, hx, hz, hholds⟩ := accepts_comparisonsOnly.mp hbelow
  -- the comparison does not hold at the bound itself
  have hfails : ¬ (((e.2.get "process_id").bind Json.asStr = some "lt" ∧
        (x.eval (.finite t)).lt (z.eval (.finite t))) ∨
      ((e.2.get "process_id").bind Json.asStr = some "lte" ∧
        (x.eval (.finite t)).le (z.eval (.finite t)))) := fun h =>
    hat (accepts_comparisonsOnly.mpr ⟨e, x, z, he, hx, hz, h⟩)
  rcases hholds with ⟨hpid, hcompare⟩ | ⟨hpid, hcompare⟩
  · refine ⟨e, ?_⟩
    cases x with
    | number a =>
        cases z with
        | number b =>
            exact absurd (.inl ⟨hpid, hcompare⟩) hfails
        | value =>
            exact absurd (.inl ⟨hpid, F64.lt_mono hcompare hstep⟩) hfails
    | value =>
        cases z with
        | number b =>
            exact ⟨b, he, hpid, (operandAt_of_readComparison (.inl hpid)).mpr ⟨hx, hz⟩⟩
        | value =>
            simp [Operand.eval, F64.lt] at hcompare
  · exfalso
    cases x with
    | number a =>
        cases z with
        | number b =>
            exact hfails (.inr ⟨hpid, hcompare⟩)
        | value =>
            exact hfails (.inr ⟨hpid, F64.le_mono hcompare hstep⟩)
    | value =>
        cases z with
        | number b =>
            have hread := (operandAt_of_readComparison (.inr hpid)).mpr ⟨hx, hz⟩
            have hbound : b = y := hone e (mem_of_findUniqueResultNode he) b hread
            exact hfails (.inr ⟨hpid, hbound ▸ hle⟩)
        | value =>
            exact hfails (.inr ⟨hpid, by simp [Operand.eval, F64.le, F64.feq]⟩)

/-- The bound pushed down is right just when the graph is the one comparison. -/
theorem pushDown_sound_iff {props : Json} (h : parseEoCloudCoverLt ops props = some y)
    (hy : y.isFinite) :
    ∃ pg, cloudCoverGraph props = some pg ∧ (SoundPushDown ops pg y ↔ PlainBound ops pg) := by
  obtain ⟨pg, hpg, hread⟩ := Option.bind_eq_some_iff.mp h
  refine ⟨pg, hpg, ?_⟩
  constructor
  · intro hpush
    obtain ⟨hreadable, hone⟩ := (stable_iff hread).mp hpush.stable
    have hsound : ∀ v : ℚ, Accepts (comparisonsOnly ops) pg (.finite v) ↔ (F64.finite v).lt y := by
      intro v
      rw [hpush.sound (comparisonsOnly ops) (comparisonsOnly_comparisons ops),
        passes_cloudCoverQuery hy]
    exact ⟨hreadable, ⟨y, hone⟩, result_of_sound hy hone hsound⟩
  · rintro ⟨hreadable, ⟨bound, hone⟩, e, y', he, hpid, hcompare⟩
    obtain ⟨e₀, he₀, hfound⟩ := exists_of_readComparisons hread
    obtain rfl : y = bound := hone e₀ he₀ y hfound
    obtain rfl : y' = y := hone e (mem_of_findUniqueResultNode he) y' hcompare
    refine ⟨?_, (stable_iff hread).mpr ⟨hreadable, hone⟩⟩
    intro sem hsem v
    rw [passes_cloudCoverQuery hy]
    constructor
    · rintro ⟨e', he', n, htrue⟩
      rw [he] at he'
      cases he'
      have hvalue := htrue n (le_refl n)
      rw [applyProcess_lt hsem hpid hcompare] at hvalue
      simpa using hvalue
    · intro hlt
      refine ⟨e, he, 0, ?_⟩
      intro bound _
      rw [applyProcess_lt hsem hpid hcompare, hlt]

end PushDown

/-- The properties of a call with one comparison of the cloud cover. -/
def comparedWith (pid : String) (bound : Nat) : Json :=
  .obj [("eo:cloud_cover", .obj [("process_graph", .obj [("cc", .obj
    [("process_id", .str pid),
     ("arguments", .obj [("x", .obj [("from_parameter", .str "value")]),
       ("y", .num (.posInt bound))]),
     ("result", .bool true)])])])]

/-- A comparison of the value with a bound. -/
def comparisonNode (pid : String) (bound : Nat) (rest : List (String × Json)) : Json :=
  .obj ([("process_id", .str pid), ("arguments", .obj
    [("x", .obj [("from_parameter", .str "value")]), ("y", .num (.posInt bound))])] ++ rest)

/-- The comparison at the result node comes after two nodes that nothing asks for. -/
def withSpareNodes : SubGraph :=
  [("day", .obj [("process_id", .str "date_between"), ("arguments", .obj [])]),
    ("same", comparisonNode "lte" 30 []),
    ("cc", comparisonNode "lt" 30 [("result", .bool true)])]

theorem pushDown_sound_iff_lt :
    parseEoCloudCoverLt FloatOps.exact
        (.obj [("eo:cloud_cover", .obj [("process_graph", .obj withSpareNodes)])]) =
      some (.finite 30) ∧
      SoundPushDown FloatOps.exact withSpareNodes (.finite 30) := by
  have hread : parseEoCloudCoverLt FloatOps.exact
      (.obj [("eo:cloud_cover", .obj [("process_graph", .obj withSpareNodes)])]) =
      some (.finite 30) := rfl
  refine ⟨hread, ?_⟩
  have hall : ∀ e ∈ withSpareNodes, readComparison FloatOps.exact e.2 = some none ∨
      readComparison FloatOps.exact e.2 = some (some (.finite 30)) := by decide
  obtain ⟨pg, ⟨⟩, hiff⟩ := pushDown_sound_iff hread rfl
  refine hiff.mpr ⟨fun e he => ?_, ⟨.finite 30, fun e he y hy => ?_⟩, _, _, rfl, rfl, rfl⟩
  · rcases hall e he with h | h
    · simp [h]
    · simp [h]
  · rcases hall e he with h | h
    · rw [h] at hy
      cases hy
    · rw [h] at hy
      cases hy
      rfl

/-- `lte` accepts its bound, which the filter keeps out. -/
theorem lte_bound_dropped :
    parseEoCloudCoverLt FloatOps.exact (comparedWith "lte" 50) = some (.finite 50) ∧
      ∃ pg, cloudCoverGraph (comparedWith "lte" 50) = some pg ∧
        (∀ sem, Comparisons FloatOps.exact sem → Accepts sem pg (.finite 50)) ∧
        ¬ Passes FloatOps.exact (cloudCoverQuery (.finite 50)) (.finite 50) ∧
        ¬ SoundPushDown FloatOps.exact pg (.finite 50) := by
  have hpasses : ¬ Passes FloatOps.exact (cloudCoverQuery (.finite 50)) (.finite 50) := by
    rw [passes_cloudCoverQuery rfl]
    simp [F64.lt]
  have haccepts : ∀ sem, Comparisons FloatOps.exact sem → ∀ pg,
      cloudCoverGraph (comparedWith "lte" 50) = some pg → Accepts sem pg (.finite 50) := by
    rintro sem hsem pg ⟨⟩
    refine ⟨_, rfl, 0, ?_⟩
    intro bound _
    exact hsem.lte _ (.finite 50) (.finite 50) rfl rfl
  refine ⟨rfl, _, rfl, fun sem hsem => haccepts sem hsem _ rfl, hpasses, ?_⟩
  intro hpush
  have hknown := comparisonsOnly_comparisons FloatOps.exact
  exact hpasses ((hpush.sound _ hknown 50).mp (haccepts _ hknown _ rfl))

end OrbitOpenEO
