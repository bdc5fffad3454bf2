import OrbitOpenEO.Executor
import OrbitOpenEO.Lib.EditDistance
import OrbitOpenEO.Lib.StableSort
import Mathlib.Data.Prod.Lex

/-!
# Suggestions for unknown processes

`levenshtein` keeps one row of a table at a time.  The row after `i` characters holds the edit
distances of these characters to all beginnings of the other string (`levenshteinRow_eq`,
`levenshteinRows_eq`), so its last cell is the edit distance of the two strings
(`levenshtein_eq`).  `suggest` sorts what is near enough by distance and name, a total order:
neither the order in which the registry lists its names matters, nor can the cut at `max` take
away a name that is nearer than one that stays.
-/

namespace OrbitOpenEO
namespace ProcessRegistry

open Lib

/-- The distances of `done` to the beginnings of `p ++ bs` that are longer than `p`. -/
def distancesFrom (done p : List Char) : List Char → List Nat
  | [] => []
  | c :: bs => editDistance done (p ++ [c]) :: distancesFrom done (p ++ [c]) bs

theorem distancesFrom_nil (p bs : List Char) :
    distancesFrom [] p bs = List.range' (p.length + 1) bs.length := by
  induction bs generalizing p with
  | nil =>
      rfl
  | cons c bs ih =>
      rw [distancesFrom, ih, editDistance_nil_left, List.length_append, List.length_singleton,
        List.length_cons, List.range'_succ]

theorem getLastD_distancesFrom (done p bs : List Char) :
    (editDistance done p :: distancesFrom done p bs).getLastD 0 = editDistance done (p ++ bs) := by
  induction bs generalizing p with
  | nil =>
      rw [List.append_nil]
      rfl
  | cons c bs ih =>
      have h := ih (p ++ [c])
      rw [List.append_assoc, List.singleton_append] at h
      exact h

/-- One row is filled from the row before. -/
theorem levenshteinRow_eq (done p bs : List Char) (ca : Char) :
    levenshteinRow ca bs (distancesFrom done p bs) (editDistance done p)
      (editDistance (done ++ [ca]) p) = distancesFrom (done ++ [ca]) p bs := by
  induction bs generalizing p with
  | nil =>
      rfl
  | cons cb bs ih =>
      have hcell := editDistance_concat done p ca cb
      unfold replacement at hcell
      rw [distancesFrom, levenshteinRow, distancesFrom, ← hcell, ih]

/-- The rows are those of the characters done so far. -/
theorem levenshteinRows_eq (b a done : List Char) :
    levenshteinRows b a done.length (editDistance done [] :: distancesFrom done [] b) =
      editDistance (done ++ a) [] :: distancesFrom (done ++ a) [] b := by
  induction a generalizing done with
  | nil =>
      rw [List.append_nil]
      rfl
  | cons ca a ih =>
      have hfirst : done.length + 1 = editDistance (done ++ [ca]) [] := by simp
      have hnext := ih (done ++ [ca])
      rw [List.append_assoc, List.singleton_append, List.length_append, List.length_singleton]
        at hnext
      rw [levenshteinRows, List.tail_cons, List.headD_cons, ← hnext]
      simp only [hfirst, levenshteinRow_eq]

/-- **`levenshtein` is the edit distance of the characters.** -/
theorem levenshtein_eq (a b : String) : levenshtein a b = editDistance a.toList b.toList := by
  unfold levenshtein
  dsimp only
  split
  · rename_i ha
    rw [List.isEmpty_iff.mp ha, editDistance_nil_left]
  · split
    · rename_i hb
      rw [List.isEmpty_iff.mp hb, editDistance_nil_right]
    · have hrow : List.range (b.toList.length + 1) =
          editDistance ([] : List Char) [] :: distancesFrom [] [] b.toList := by
        rw [distancesFrom_nil, editDistance_nil_left, List.range_eq_range', List.range'_succ]
        rfl
      have hrows := levenshteinRows_eq b.toList a.toList []
      rw [List.nil_append, List.length_nil] at hrows
      rw [hrow, hrows, getLastD_distancesFrom, List.nil_append]

example : levenshtein "ndiv" "ndvi" = 2 := by decide

/-- The order of the suggestions: by distance, then alphabetically. -/
theorem closer_iff (p q : Nat × String) : closer p q = true ↔ toLex p ≤ toLex q := by
  unfold closer
  rw [Bool.or_eq_true, Bool.and_eq_true, decide_eq_true_eq, beq_iff_eq, decide_eq_true_eq,
    Prod.Lex.toLex_le_toLex]

theorem closer_trans (p q r : Nat × String) (hpq : closer p q = true)
    (hqr : closer q r = true) : closer p r = true := by
  rw [closer_iff] at *
  exact hpq.trans hqr

theorem closer_total (p q : Nat × String) : (closer p q || closer q p) = true := by
  rw [Bool.or_eq_true, closer_iff, closer_iff]
  exact le_total _ _

/-- `max(2, name.len() / 3)`. -/
def threshold (name : String) : Nat := Nat.max (name.utf8ByteSize / 3) 2

/-- The registered names that are near enough, each with its distance. -/
def scored (reg : ProcessRegistry) (name : String) : List (Nat × String) :=
  (reg.handlers.map (fun e => (levenshtein name e.1, e.1))).filter
    (fun p => decide (p.1 ≤ threshold name))

theorem suggest_eq (reg : ProcessRegistry) (name : String) (max : Nat) :
    reg.suggest name max = (((scored reg name).mergeSort closer).take max).map Prod.snd := rfl

theorem get_isSome_iff {reg : ProcessRegistry} {name : String} :
    (reg.get name).isSome = true ↔ ∃ e ∈ reg.handlers, e.1 = name := by
  rw [get, List.lookup_isSome_iff]
  simp only [beq_iff_eq, eq_comm (a := name)]

theorem mem_scored_iff {reg : ProcessRegistry} {name : String} {p : Nat × String} :
    p ∈ scored reg name ↔
      (reg.get p.2).isSome = true ∧ p.1 = levenshtein name p.2 ∧ p.1 ≤ threshold name := by
  unfold scored
  rw [List.mem_filter, List.mem_map, decide_eq_true_eq, get_isSome_iff]
  constructor
  · rintro ⟨⟨e, he, rfl⟩, hle⟩
    exact ⟨⟨e, he, rfl⟩, rfl, hle⟩
  · rintro ⟨⟨e, he, hname⟩, hdist, hle⟩
    exact ⟨⟨e, he, by rw [hname, ← hdist]⟩, hle⟩

/-- The order in which the names of the registry are listed does not matter. -/
theorem suggest_perm {reg reg' : ProcessRegistry} (h : reg.handlers.Perm reg'.handlers)
    (name : String) (max : Nat) : reg.suggest name max = reg'.suggest name max := by
  have hperm : (scored reg name).Perm (scored reg' name) := (h.map _).filter _
  have hsort : (scored reg name).mergeSort closer = (scored reg' name).mergeSort closer := by
    refine mergeSort_eq_of_perm closer_trans closer_total hperm fun p _ q _ hpq hqp => ?_
    rw [closer_iff] at hpq hqp
    exact toLex.injective (le_antisymm hpq hqp)
  rw [suggest_eq, suggest_eq, hsort]

/-- What a list of suggestions for a name has to be. -/
structure Suggests (reg : ProcessRegistry) (name : String) (ids : List String) : Prop where
  /-- Every suggestion is registered. -/
  registered : ∀ id ∈ ids, (reg.get id).isSome = true
  /-- Every suggestion is within the threshold. -/
  within : ∀ id ∈ ids, editDistance name.toList id.toList ≤ threshold name
  /-- Nearer suggestions come first. -/
  sorted : ids.Pairwise fun id id' =>
    editDistance name.toList id.toList ≤ editDistance name.toList id'.toList
  /-- No registered name is left out that is nearer than a suggestion. -/
  nearest : ∀ id ∈ ids, ∀ id', (reg.get id').isSome = true →
    editDistance name.toList id'.toList < editDistance name.toList id.toList → id' ∈ ids

theorem suggests_suggest (reg : ProcessRegistry) (name : String) (max : Nat) :
    Suggests reg name (reg.suggest name max) := by
  have hsorted := List.pairwise_mergeSort closer_trans closer_total (scored reg name)
  have hmem : ∀ p ∈ ((scored reg name).mergeSort closer).take max, p ∈ scored reg name :=
    fun p hp => List.mem_mergeSort.mp (List.mem_of_mem_take hp)
  simp only [suggest_eq]
  refine ⟨?_, ?_, ?_, ?_⟩
  · intro id hid
    obtain ⟨p, hp, rfl⟩ := List.mem_map.mp hid
    exact (mem_scored_iff.mp (hmem p hp)).1
  · intro id hid
    obtain ⟨p, hp, rfl⟩ := List.mem_map.mp hid
    obtain ⟨-, hdist, hle⟩ := mem_scored_iff.mp (hmem p hp)
    rwa [← levenshtein_eq, ← hdist]
  · rw [List.pairwise_map]
    refine (hsorted.sublist (List.take_sublist max _)).imp_of_mem ?_
    intro p q hp hq hpq
    rw [← levenshtein_eq, ← levenshtein_eq, ← (mem_scored_iff.mp (hmem p hp)).2.1,
      ← (mem_scored_iff.mp (hmem q hq)).2.1]
    rw [closer_iff, Prod.Lex.toLex_le_toLex] at hpq
    exact hpq.elim le_of_lt fun h => h.1.le
  · intro id hid id' hreg hlt
    obtain ⟨p, hp, rfl⟩ := List.mem_map.mp hid
    obtain ⟨-, hdist, hle⟩ := mem_scored_iff.mp (hmem p hp)
    rw [← levenshtein_eq, ← levenshtein_eq, ← hdist] at hlt
    -- The nearer name passes the filter and cannot stand behind the cut.
    have hscored : (levenshtein name id', id') ∈ (scored reg name).mergeSort closer :=
      List.mem_mergeSort.mpr (mem_scored_iff.mpr ⟨hreg, rfl, hlt.le.trans hle⟩)
    rw [← List.take_append_drop max ((scored reg name).mergeSort closer)] at hscored hsorted
    rcases List.mem_append.mp hscored with htake | hdrop
    · exact List.mem_map.mpr ⟨_, htake, rfl⟩
    · have hle' := (List.pairwise_append.mp hsorted).2.2 p hp _ hdrop
      rw [closer_iff, Prod.Lex.toLex_le_toLex] at hle'
      rcases hle' with h | h
      · exact absurd (hlt.trans h) (lt_irrefl _)
      · exact absurd h.1 hlt.ne'

/-- **Suggestions are the nearest registered names**, by a distance that is a metric. -/
theorem suggestions_nearest :
    (∀ a b : String, levenshtein a b = editDistance a.toList b.toList) ∧
    (∀ a b : String, levenshtein a b = levenshtein b a) ∧
    (∀ a b : String, levenshtein a b = 0 ↔ a = b) ∧
    (∀ a b c : String, levenshtein a c ≤ levenshtein a b + levenshtein b c) ∧
    ∀ (reg : ProcessRegistry) (name : String) (max : Nat),
      Suggests reg name (reg.suggest name max) := by
  refine ⟨levenshtein_eq, ?_, ?_, ?_, suggests_suggest⟩
  · intro a b
    rw [levenshtein_eq, levenshtein_eq, editDistance_comm]
  · intro a b
    rw [levenshtein_eq, editDistance_eq_zero_iff, String.toList_inj]
  · intro a b c
    rw [levenshtein_eq, levenshtein_eq, levenshtein_eq]
    exact editDistance_triangle _ _ _

end ProcessRegistry
end OrbitOpenEO
