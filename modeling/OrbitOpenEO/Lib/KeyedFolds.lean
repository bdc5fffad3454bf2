import Mathlib.Data.List.Basic
import Std.Data.TreeMap

/-!
# Folding into a map

Items are put one after the other into the cell of their key, which begins with `init`.  What the
cell holds in the end is the fold of the items with its key, and a key without items has none.
-/

namespace OrbitOpenEO
namespace Lib
namespace KeyedFold

variable {α β κ : Type} {cmp : κ → κ → Ordering} [Std.TransCmp cmp] [Std.LawfulEqCmp cmp]
  [DecidableEq κ]

/-- The items with a key. -/
def itemsAt (key : α → κ) (l : List α) (k : κ) : List α := l.filter fun a => key a = k

theorem mem_itemsAt_iff {key : α → κ} {l : List α} {k : κ} {a : α} :
    a ∈ itemsAt key l k ↔ a ∈ l ∧ key a = k := by
  rw [itemsAt, List.mem_filter, decide_eq_true_iff]

theorem itemsAt_cons_self (key : α → κ) (a : α) (l : List α) :
    itemsAt key (a :: l) (key a) = a :: itemsAt key l (key a) :=
  List.filter_cons_of_pos (decide_eq_true rfl)

theorem itemsAt_cons_of_ne {key : α → κ} {a : α} {k : κ} (h : key a ≠ k) (l : List α) :
    itemsAt key (a :: l) k = itemsAt key l k :=
  List.filter_cons_of_neg (by simpa using h)

theorem itemsAt_ne_nil_iff {ι : Type} {items : List (κ × ι)} {k : κ} :
    ¬ itemsAt Prod.fst items k = [] ↔ ∃ x, (k, x) ∈ items := by
  unfold itemsAt
  rw [List.filter_eq_nil_iff]
  simp [eq_comm]

/-- Into the cell of its key. -/
def enter (key : α → κ) (init : β) (put : β → α → β) (m : Std.TreeMap κ β cmp) (a : α) :
    Std.TreeMap κ β cmp :=
  m.alter (key a) fun v => some (put (v.getD init) a)

theorem getElem?_enter (key : α → κ) (init : β) (put : β → α → β) (m : Std.TreeMap κ β cmp)
    (a : α) (k : κ) :
    (enter key init put m a)[k]? =
      if key a = k then some (put (m[k]?.getD init) a) else m[k]? := by
  unfold enter
  rw [Std.TreeMap.getElem?_alter]
  by_cases h : key a = k
  · subst h
    rw [if_pos Std.ReflCmp.compare_self, if_pos rfl]
  · rw [if_neg fun heq => h (Std.LawfulEqCmp.eq_of_compare heq), if_neg h]

/-- A cell after the items, in terms of what it held before. -/
theorem getElem?_foldl_enter (key : α → κ) (init : β) (put : β → α → β) (l : List α)
    (m : Std.TreeMap κ β cmp) (k : κ) :
    (l.foldl (enter key init put) m)[k]? =
      if (itemsAt key l k).isEmpty then m[k]?
      else some ((itemsAt key l k).foldl put (m[k]?.getD init)) := by
  induction l generalizing m with
  | nil =>
      rfl
  | cons a l ih =>
      rw [List.foldl_cons, ih, getElem?_enter]
      by_cases h : key a = k
      · subst h
        rw [if_pos rfl, itemsAt_cons_self, Option.getD_some]
        cases itemsAt key l (key a) with
        | nil =>
            rfl
        | cons b bs =>
            rfl
      · rw [if_neg h, itemsAt_cons_of_ne h]

/-- **A cell holds the fold of its items.** -/
theorem getElem?_foldl_empty (key : α → κ) (init : β) (put : β → α → β) (l : List α) (k : κ) :
    (l.foldl (enter key init put) (∅ : Std.TreeMap κ β cmp))[k]? =
      if (itemsAt key l k).isEmpty then none else some ((itemsAt key l k).foldl put init) := by
  rw [getElem?_foldl_enter, Std.TreeMap.getElem?_emptyc]
  rfl

theorem getD_foldl_empty (key : α → κ) (init : β) (put : β → α → β) (l : List α) (k : κ) :
    (l.foldl (enter key init put) (∅ : Std.TreeMap κ β cmp))[k]?.getD init =
      (itemsAt key l k).foldl put init := by
  rw [getElem?_foldl_empty]
  cases itemsAt key l k with
  | nil =>
      rfl
  | cons a as =>
      rfl

/-- The entries are the cells with items. -/
theorem mem_toList_foldl_iff (key : α → κ) (init : β) (put : β → α → β) (l : List α) (k : κ)
    (b : β) :
    (k, b) ∈ (l.foldl (enter key init put) (∅ : Std.TreeMap κ β cmp)).toList ↔
      itemsAt key l k ≠ [] ∧ b = (itemsAt key l k).foldl put init := by
  rw [Std.TreeMap.mem_toList_iff_getElem?_eq_some, getElem?_foldl_empty]
  cases itemsAt key l k with
  | nil =>
      simp
  | cons a as =>
      simp [eq_comm]

end KeyedFold
end Lib
end OrbitOpenEO
