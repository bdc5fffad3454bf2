import Mathlib.Data.List.Infix
import Mathlib.Tactic.Common

/-!
# Texts that show where they end

A text `CutsFrom` a family if it and a text of the family can only stand at the beginning of the
same text when they are the same, provided that a delimiter or nothing comes after each.  Lists
of such texts with separators between them and a closing mark after them are again read back in
one way.
-/

namespace OrbitOpenEO
namespace Lib

variable {α : Type}

/-- Nothing more, or a delimiter first. -/
def Delimited (D : α → Prop) : List α → Prop
  | [] => True
  | c :: _ => D c

/-- Before a delimiter the text ends where any text of the family does. -/
def CutsFrom (D : α → Prop) (T : List α → Prop) (s : List α) : Prop :=
  ∀ t r r', T t → Delimited D r → Delimited D r' → s ++ r = t ++ r' → s = t ∧ r = r'

/-- Texts without delimiters end at the first one. -/
theorem cutsFrom_of_no_delimiter {D : α → Prop} {T : List α → Prop} {s : List α}
    (hs : ∀ c ∈ s, ¬ D c) (hT : ∀ t, T t → ∀ c ∈ t, ¬ D c) : CutsFrom D T s := by
  intro t r r' ht hr hr' h
  have htc := hT t ht
  clear ht
  induction s generalizing t with
  | nil =>
      cases t with
      | nil =>
          exact ⟨rfl, h⟩
      | cons c t =>
          rw [List.nil_append] at h
          subst h
          exact absurd hr (htc c List.mem_cons_self)
  | cons c s ih =>
      cases t with
      | nil =>
          rw [List.nil_append] at h
          subst h
          exact absurd hr' (hs c List.mem_cons_self)
      | cons d t =>
          rw [List.cons_append, List.cons_append, List.cons.injEq] at h
          obtain ⟨rfl, h⟩ := h
          obtain ⟨rfl, hrest⟩ := ih (fun x hx => hs x (List.mem_cons_of_mem c hx)) t h
            fun x hx => htc x (List.mem_cons_of_mem c hx)
          exact ⟨rfl, hrest⟩

/-- A mark of two characters that two texts do not contain ends them in the same place. -/
theorem cut_at_mark {m₁ m₂ : α} (hm : m₁ ≠ m₂) {s t r r' : List α} (hs : ¬ [m₁, m₂] <:+: s)
    (ht : ¬ [m₁, m₂] <:+: t) (h : s ++ m₁ :: m₂ :: r = t ++ m₁ :: m₂ :: r') :
    s = t ∧ r = r' := by
  have hstart : ∀ {t r r' : List α}, ¬ [m₁, m₂] <:+: t →
      m₁ :: m₂ :: r = t ++ m₁ :: m₂ :: r' → t = [] := by
    intro t r r' ht h
    cases t with
    | nil =>
        rfl
    | cons c t =>
        rw [List.cons_append, List.cons.injEq] at h
        obtain ⟨rfl, h⟩ := h
        cases t with
        | nil =>
            rw [List.nil_append, List.cons.injEq] at h
            exact absurd h.1.symm hm
        | cons d t =>
            rw [List.cons_append, List.cons.injEq] at h
            obtain ⟨rfl, -⟩ := h
            exact absurd ⟨[], t, rfl⟩ ht
  induction s generalizing t with
  | nil =>
      obtain rfl := hstart ht h
      rw [List.nil_append, List.nil_append, List.cons.injEq, List.cons.injEq] at h
      exact ⟨rfl, h.2.2⟩
  | cons c s ih =>
      cases t with
      | nil =>
          exact absurd (hstart hs h.symm) (List.cons_ne_nil c s)
      | cons d t =>
          rw [List.cons_append, List.cons_append, List.cons.injEq] at h
          obtain ⟨rfl, h⟩ := h
          have htail : ∀ {u : List α}, ¬ [m₁, m₂] <:+: c :: u → ¬ [m₁, m₂] <:+: u :=
            fun hu hinfix => hu (List.infix_cons hinfix)
          obtain ⟨rfl, hrest⟩ := ih (htail hs) (htail ht) h
          exact ⟨rfl, hrest⟩

/-- The texts one after the other, each but the first with the separator before it. -/
def separated (sep : α) : List (List α) → List α
  | [] => []
  | t :: ts => t ++ ts.flatMap fun u => sep :: u

section Separated

variable {D : α → Prop} {T : List α → Prop} {sep close : α}

theorem delimited_flatMap (hsep : D sep) (hclose : D close) (ts : List (List α)) (r : List α) :
    Delimited D ((ts.flatMap fun u => sep :: u) ++ close :: r) := by
  cases ts with
  | nil =>
      exact hclose
  | cons t ts =>
      exact hsep

/-- The texts after the first one. -/
theorem flatMap_cut (hsep : D sep) (hclose : D close) (hne : sep ≠ close)
    {ss ts : List (List α)} {r r' : List α} (hss : ∀ s ∈ ss, CutsFrom D T s)
    (hts : ∀ t ∈ ts, T t)
    (h : (ss.flatMap fun u => sep :: u) ++ close :: r =
      (ts.flatMap fun u => sep :: u) ++ close :: r') : ss = ts ∧ r = r' := by
  induction ss generalizing ts with
  | nil =>
      cases ts with
      | nil =>
          exact ⟨rfl, List.tail_eq_of_cons_eq h⟩
      | cons t ts =>
          exact absurd (List.head_eq_of_cons_eq h).symm hne
  | cons s ss ih =>
      cases ts with
      | nil =>
          exact absurd (List.head_eq_of_cons_eq h) hne
      | cons t ts =>
          rw [List.flatMap_cons, List.flatMap_cons, List.cons_append, List.cons_append,
            List.cons_append, List.cons_append, List.cons.injEq, List.append_assoc,
            List.append_assoc] at h
          obtain ⟨hs, hss'⟩ := List.forall_mem_cons.mp hss
          obtain ⟨ht, hts'⟩ := List.forall_mem_cons.mp hts
          obtain ⟨rfl, hrest⟩ := hs t _ _ ht (delimited_flatMap hsep hclose _ _)
            (delimited_flatMap hsep hclose _ _) h.2
          obtain ⟨rfl, hend⟩ := ih hss' hts' hrest
          exact ⟨rfl, hend⟩

/-- A closed list of texts is read back in one way, if no text can be taken for the closing
mark. -/
theorem separated_cut (hsep : D sep) (hclose : D close) (hne : sep ≠ close)
    {ss ts : List (List α)} {r r' : List α} (hss : ∀ s ∈ ss, CutsFrom D T s)
    (hts : ∀ t ∈ ts, T t) (hstart : ∀ s, s ∈ ss ∨ s ∈ ts → ∃ c cs, s = c :: cs ∧ c ≠ close)
    (h : separated sep ss ++ close :: r = separated sep ts ++ close :: r') :
    ss = ts ∧ r = r' := by
  cases ss with
  | nil =>
      cases ts with
      | nil =>
          exact ⟨rfl, List.tail_eq_of_cons_eq h⟩
      | cons t ts =>
          obtain ⟨c, cs, rfl, hc⟩ := hstart t (.inr List.mem_cons_self)
          exact absurd (List.head_eq_of_cons_eq h).symm hc
  | cons s ss =>
      cases ts with
      | nil =>
          obtain ⟨c, cs, rfl, hc⟩ := hstart s (.inl List.mem_cons_self)
          exact absurd (List.head_eq_of_cons_eq h) hc
      | cons t ts =>
          rw [separated, separated, List.append_assoc, List.append_assoc] at h
          obtain ⟨hs, hss'⟩ := List.forall_mem_cons.mp hss
          obtain ⟨ht, hts'⟩ := List.forall_mem_cons.mp hts
          obtain ⟨rfl, hrest⟩ := hs t _ _ ht (delimited_flatMap hsep hclose _ _)
            (delimited_flatMap hsep hclose _ _) h
          obtain ⟨rfl, hend⟩ := flatMap_cut hsep hclose hne hss' hts' hrest
          exact ⟨rfl, hend⟩

end Separated

end Lib
end OrbitOpenEO
