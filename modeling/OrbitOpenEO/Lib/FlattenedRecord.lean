import Mathlib.Data.List.Basic
import Mathlib.Data.List.Nodup
import Mathlib.Logic.Function.Basic
import Mathlib.Tactic.Common

/-!
# Records with a catch-all map

A record is written as a map from the names of its fields to their encodings, without
the fields that are skipped, followed by the entries of a catch-all map.  A reader goes
through a map entry by entry: it decodes the entry of a field, and keeps the others for
the catch-all map; a field that does not occur has its default.

`read_of_perm_write` is the round trip.  It does not depend on the order in which the
map gives its entries.
-/

namespace OrbitOpenEO
namespace Lib

/-- The fields of a record: their names, their defaults, and when they are skipped. -/
structure RecordFormat (F : Type) (Ty : F → Type) where
  fields : List F
  name : F → String
  default : ∀ f, Ty f
  skip : ∀ f, Ty f → Bool
  complete : ∀ f, f ∈ fields
  nodup : fields.Nodup
  name_injective : Function.Injective name

namespace RecordFormat

variable {F V ε : Type} {Ty : F → Type} (R : RecordFormat F Ty)

section Format

variable (encode : ∀ f, Ty f → V) (decode : ∀ f, V → Except ε (Ty f)) (duplicate : String → ε)

/-- The entry of a field, if it is not skipped. -/
def entryOf (values : ∀ f, Ty f) (f : F) : Option (String × V) :=
  if R.skip f (values f) then none else some (R.name f, encode f (values f))

/-- The entries of the fields that are not skipped, and the other entries. -/
def write (values : ∀ f, Ty f) (extras : List (String × V)) : List (String × V) :=
  R.fields.filterMap (R.entryOf encode values) ++ extras

/-- The field of a name. -/
def fieldNamed (key : String) : Option F := R.fields.find? (fun f => R.name f == key)

variable [DecidableEq F]

/-- The loop of a reader: the fields read so far, and the entries of no field. -/
def visit : List (String × V) → (∀ f, Option (Ty f)) → List (String × V) →
    Except ε ((∀ f, Option (Ty f)) × List (String × V))
  | [], slots, others => .ok (slots, others)
  | (key, v) :: entries, slots, others =>
      match R.fieldNamed key with
      | some f =>
          match slots f with
          | some _ => .error (duplicate key)
          | none =>
              match decode f v with
              | .error e => .error e
              | .ok x => visit entries (Function.update slots f (some x)) others
      | none => visit entries slots (others ++ [(key, v)])

/-- Read a record. -/
def read (entries : List (String × V)) : Except ε ((∀ f, Ty f) × List (String × V)) :=
  match R.visit decode duplicate entries (fun _ => none) [] with
  | .error e => .error e
  | .ok (slots, others) => .ok (fun f => (slots f).getD (R.default f), others)

end Format

variable {R} {encode : ∀ f, Ty f → V} {decode : ∀ f, V → Except ε (Ty f)} {duplicate : String → ε}

theorem fieldNamed_eq_some_iff {key : String} {f : F} :
    R.fieldNamed key = some f ↔ R.name f = key := by
  unfold fieldNamed
  constructor
  · intro h
    simpa using List.find?_some h
  · intro h
    cases hfind : R.fields.find? (fun f => R.name f == key) with
    | none =>
        have hnone := List.find?_eq_none.mp hfind f (R.complete f)
        exact absurd (beq_iff_eq.mpr h) hnone
    | some g =>
        have hg : R.name g = key := by simpa using List.find?_some hfind
        rw [R.name_injective (hg.trans h.symm)]

theorem fieldNamed_eq_none_iff {key : String} :
    R.fieldNamed key = none ↔ ∀ f, R.name f ≠ key := by
  rw [Option.eq_none_iff_forall_ne_some]
  exact forall_congr' fun f => not_congr fieldNamed_eq_some_iff

/-- What the loop has read, if it meets no name twice and every field can be decoded. -/
theorem visit_eq_ok [DecidableEq F] {values : ∀ f, Ty f} :
    ∀ {entries : List (String × V)} {slots : ∀ f, Option (Ty f)} {others : List (String × V)},
      (entries.map Prod.fst).Nodup →
      (∀ f v, (R.name f, v) ∈ entries → slots f = none ∧ decode f v = .ok (values f)) →
      R.visit decode duplicate entries slots others =
        .ok (fun f => if R.name f ∈ entries.map Prod.fst then some (values f) else slots f,
          others ++ entries.filter (fun e => (R.fieldNamed e.1).isNone))
  | [], slots, others, _, _ => by simp [visit]
  | (key, v) :: entries, slots, others, hnodup, hread => by
      obtain ⟨hkey, hnodup⟩ := List.nodup_cons.mp hnodup
      unfold visit
      cases hf : R.fieldNamed key with
      | none =>
          have hnames := fieldNamed_eq_none_iff.mp hf
          dsimp only
          rw [visit_eq_ok hnodup fun f w hw => hread f w (List.mem_cons_of_mem _ hw)]
          have hslots : ∀ f, (R.name f ∈ ((key, v) :: entries).map Prod.fst ↔
              R.name f ∈ entries.map Prod.fst) := fun f => by
            rw [List.map_cons, List.mem_cons]
            exact or_iff_right (hnames f)
          have hfilter : ((key, v) :: entries).filter (fun e => (R.fieldNamed e.1).isNone) =
              (key, v) :: entries.filter (fun e => (R.fieldNamed e.1).isNone) :=
            List.filter_cons_of_pos (by simp [hf])
          simp only [hslots, hfilter, List.append_assoc, List.singleton_append]
      | some f =>
          have hname : R.name f = key := fieldNamed_eq_some_iff.mp hf
          obtain ⟨hslot, hdecode⟩ := hread f v (hname ▸ List.mem_cons_self)
          dsimp only
          rw [hslot, hdecode]
          dsimp only
          have hrest : ∀ g w, (R.name g, w) ∈ entries →
              Function.update slots f (some (values f)) g = none ∧
                decode g w = .ok (values g) := by
            intro g w hw
            obtain ⟨hg, hdecode⟩ := hread g w (List.mem_cons_of_mem _ hw)
            have hne : g ≠ f := by
              rintro rfl
              exact hkey (hname ▸ List.mem_map.mpr ⟨_, hw, rfl⟩)
            exact ⟨by rw [Function.update_of_ne hne, hg], hdecode⟩
          rw [visit_eq_ok hnodup hrest]
          have hfilter : ((key, v) :: entries).filter (fun e => (R.fieldNamed e.1).isNone) =
              entries.filter (fun e => (R.fieldNamed e.1).isNone) :=
            List.filter_cons_of_neg (by simp [hf])
          rw [hfilter]
          congr 2
          funext g
          simp only [List.map_cons, List.mem_cons]
          by_cases hg : g = f
          · subst hg
            rw [if_neg (hname ▸ hkey), if_pos (Or.inl hname), Function.update_self]
          · have hne : R.name g ≠ key := fun h => hg (R.name_injective (h.trans hname.symm))
            simp only [Function.update_of_ne hg, hne, false_or]

/-- **Reading a record**: a map without repeated names, in which every field can be
decoded and no other field differs from its default. -/
theorem read_eq_ok [DecidableEq F] {values : ∀ f, Ty f} {entries : List (String × V)}
    (hnodup : (entries.map Prod.fst).Nodup)
    (hread : ∀ f v, (R.name f, v) ∈ entries → decode f v = .ok (values f))
    (hdefault : ∀ f, R.name f ∉ entries.map Prod.fst → R.default f = values f) :
    R.read decode duplicate entries =
      .ok (values, entries.filter (fun e => (R.fieldNamed e.1).isNone)) := by
  unfold read
  rw [visit_eq_ok hnodup fun f v hv => ⟨rfl, hread f v hv⟩]
  dsimp only
  rw [List.nil_append]
  congr 2
  funext f
  split_ifs with hf
  · rfl
  · exact hdefault f hf

/-- What the loop has read of a field stood there, or was in the slot before. -/
theorem mem_of_visit [DecidableEq F] {f : F} {x : Ty f} :
    ∀ {entries : List (String × V)} {slots slots' : ∀ f, Option (Ty f)}
      {others others' : List (String × V)},
      R.visit decode duplicate entries slots others = .ok (slots', others') →
      slots' f = some x → slots f = some x ∨ ∃ v, (R.name f, v) ∈ entries ∧ decode f v = .ok x
  | [], slots, slots', others, others', h, hx => by
      unfold visit at h
      cases h
      exact Or.inl hx
  | (key, v) :: entries, slots, slots', others, others', h, hx => by
      unfold visit at h
      cases hf : R.fieldNamed key with
      | none =>
          rw [hf] at h
          refine (mem_of_visit h hx).imp_right ?_
          rintro ⟨w, hw, hdecode⟩
          exact ⟨w, List.mem_cons_of_mem _ hw, hdecode⟩
      | some g =>
          have hname : R.name g = key := fieldNamed_eq_some_iff.mp hf
          rw [hf] at h
          dsimp only at h
          cases hslot : slots g with
          | some y =>
              rw [hslot] at h
              cases h
          | none =>
              cases hdecode : decode g v with
              | error e =>
                  rw [hslot, hdecode] at h
                  cases h
              | ok y =>
                  rw [hslot, hdecode] at h
                  rcases mem_of_visit h hx with hslots | ⟨w, hw, hdecode'⟩
                  · by_cases hfg : f = g
                    · subst hfg
                      rw [Function.update_self] at hslots
                      cases hslots
                      exact Or.inr ⟨v, hname ▸ List.mem_cons_self, hdecode⟩
                    · rw [Function.update_of_ne hfg] at hslots
                      exact Or.inl hslots
                  · exact Or.inr ⟨w, List.mem_cons_of_mem _ hw, hdecode'⟩

/-- A field that has been read has its default, or stood there. -/
theorem default_or_mem_of_read [DecidableEq F] {values : ∀ f, Ty f}
    {entries others : List (String × V)}
    (h : R.read decode duplicate entries = .ok (values, others)) (f : F) :
    values f = R.default f ∨ ∃ v, (R.name f, v) ∈ entries ∧ decode f v = .ok (values f) := by
  unfold read at h
  cases hvisit : R.visit decode duplicate entries (fun _ => none) [] with
  | error e =>
      rw [hvisit] at h
      cases h
  | ok out =>
      rw [hvisit] at h
      cases h
      cases hslot : out.1 f with
      | none => exact Or.inl (by simp [hslot])
      | some x =>
          refine Or.inr ?_
          rcases mem_of_visit hvisit hslot with hnone | hread
          · cases hnone
          · simpa [hslot] using hread

section RoundTrip

variable {values : ∀ f, Ty f}

theorem entryOf_eq_some_iff {f : F} {key : String} {v : V} :
    R.entryOf encode values f = some (key, v) ↔
      R.skip f (values f) = false ∧ R.name f = key ∧ encode f (values f) = v := by
  unfold entryOf
  cases R.skip f (values f) <;> simp

theorem keys_written_sublist : ∀ fs : List F,
    ((fs.filterMap (R.entryOf encode values)).map Prod.fst).Sublist (fs.map R.name)
  | [] => .slnil
  | f :: fs => by
      have ih := keys_written_sublist fs
      rw [List.filterMap_cons]
      cases hf : R.entryOf encode values f with
      | none => exact ih.cons _
      | some entry =>
          obtain ⟨key, v⟩ := entry
          rw [List.map_cons, List.map_cons, (entryOf_eq_some_iff.mp hf).2.1]
          exact ih.cons_cons key

theorem mem_keys_written_iff {key : String} :
    key ∈ (R.fields.filterMap (R.entryOf encode values)).map Prod.fst ↔
      ∃ f, R.skip f (values f) = false ∧ R.name f = key := by
  simp only [List.mem_map, List.mem_filterMap]
  constructor
  · rintro ⟨⟨_, v⟩, ⟨f, _, hf⟩, rfl⟩
    obtain ⟨hskip, hname, _⟩ := entryOf_eq_some_iff.mp hf
    exact ⟨f, hskip, hname⟩
  · rintro ⟨f, hskip, rfl⟩
    exact ⟨_, ⟨f, R.complete f, entryOf_eq_some_iff.mpr ⟨hskip, rfl, rfl⟩⟩, rfl⟩

/-- No key is written twice, if the catch-all map has no name of a field. -/
theorem nodup_keys_write {extras : List (String × V)} (hextras : (extras.map Prod.fst).Nodup)
    (hforeign : ∀ key ∈ extras.map Prod.fst, ∀ f, R.name f ≠ key) :
    ((R.write encode values extras).map Prod.fst).Nodup := by
  unfold write
  rw [List.map_append, List.nodup_append']
  refine ⟨(keys_written_sublist R.fields).nodup (R.nodup.map R.name_injective), hextras, ?_⟩
  intro key hwritten hother
  obtain ⟨f, _, hname⟩ := mem_keys_written_iff.mp hwritten
  exact hforeign key hother f hname

/-- **The round trip**, for a catch-all map without the names of the fields: what is
written is read back, whatever the order of its entries. -/
theorem read_of_perm_write [DecidableEq F] {extras entries : List (String × V)}
    (hentries : entries.Perm (R.write encode values extras)) (hextras : (extras.map Prod.fst).Nodup)
    (hforeign : ∀ key ∈ extras.map Prod.fst, ∀ f, R.name f ≠ key)
    (hdecode : ∀ f, R.skip f (values f) = false →
      decode f (encode f (values f)) = .ok (values f))
    (hdefault : ∀ f, R.skip f (values f) = true → R.default f = values f) :
    ∃ others, R.read decode duplicate entries = .ok (values, others) ∧ others.Perm extras := by
  have hkeys : (entries.map Prod.fst).Perm
      ((R.fields.filterMap (R.entryOf encode values)).map Prod.fst ++ extras.map Prod.fst) := by
    rw [← List.map_append]
    exact hentries.map Prod.fst
  have hnodup : (entries.map Prod.fst).Nodup :=
    (hentries.map Prod.fst).nodup_iff.mpr (nodup_keys_write hextras hforeign)
  have hread : ∀ f v, (R.name f, v) ∈ entries → decode f v = .ok (values f) := by
    intro f v hv
    rcases List.mem_append.mp (hentries.mem_iff.mp hv) with hwritten | hother
    · obtain ⟨g, _, hg⟩ := List.mem_filterMap.mp hwritten
      obtain ⟨hskip, hname, rfl⟩ := entryOf_eq_some_iff.mp hg
      obtain rfl := R.name_injective hname
      exact hdecode g hskip
    · exact absurd rfl (hforeign _ (List.mem_map.mpr ⟨_, hother, rfl⟩) f)
  have habsent : ∀ f, R.name f ∉ entries.map Prod.fst → R.default f = values f := by
    intro f hf
    refine hdefault f (Bool.of_not_eq_false fun hskip => hf ?_)
    exact hkeys.mem_iff.mpr (List.mem_append_left _ (mem_keys_written_iff.mpr ⟨f, hskip, rfl⟩))
  have hwritten : (R.fields.filterMap (R.entryOf encode values)).filter
      (fun e => (R.fieldNamed e.1).isNone) = [] := by
    rw [List.filter_eq_nil_iff]
    rintro ⟨key, v⟩ hv
    obtain ⟨f, _, hf⟩ := List.mem_filterMap.mp hv
    rw [fieldNamed_eq_some_iff.mpr (entryOf_eq_some_iff.mp hf).2.1]
    exact Bool.false_ne_true
  have hothers : extras.filter (fun e => (R.fieldNamed e.1).isNone) = extras := by
    rw [List.filter_eq_self]
    intro e he
    rw [fieldNamed_eq_none_iff.mpr (hforeign _ (List.mem_map.mpr ⟨e, he, rfl⟩))]
    rfl
  refine ⟨_, read_eq_ok hnodup hread habsent, (hentries.filter _).trans ?_⟩
  unfold write
  rw [List.filter_append, hwritten, hothers]
  exact .refl _

end RoundTrip

end RecordFormat

end Lib
end OrbitOpenEO
