import OrbitOpenEO.MapUpdate
import OrbitOpenEO.Lib.DelimitedCodes
import OrbitOpenEO.Lib.Numerals
import OrbitOpenEO.Lib.StableSort
import OrbitOpenEO.Lib.Utf8
import Mathlib.Algebra.Group.Nat.Defs
import Mathlib.Algebra.Ring.Int.Defs
import Mathlib.Data.Rat.Encodable

/-!
# Canonical texts of process graphs

`graph_hash_of` hashes the text of `canonical_json`: the fields of an object stand in the order of
their keys, and everything else is as `serde_json` writes it.  The text of a string is quoted and
escaped; the keys are put between quotation marks as they are.

The texts of numbers are a parameter.
-/

namespace OrbitOpenEO

open Lib

/-- A character in the text of a string. -/
def escapeChar (c : Char) : List Char :=
  if c = '"' then ['\\', '"']
  else if c = '\\' then ['\\', '\\']
  else if c = '\x08' then ['\\', 'b']
  else if c = '\x0c' then ['\\', 'f']
  else if c = '\n' then ['\\', 'n']
  else if c = '\r' then ['\\', 'r']
  else if c = '\t' then ['\\', 't']
  else if c.toNat < 32 then
    ['\\', 'u', '0', '0', Nat.digitChar (c.toNat / 16), Nat.digitChar (c.toNat % 16)]
  else [c]

/-- The text of a string. -/
def stringText (s : String) : List Char := '"' :: (s.toList.flatMap escapeChar ++ ['"'])

/-- A field of an object, given the text of its value. -/
def entryText (e : String × List Char) : List Char := '"' :: (e.1.toList ++ '"' :: ':' :: e.2)

/-- The fields in the order of their keys. -/
def sortEntries {β : Type} (es : List (String × β)) : List (String × β) :=
  es.mergeSort fun e f => decide (e.1 ≤ f.1)

section Canonical

variable (numText : Number → List Char)

mutual

/-- `canonical_json`. -/
def canonicalJson : Json → List Char
  | .obj fs =>
      '\x7b' :: (separated ',' ((sortEntries (canonicalFields fs)).map entryText) ++ ['\x7d'])
  | .arr xs => '[' :: (separated ',' (canonicalItems xs) ++ [']'])
  | .str s => stringText s
  | .num n => numText n
  | .bool true => "true".toList
  | .bool false => "false".toList
  | .null => "null".toList

/-- The texts of the items of an array. -/
def canonicalItems : List Json → List (List Char)
  | [] => []
  | x :: xs => canonicalJson x :: canonicalItems xs

/-- The texts of the values of an object. -/
def canonicalFields : List (String × Json) → List (String × List Char)
  | [] => []
  | (k, v) :: fs => (k, canonicalJson v) :: canonicalFields fs

end

/-- `fnv1a_64`. -/
def fnv1a64 (bytes : List UInt8) : UInt64 :=
  bytes.foldl (fun h b => (h ^^^ b.toUInt64) * 0x100000001b3) 0xcbf29ce484222325

example : fnv1a64 [97] = 0xaf63dc4c8601ec8c := by decide

/-- `ProvenanceRecord::graph_hash_of`. -/
def graphHashOf (graph : Json) : String :=
  let digits := Nat.toDigits 16 (fnv1a64 (utf8 (canonicalJson numText graph))).toNat
  String.ofList (List.replicate (16 - digits.length) '0' ++ digits)

theorem canonicalItems_eq (xs : List Json) :
    canonicalItems numText xs = xs.map (canonicalJson numText) := by
  induction xs with
  | nil =>
      rfl
  | cons x xs ih =>
      rw [canonicalItems, ih, List.map_cons]

theorem canonicalFields_eq (fs : List (String × Json)) :
    canonicalFields numText fs = fs.map fun f => (f.1, canonicalJson numText f.2) := by
  induction fs with
  | nil =>
      rfl
  | cons f fs ih =>
      rw [canonicalFields, ih, List.map_cons]

end Canonical

/-- The numbers that `serde_json` has. -/
def Number.Valid : Number → Prop
  | .posInt n => n < 2 ^ 64
  | .negInt n => -2 ^ 63 ≤ n ∧ n < 0
  | .float x => x.isFinite = true

/-- The values that `serde_json` has: an object has a key once. -/
inductive IsValue : Json → Prop
  | null : IsValue .null
  | bool (b : Bool) : IsValue (.bool b)
  | num {n : Number} : n.Valid → IsValue (.num n)
  | str (s : String) : IsValue (.str s)
  | arr {xs : List Json} : (∀ x ∈ xs, IsValue x) → IsValue (.arr xs)
  | obj {fs : List (String × Json)} : (fs.map Prod.fst).Nodup → (∀ f ∈ fs, IsValue f.2) →
      IsValue (.obj fs)

/-- Two values are equal, with objects compared as maps.  Numbers are equal if they are stored
alike, so that `0.0` and `-0.0`, which have different texts, are two values. -/
inductive EqualAsMaps : Json → Json → Prop
  | null : EqualAsMaps .null .null
  | bool (b : Bool) : EqualAsMaps (.bool b) (.bool b)
  | num (n : Number) : EqualAsMaps (.num n) (.num n)
  | str (s : String) : EqualAsMaps (.str s) (.str s)
  | arr {xs ys : List Json} : xs.length = ys.length →
      (∀ (i : Nat) (x y : Json), xs[i]? = some x → ys[i]? = some y → EqualAsMaps x y) →
      EqualAsMaps (.arr xs) (.arr ys)
  | obj {fs gs : List (String × Json)} : (∀ k, containsKey k fs = containsKey k gs) →
      (∀ (k : String) (v w : Json), fs.lookup k = some v → gs.lookup k = some w → EqualAsMaps v w) →
      EqualAsMaps (.obj fs) (.obj gs)

/-- The value has this key somewhere. -/
inductive HasKey (k : String) : Json → Prop
  | here {fs : List (String × Json)} {v : Json} : (k, v) ∈ fs → HasKey k (.obj fs)
  | item {xs : List Json} {x : Json} : x ∈ xs → HasKey k x → HasKey k (.arr xs)
  | field {fs : List (String × Json)} {f : String × Json} : f ∈ fs → HasKey k f.2 →
      HasKey k (.obj fs)

/-- No key has a quotation mark with a colon after it. -/
def KeysPlain (v : Json) : Prop := ∀ k, HasKey k v → ¬ ['"', ':'] <:+: k.toList

/-- An induction over the items and the fields of a value. -/
theorem Json.induction_mem {P : Json → Prop} (null : P .null) (bool : ∀ b, P (.bool b))
    (num : ∀ n, P (.num n)) (str : ∀ s, P (.str s))
    (arr : ∀ xs : List Json, (∀ x ∈ xs, P x) → P (.arr xs))
    (obj : ∀ fs : List (String × Json), (∀ f ∈ fs, P f.2) → P (.obj fs)) : ∀ v, P v
  | .null => null
  | .bool b => bool b
  | .num n => num n
  | .str s => str s
  | .arr xs => arr xs fun x hx => by
      have hlt := List.sizeOf_lt_of_mem hx
      exact Json.induction_mem null bool num str arr obj x
  | .obj fs => obj fs fun f hf => by
      have hlt := List.sizeOf_lt_of_mem hf
      have hlt' : sizeOf f.2 < sizeOf f := by
        cases f
        simp only [Prod.mk.sizeOf_spec]
        omega
      exact Json.induction_mem null bool num str arr obj f.2
termination_by v => sizeOf v

section Strings

/-- The first character of the text of a string, and what comes after it. -/
def readChar : List Char → Option (Char × List Char)
  | '\\' :: 'u' :: _ :: _ :: hi :: lo :: cs => some (Char.ofNat (numeral 16 [hi, lo]), cs)
  | '\\' :: 'b' :: cs => some ('\x08', cs)
  | '\\' :: 'f' :: cs => some ('\x0c', cs)
  | '\\' :: 'n' :: cs => some ('\n', cs)
  | '\\' :: 'r' :: cs => some ('\r', cs)
  | '\\' :: 't' :: cs => some ('\t', cs)
  | '\\' :: c :: cs => some (c, cs)
  | c :: cs => some (c, cs)
  | [] => none

/-- Reading undoes escaping. -/
theorem readChar_escapeChar (c : Char) (cs : List Char) :
    readChar (escapeChar c ++ cs) = some (c, cs) := by
  unfold escapeChar
  split_ifs with hquote hbackslash hb hf hn hr ht hcontrol
  · rw [hquote]
    rfl
  · rw [hbackslash]
    rfl
  · rw [hb]
    rfl
  · rw [hf]
    rfl
  · rw [hn]
    rfl
  · rw [hr]
    rfl
  · rw [ht]
    rfl
  · have hcode : ∀ n : Fin 32,
        numeral 16 [Nat.digitChar (n / 16), Nat.digitChar (n % 16)] = n := by decide
    have hnum := hcode ⟨c.toNat, hcontrol⟩
    dsimp only at hnum
    simp only [List.cons_append, List.nil_append, readChar, hnum, Char.ofNat_toNat]
  · rw [List.singleton_append]
    unfold readChar
    split <;> simp_all

/-- No character begins as the closing quotation mark does. -/
theorem escapeChar_eq_cons (c : Char) : ∃ d ds, escapeChar c = d :: ds ∧ d ≠ '"' := by
  unfold escapeChar
  split_ifs with hquote
  all_goals first | exact ⟨_, _, rfl, by decide⟩ | exact ⟨_, _, rfl, hquote⟩

theorem flatMap_escapeChar_cut {s t r r' : List Char}
    (h : s.flatMap escapeChar ++ '"' :: r = t.flatMap escapeChar ++ '"' :: r') :
    s = t ∧ r = r' := by
  have hstart : ∀ {c : Char} {s r r' : List Char},
      (c :: s).flatMap escapeChar ++ r ≠ '"' :: r' := by
    intro c s r r' h
    obtain ⟨d, ds, hd, hne⟩ := escapeChar_eq_cons c
    rw [List.flatMap_cons, hd] at h
    exact hne (List.head_eq_of_cons_eq h)
  induction s generalizing t with
  | nil =>
      cases t with
      | nil =>
          exact ⟨rfl, List.tail_eq_of_cons_eq h⟩
      | cons d t =>
          exact absurd h.symm hstart
  | cons c s ih =>
      cases t with
      | nil =>
          exact absurd h hstart
      | cons d t =>
          rw [List.flatMap_cons, List.flatMap_cons, List.append_assoc, List.append_assoc] at h
          have hread := congrArg readChar h
          rw [readChar_escapeChar, readChar_escapeChar, Option.some.injEq, Prod.mk.injEq] at hread
          obtain ⟨rfl, hrest⟩ := hread
          obtain ⟨rfl, hr⟩ := ih hrest
          exact ⟨rfl, hr⟩

/-- The text of a string shows where it ends, and says which string it is. -/
theorem stringText_cut {s t : String} {r r' : List Char}
    (h : stringText s ++ r = stringText t ++ r') : s = t ∧ r = r' := by
  unfold stringText at h
  rw [List.cons_append, List.cons_append, List.append_assoc, List.append_assoc,
    List.cons.injEq] at h
  obtain ⟨hs, hr⟩ := flatMap_escapeChar_cut h.2
  exact ⟨String.toList_inj.mp hs, hr⟩

end Strings

/-- The texts of the numbers are JSON numbers, and different numbers have different texts. -/
structure NumberTexts (numText : Number → List Char) : Prop where
  ne_nil : ∀ n, n.Valid → numText n ≠ []
  chars : ∀ n, n.Valid → ∀ c ∈ numText n, c ∈ "0123456789+-.eE".toList
  injective : ∀ m n, m.Valid → n.Valid → numText m = numText n → m = n

section Cut

variable {numText : Number → List Char}

/-- What comes after a value inside of another one. -/
def Closes (c : Char) : Prop := c = ',' ∨ c = ']' ∨ c = '\x7d'

instance : DecidablePred Closes := fun c =>
  inferInstanceAs (Decidable (c = ',' ∨ c = ']' ∨ c = '\x7d'))

/-- What kind of value begins with a character. -/
def charKind (c : Char) : Nat :=
  if c = '\x7b' then 0
  else if c = '[' then 1
  else if c = '"' then 2
  else if c = 't' then 3
  else if c = 'f' then 4
  else if c = 'n' then 5
  else 6

/-- The kind of a value. -/
def Json.kind : Json → Nat
  | .obj _ => 0
  | .arr _ => 1
  | .str _ => 2
  | .bool true => 3
  | .bool false => 4
  | .null => 5
  | .num _ => 6

/-- A text shows by its first character what kind of value it is. -/
theorem canonicalJson_eq_cons (hnum : NumberTexts numText) {v : Json} (hv : IsValue v) :
    ∃ c cs, canonicalJson numText v = c :: cs ∧ charKind c = v.kind ∧ ¬ Closes c := by
  cases hv with
  | null =>
      exact ⟨'n', "ull".toList, rfl, rfl, by decide⟩
  | bool b =>
      cases b with
      | true =>
          exact ⟨'t', "rue".toList, rfl, rfl, by decide⟩
      | false =>
          exact ⟨'f', "alse".toList, rfl, rfl, by decide⟩
  | str s =>
      exact ⟨_, _, rfl, rfl, by decide⟩
  | arr h =>
      exact ⟨_, _, rfl, rfl, by decide⟩
  | obj hkeys h =>
      exact ⟨_, _, rfl, rfl, by decide⟩
  | num hn =>
      obtain ⟨c, cs, hc⟩ := List.exists_cons_of_ne_nil (hnum.ne_nil _ hn)
      have hmem := hnum.chars _ hn c (by rw [hc]; exact List.mem_cons_self)
      have hall : ∀ c ∈ "0123456789+-.eE".toList, charKind c = 6 ∧ ¬ Closes c := by
        simp [charKind, Closes]
      obtain ⟨hkind, hcloses⟩ := hall c hmem
      exact ⟨c, cs, hc, hkind, hcloses⟩

/-- The texts of the values with plain keys. -/
def PlainText (numText : Number → List Char) (t : List Char) : Prop :=
  ∃ b, IsValue b ∧ KeysPlain b ∧ t = canonicalJson numText b

theorem keysPlain_item {xs : List Json} {x : Json} (h : KeysPlain (.arr xs)) (hx : x ∈ xs) :
    KeysPlain x := fun k hk => h k (.item hx hk)

theorem keysPlain_field {fs : List (String × Json)} {f : String × Json} (h : KeysPlain (.obj fs))
    (hf : f ∈ fs) : ¬ ['"', ':'] <:+: f.1.toList ∧ KeysPlain f.2 :=
  ⟨h f.1 (.here hf), fun k hk => h k (.field hf hk)⟩

/-- The texts of the fields of the objects with plain keys. -/
def PlainEntry (numText : Number → List Char) (t : List Char) : Prop :=
  ∃ (k : String) (u : List Char), ¬ ['"', ':'] <:+: k.toList ∧ PlainText numText u ∧
    t = entryText (k, u)

/-- A field shows where it ends if its value does. -/
theorem cutsFrom_entryText {k : String} {t : List Char} (hk : ¬ ['"', ':'] <:+: k.toList)
    (ht : CutsFrom Closes (PlainText numText) t) :
    CutsFrom Closes (PlainEntry numText) (entryText (k, t)) := by
  rintro _ r r' ⟨k', u, hk', hu, rfl⟩ hr hr' h
  simp only [entryText, List.cons_append, List.append_assoc, List.cons.injEq, true_and] at h
  obtain ⟨hkeys, hrest⟩ := cut_at_mark (by decide) hk hk' h
  obtain ⟨rfl, hend⟩ := ht u r r' hu hr hr' hrest
  obtain rfl := String.toList_inj.mp hkeys
  exact ⟨rfl, hend⟩

theorem mem_entries {fs : List (String × Json)} {t : List Char} :
    t ∈ (sortEntries (canonicalFields numText fs)).map entryText ↔
      ∃ f ∈ fs, t = entryText (f.1, canonicalJson numText f.2) := by
  simp only [sortEntries, canonicalFields_eq, List.mem_map, List.mem_mergeSort]
  constructor
  · rintro ⟨_, ⟨f, hf, rfl⟩, rfl⟩
    exact ⟨f, hf, rfl⟩
  · rintro ⟨f, hf, rfl⟩
    exact ⟨_, ⟨f, hf, rfl⟩, rfl⟩

/-- The first characters of two texts are those of their kinds. -/
theorem kind_eq_of_append (hnum : NumberTexts numText) {a b : Json} (ha : IsValue a)
    (hb : IsValue b) {r r' : List Char}
    (h : canonicalJson numText a ++ r = canonicalJson numText b ++ r') : b.kind = a.kind := by
  obtain ⟨c, cs, hc, hkind, -⟩ := canonicalJson_eq_cons hnum ha
  obtain ⟨d, ds, hd, hkind', -⟩ := canonicalJson_eq_cons hnum hb
  rw [hc, hd] at h
  rw [← hkind, ← hkind', List.head_eq_of_cons_eq h]

/-- The items of an array are read back in one way. -/
theorem items_cut (hnum : NumberTexts numText) {xs ys : List Json} {r r' : List Char}
    (hxs : ∀ x ∈ xs, IsValue x)
    (hcut : ∀ x ∈ xs, CutsFrom Closes (PlainText numText) (canonicalJson numText x))
    (hys : ∀ y ∈ ys, IsValue y ∧ KeysPlain y)
    (h : separated ',' (xs.map (canonicalJson numText)) ++ ']' :: r =
      separated ',' (ys.map (canonicalJson numText)) ++ ']' :: r') :
    xs.map (canonicalJson numText) = ys.map (canonicalJson numText) ∧ r = r' := by
  have hstart : ∀ {v : Json}, IsValue v → ∃ c cs, canonicalJson numText v = c :: cs ∧ c ≠ ']' := by
    intro v hv
    obtain ⟨c, cs, hc, -, hcloses⟩ := canonicalJson_eq_cons hnum hv
    exact ⟨c, cs, hc, fun heq => hcloses (.inr (.inl heq))⟩
  refine separated_cut (T := PlainText numText) (D := Closes) (.inl rfl) (.inr (.inl rfl))
    (by decide) ?_ ?_ ?_ h
  · intro t ht
    obtain ⟨x, hx, rfl⟩ := List.mem_map.mp ht
    exact hcut x hx
  · intro t ht
    obtain ⟨y, hy, rfl⟩ := List.mem_map.mp ht
    exact ⟨y, (hys y hy).1, (hys y hy).2, rfl⟩
  · rintro t (ht | ht)
    · obtain ⟨x, hx, rfl⟩ := List.mem_map.mp ht
      exact hstart (hxs x hx)
    · obtain ⟨y, hy, rfl⟩ := List.mem_map.mp ht
      exact hstart (hys y hy).1

/-- The fields of an object are read back in one way. -/
theorem entries_cut {fs gs : List (String × Json)} {r r' : List Char}
    (hfs : ∀ f ∈ fs, ¬ ['"', ':'] <:+: f.1.toList ∧
      CutsFrom Closes (PlainText numText) (canonicalJson numText f.2))
    (hgs : ∀ g ∈ gs, ¬ ['"', ':'] <:+: g.1.toList ∧ IsValue g.2 ∧ KeysPlain g.2)
    (h : separated ',' ((sortEntries (canonicalFields numText fs)).map entryText) ++ '\x7d' :: r =
      separated ',' ((sortEntries (canonicalFields numText gs)).map entryText) ++ '\x7d' :: r') :
    (sortEntries (canonicalFields numText fs)).map entryText =
        (sortEntries (canonicalFields numText gs)).map entryText ∧ r = r' := by
  refine separated_cut (T := PlainEntry numText) (D := Closes) (.inl rfl) (.inr (.inr rfl))
    (by decide) ?_ ?_ ?_ h
  · intro t ht
    obtain ⟨f, hf, rfl⟩ := mem_entries.mp ht
    exact cutsFrom_entryText (hfs f hf).1 (hfs f hf).2
  · intro t ht
    obtain ⟨g, hg, rfl⟩ := mem_entries.mp ht
    exact ⟨_, _, (hgs g hg).1, ⟨g.2, (hgs g hg).2.1, (hgs g hg).2.2, rfl⟩, rfl⟩
  · rintro t (ht | ht)
    · obtain ⟨f, hf, rfl⟩ := mem_entries.mp ht
      exact ⟨'"', _, rfl, by decide⟩
    · obtain ⟨g, hg, rfl⟩ := mem_entries.mp ht
      exact ⟨'"', _, rfl, by decide⟩

/-- The text of a value with plain keys ends where that of any other one does. -/
theorem cutsFrom_canonicalJson (hnum : NumberTexts numText) (a : Json) (ha : IsValue a)
    (hplain : KeysPlain a) :
    CutsFrom Closes (PlainText numText) (canonicalJson numText a) := by
  induction a using Json.induction_mem with
  | null =>
      rintro _ r r' ⟨b, hb, -, rfl⟩ - - h
      have hkind := kind_eq_of_append hnum ha hb h
      cases b with
      | null =>
          exact ⟨rfl, List.append_cancel_left h⟩
      | bool c =>
          cases c <;> cases hkind
      | _ =>
          cases hkind
  | bool c =>
      rintro _ r r' ⟨b, hb, -, rfl⟩ - - h
      have hkind := kind_eq_of_append hnum ha hb h
      cases b with
      | bool d =>
          have hcd : d = c := by
            cases c <;> cases d <;> first | rfl | cases hkind
          subst hcd
          exact ⟨rfl, List.append_cancel_left h⟩
      | _ =>
          cases c <;> cases hkind
  | num n =>
      rintro _ r r' ⟨b, hb, -, rfl⟩ hr hr' h
      have hkind := kind_eq_of_append hnum ha hb h
      cases b with
      | num m =>
          cases ha with
          | num hn =>
              cases hb with
              | num hm =>
                  have hplain : ∀ {n : Number}, n.Valid → ∀ c ∈ numText n, ¬ Closes c := by
                    intro n hn c hc
                    have hall : ∀ c ∈ "0123456789+-.eE".toList, ¬ Closes c := by simp [Closes]
                    exact hall c (hnum.chars n hn c hc)
                  exact cutsFrom_of_no_delimiter (T := fun t => t = numText m) (hplain hn)
                    (fun t ht => ht ▸ hplain hm) _ r r' rfl hr hr' h
      | bool d =>
          cases d <;> cases hkind
      | _ =>
          cases hkind
  | str s =>
      rintro _ r r' ⟨b, hb, -, rfl⟩ - - h
      have hkind := kind_eq_of_append hnum ha hb h
      cases b with
      | str t =>
          obtain ⟨rfl, hend⟩ := stringText_cut h
          exact ⟨rfl, hend⟩
      | bool d =>
          cases d <;> cases hkind
      | _ =>
          cases hkind
  | arr xs ih =>
      rintro _ r r' ⟨b, hb, hplain', rfl⟩ - - h
      have hkind := kind_eq_of_append hnum ha hb h
      cases b with
      | arr ys =>
          cases ha with
          | arr hxs =>
              cases hb with
              | arr hys =>
                  simp only [canonicalJson, canonicalItems_eq, List.cons_append, List.append_assoc,
                    List.cons.injEq, true_and, List.nil_append] at h ⊢
                  obtain ⟨hitems, hend⟩ := items_cut hnum hxs
                    (fun x hx => ih x hx (hxs x hx) (keysPlain_item hplain hx))
                    (fun y hy => ⟨hys y hy, keysPlain_item hplain' hy⟩) h
                  exact ⟨by rw [hitems], hend⟩
      | bool d =>
          cases d <;> cases hkind
      | _ =>
          cases hkind
  | obj fs ih =>
      rintro _ r r' ⟨b, hb, hplain', rfl⟩ - - h
      have hkind := kind_eq_of_append hnum ha hb h
      cases b with
      | obj gs =>
          cases ha with
          | obj hkeys hfs =>
              cases hb with
              | obj hkeys' hgs =>
                  simp only [canonicalJson, List.cons_append, List.append_assoc,
                    List.cons.injEq, true_and, List.nil_append] at h ⊢
                  obtain ⟨hentries, hend⟩ := entries_cut
                    (fun f hf => ⟨(keysPlain_field hplain hf).1,
                      ih f hf (hfs f hf) (keysPlain_field hplain hf).2⟩)
                    (fun g hg => ⟨(keysPlain_field hplain' hg).1, hgs g hg,
                      (keysPlain_field hplain' hg).2⟩) h
                  exact ⟨by rw [hentries], hend⟩
      | bool d =>
          cases d <;> cases hkind
      | _ =>
          cases hkind

/-- A field is read off its text. -/
theorem entryText_inj {k k' : String} {t t' : List Char} (hk : ¬ ['"', ':'] <:+: k.toList)
    (hk' : ¬ ['"', ':'] <:+: k'.toList) (h : entryText (k, t) = entryText (k', t')) :
    k = k' ∧ t = t' := by
  unfold entryText at h
  rw [List.cons.injEq] at h
  obtain ⟨hkeys, ht⟩ := cut_at_mark (by decide) hk hk' h.2
  exact ⟨String.toList_inj.mp hkeys, ht⟩

/-- If two objects have the same texts of fields, a field of one has its like in the other. -/
theorem exists_entry {fs gs : List (String × Json)}
    (h : (sortEntries (canonicalFields numText fs)).map entryText =
      (sortEntries (canonicalFields numText gs)).map entryText)
    (hfs : ∀ f ∈ fs, ¬ ['"', ':'] <:+: f.1.toList)
    (hgs : ∀ g ∈ gs, ¬ ['"', ':'] <:+: g.1.toList) :
    ∀ f ∈ fs, ∃ g ∈ gs, g.1 = f.1 ∧
      canonicalJson numText g.2 = canonicalJson numText f.2 := by
  intro f hf
  have hmem : entryText (f.1, canonicalJson numText f.2) ∈
      (sortEntries (canonicalFields numText gs)).map entryText := by
    rw [← h]
    exact mem_entries.mpr ⟨f, hf, rfl⟩
  obtain ⟨g, hg, htext⟩ := mem_entries.mp hmem
  obtain ⟨hkey, hvalue⟩ := entryText_inj (hfs f hf) (hgs g hg) htext
  exact ⟨g, hg, hkey.symm, hvalue.symm⟩

theorem containsKey_iff {β : Type} {k : String} {fs : List (String × β)} :
    containsKey k fs = true ↔ k ∈ fs.map Prod.fst := by
  rw [containsKey, Option.isSome_iff_exists, BTreeMap.lookup_isSome_iff]

/-- Values with plain keys and one text are equal. -/
theorem equalAsMaps_of_canonicalJson (hnum : NumberTexts numText) (a : Json) (ha : IsValue a)
    (hplain : KeysPlain a) {b : Json} (hb : IsValue b) (hplain' : KeysPlain b)
    (h : canonicalJson numText a = canonicalJson numText b) : EqualAsMaps a b := by
  have hkind : b.kind = a.kind :=
    kind_eq_of_append hnum ha hb (congrArg (fun t => t ++ ([] : List Char)) h)
  induction a using Json.induction_mem generalizing b with
  | null =>
      cases b with
      | null =>
          exact .null
      | bool d =>
          cases d <;> cases hkind
      | _ =>
          cases hkind
  | bool c =>
      cases b with
      | bool d =>
          have hcd : c = d := by
            cases c <;> cases d <;> first | rfl | cases hkind
          exact hcd ▸ .bool c
      | _ =>
          cases c <;> cases hkind
  | num n =>
      cases b with
      | num m =>
          cases ha with
          | num hn =>
              cases hb with
              | num hm =>
                  exact hnum.injective n m hn hm h ▸ .num n
      | bool d =>
          cases d <;> cases hkind
      | _ =>
          cases hkind
  | str s =>
      cases b with
      | str t =>
          have hst := (stringText_cut (congrArg (fun t => t ++ ([] : List Char)) h)).1
          exact hst ▸ .str s
      | bool d =>
          cases d <;> cases hkind
      | _ =>
          cases hkind
  | arr xs ih =>
      cases b with
      | arr ys =>
          cases ha with
          | arr hxs =>
              cases hb with
              | arr hys =>
                  simp only [canonicalJson, canonicalItems_eq, List.cons.injEq, true_and] at h
                  obtain ⟨hitems, -⟩ := items_cut hnum hxs
                    (fun x hx => cutsFrom_canonicalJson hnum x (hxs x hx)
                      (keysPlain_item hplain hx))
                    (fun y hy => ⟨hys y hy, keysPlain_item hplain' hy⟩) h
                  have hlen := congrArg List.length hitems
                  rw [List.length_map, List.length_map] at hlen
                  refine .arr hlen fun i x y hx hy => ?_
                  have htext := congrArg (fun ts => ts[i]?) hitems
                  simp only [List.getElem?_map, hx, hy, Option.map_some, Option.some.injEq] at htext
                  have hx' := List.mem_of_getElem? hx
                  have hy' := List.mem_of_getElem? hy
                  exact ih x hx' (hxs x hx') (keysPlain_item hplain hx') (hys y hy')
                    (keysPlain_item hplain' hy') htext
                    (kind_eq_of_append hnum (hxs x hx') (hys y hy')
                      (congrArg (fun t => t ++ ([] : List Char)) htext))
      | bool d =>
          cases d <;> cases hkind
      | _ =>
          cases hkind
  | obj fs ih =>
      cases b with
      | obj gs =>
          cases ha with
          | obj hkeys hfs =>
              cases hb with
              | obj hkeys' hgs =>
                  simp only [canonicalJson, List.cons.injEq, true_and] at h
                  obtain ⟨hentries, -⟩ := entries_cut
                    (fun f hf => ⟨(keysPlain_field hplain hf).1,
                      cutsFrom_canonicalJson hnum f.2 (hfs f hf) (keysPlain_field hplain hf).2⟩)
                    (fun g hg => ⟨(keysPlain_field hplain' hg).1, hgs g hg,
                      (keysPlain_field hplain' hg).2⟩) h
                  have hfound := exists_entry hentries (fun f hf => (keysPlain_field hplain hf).1)
                    fun g hg => (keysPlain_field hplain' hg).1
                  have hfound' := exists_entry hentries.symm
                    (fun g hg => (keysPlain_field hplain' hg).1)
                    fun f hf => (keysPlain_field hplain hf).1
                  refine .obj (fun k => ?_) fun k v w hv hw => ?_
                  · rw [Bool.eq_iff_iff, containsKey_iff, containsKey_iff]
                    constructor
                    · intro hk
                      obtain ⟨f, hf, rfl⟩ := List.mem_map.mp hk
                      obtain ⟨g, hg, hkey, -⟩ := hfound f hf
                      exact hkey ▸ List.mem_map_of_mem hg
                    · intro hk
                      obtain ⟨g, hg, rfl⟩ := List.mem_map.mp hk
                      obtain ⟨f, hf, hkey, -⟩ := hfound' g hg
                      exact hkey ▸ List.mem_map_of_mem hf
                  · have hf := mem_of_lookup_eq_some hv
                    obtain ⟨⟨k', w'⟩, hg, hkey, htext⟩ := hfound _ hf
                    dsimp only at hkey htext
                    subst hkey
                    rw [(BTreeMap.lookup_eq_some_iff_mem hkeys').mpr hg, Option.some.injEq] at hw
                    subst hw
                    exact ih _ hf (hfs _ hf) (keysPlain_field hplain hf).2 (hgs _ hg)
                      (keysPlain_field hplain' hg).2 htext.symm
                      (kind_eq_of_append hnum (hfs _ hf) (hgs _ hg)
                        (congrArg (fun t => t ++ ([] : List Char)) htext.symm))
      | bool d =>
          cases d <;> cases hkind
      | _ =>
          cases hkind

end Cut

section Order

variable {numText : Number → List Char}

theorem pairwise_sortEntries {β : Type} (es : List (String × β)) :
    (sortEntries es).Pairwise fun e f => e.1 ≤ f.1 := by
  have hsorted := List.pairwise_mergeSort (byKey_trans fun e : String × β => e.1)
    (byKey_total fun e : String × β => e.1) es
  exact hsorted.imp fun h => of_decide_eq_true h

/-- The order in which different keys come does not matter to the sorted fields. -/
theorem sortEntries_eq_of_perm {β : Type} {es es' : List (String × β)} (hperm : es.Perm es')
    (hnd : (es.map Prod.fst).Nodup) : sortEntries es = sortEntries es' := by
  refine mergeSort_eq_of_perm (byKey_trans fun e : String × β => e.1)
    (byKey_total fun e : String × β => e.1) hperm fun e he f hf hef hfe => ?_
  have hkey : e.1 = f.1 := le_antisymm (of_decide_eq_true hef) (of_decide_eq_true hfe)
  exact List.inj_on_of_nodup_map hnd he hf hkey

/-- Objects with the same keys have a field each for a key. -/
theorem exists_like {fs gs : List (String × Json)} (hnd : (fs.map Prod.fst).Nodup)
    (hnd' : (gs.map Prod.fst).Nodup) (hkeys : ∀ k, containsKey k fs = containsKey k gs) :
    ∀ f ∈ fs, ∃ g ∈ gs, g.1 = f.1 ∧ fs.lookup f.1 = some f.2 ∧ gs.lookup f.1 = some g.2 := by
  intro f hf
  have hkey : f.1 ∈ gs.map Prod.fst := by
    rw [← containsKey_iff, ← hkeys, containsKey_iff]
    exact List.mem_map_of_mem hf
  obtain ⟨g, hg, heq⟩ := List.mem_map.mp hkey
  exact ⟨g, hg, heq, (BTreeMap.lookup_eq_some_iff_mem hnd).mpr hf,
    heq ▸ (BTreeMap.lookup_eq_some_iff_mem hnd').mpr hg⟩

/-- Equal values have one text. -/
theorem canonicalJson_congr {a b : Json} (h : EqualAsMaps a b) (ha : IsValue a) (hb : IsValue b) :
    canonicalJson numText a = canonicalJson numText b := by
  induction h with
  | null =>
      rfl
  | bool b =>
      rfl
  | num n =>
      rfl
  | str s =>
      rfl
  | @arr xs ys hlen h ih =>
      cases ha with
      | arr hxs =>
          cases hb with
          | arr hys =>
              rw [canonicalJson, canonicalJson, canonicalItems_eq, canonicalItems_eq]
              have hitems : xs.map (canonicalJson numText) = ys.map (canonicalJson numText) := by
                refine List.ext_getElem (by rw [List.length_map, List.length_map, hlen])
                  fun i hi hi' => ?_
                rw [List.length_map] at hi hi'
                rw [List.getElem_map, List.getElem_map]
                exact ih i _ _ (List.getElem?_eq_getElem hi) (List.getElem?_eq_getElem hi')
                  (hxs _ (List.getElem_mem hi)) (hys _ (List.getElem_mem hi'))
              rw [hitems]
  | @obj fs gs hkeys h ih =>
      cases ha with
      | obj hnd hfs =>
          cases hb with
          | obj hnd' hgs =>
              have htexts : ∀ {fs : List (String × Json)}, (fs.map Prod.fst).Nodup →
                  ((fs.map fun f => (f.1, canonicalJson numText f.2)).map Prod.fst).Nodup := by
                intro fs hnd
                rw [List.map_map]
                exact hnd
              have hmem : ∀ e, (e ∈ fs.map fun f => (f.1, canonicalJson numText f.2)) ↔
                  e ∈ gs.map fun g => (g.1, canonicalJson numText g.2) := by
                intro e
                rw [List.mem_map, List.mem_map]
                constructor
                · rintro ⟨f, hf, rfl⟩
                  obtain ⟨g, hg, hkey, hv, hw⟩ := exists_like hnd hnd' hkeys f hf
                  exact ⟨g, hg, by rw [hkey, ih f.1 f.2 g.2 hv hw (hfs f hf) (hgs g hg)]⟩
                · rintro ⟨g, hg, rfl⟩
                  obtain ⟨f, hf, hkey, hw, hv⟩ :=
                    exists_like hnd' hnd (fun k => (hkeys k).symm) g hg
                  exact ⟨f, hf, by rw [hkey, ih g.1 f.2 g.2 hv hw (hfs f hf) (hgs g hg)]⟩
              rw [canonicalJson, canonicalJson, canonicalFields_eq, canonicalFields_eq,
                sortEntries_eq_of_perm ((List.perm_ext_iff_of_nodup (htexts hnd).of_map
                  (htexts hnd').of_map).mpr hmem) (htexts hnd)]

end Order

section Collision

variable {numText : Number → List Char}

/-- The key whose text, between quotation marks, is a field and the beginning of the next. -/
def mergedKey (k : String) (t : List Char) (k' : String) : String :=
  String.ofList (k.toList ++ '"' :: ':' :: (t ++ ',' :: '"' :: k'.toList))

theorem entryText_mergedKey (k : String) (t : List Char) (k' : String) (u : List Char) :
    entryText (mergedKey k t k', u) = entryText (k, t) ++ ',' :: entryText (k', u) := by
  simp [entryText, mergedKey]

theorem separated_merge {α : Type} (sep : α) (ts : List (List α)) (t u : List α) :
    separated sep (ts ++ [t ++ sep :: u]) = separated sep (ts ++ [t, u]) := by
  cases ts with
  | nil =>
      simp [separated]
  | cons t' ts =>
      simp [separated]

theorem le_mergedKey (k : String) (t : List Char) (k' : String) : k ≤ mergedKey k t k' := by
  rw [String.le_iff_toList_le, mergedKey, String.toList_ofList, ← not_lt]
  exact List.IsPrefix.le (α := Char) (List.prefix_append _ _)

theorem mergedKey_ne (k : String) (t : List Char) (k' : String) : mergedKey k t k' ≠ k := by
  intro h
  have hlen := congrArg (fun s => s.toList.length) h
  simp [mergedKey] at hlen

/-- The sorted fields of an object with two of them or more end with two fields. -/
theorem exists_last_two {β : Type} {es : List β} (h : 2 ≤ es.length) :
    ∃ init e f, es = init ++ [e, f] := by
  rcases List.eq_nil_or_concat es with rfl | ⟨es', f, rfl⟩
  · exact absurd h (Nat.not_le_of_lt Nat.zero_lt_two)
  · rw [List.concat_eq_append, List.length_append, List.length_singleton] at h
    rcases List.eq_nil_or_concat es' with rfl | ⟨init, e, rfl⟩
    · exact absurd h (Nat.not_le_of_lt Nat.one_lt_two)
    · exact ⟨init, e, f, by simp⟩

/-- Fields that are in order stay as they are. -/
theorem canonicalJson_of_sorted {fs : List (String × Json)}
    (h : fs.Pairwise fun e f => e.1 ≤ f.1) :
    canonicalJson numText (.obj fs) =
      '\x7b' :: (separated ',' (fs.map fun f => entryText (f.1, canonicalJson numText f.2)) ++
        ['\x7d']) := by
  have hsorted : (fs.map fun f => (f.1, canonicalJson numText f.2)).Pairwise
      fun e f => decide (e.1 ≤ f.1) = true :=
    List.pairwise_map.mpr (h.imp fun h => decide_eq_true h)
  rw [canonicalJson, canonicalFields_eq, sortEntries, List.mergeSort_of_pairwise hsorted,
    List.map_map]
  rfl

/-- An object has the text of its sorted fields. -/
theorem canonicalJson_sortEntries (fs : List (String × Json)) (hnd : (fs.map Prod.fst).Nodup) :
    canonicalJson numText (.obj fs) = canonicalJson numText (.obj (sortEntries fs)) := by
  have hperm : (sortEntries fs).Perm fs := List.mergeSort_perm _ _
  rw [canonicalJson, canonicalJson, canonicalFields_eq, canonicalFields_eq,
    sortEntries_eq_of_perm (hperm.symm.map _) (by rw [List.map_map]; exact hnd)]

/-- An object with two fields or more has its text in common with another value. -/
theorem exists_collision {fs : List (String × Json)} (h : IsValue (.obj fs))
    (hlen : 2 ≤ fs.length) :
    ∃ b, IsValue b ∧ canonicalJson numText (.obj fs) = canonicalJson numText b ∧
      ¬ EqualAsMaps (.obj fs) b := by
  cases h with
  | obj hnd hfs =>
      have hperm : (sortEntries fs).Perm fs := List.mergeSort_perm _ _
      obtain ⟨init, ⟨k, v⟩, ⟨k', w⟩, hsorted⟩ :=
        exists_last_two (by rw [hperm.length_eq]; exact hlen : 2 ≤ (sortEntries fs).length)
      have horder := pairwise_sortEntries fs
      have hkeys := (hperm.map Prod.fst).nodup_iff.mpr hnd
      have hvalues : ∀ f ∈ sortEntries fs, IsValue f.2 := fun f hf => hfs f (hperm.mem_iff.mp hf)
      rw [hsorted] at horder hkeys hvalues
      have hmerged := le_mergedKey k (canonicalJson numText v) k'
      have hne := mergedKey_ne k (canonicalJson numText v) k'
      generalize hm : mergedKey k (canonicalJson numText v) k' = m at hmerged hne
      rw [List.pairwise_append] at horder
      obtain ⟨hinit, -, hbetween⟩ := horder
      have hbefore : ∀ e ∈ init, e.1 ≤ k := fun e he => hbetween e he (k, v) List.mem_cons_self
      rw [List.map_append, List.nodup_append] at hkeys
      obtain ⟨hinitKeys, -, hapart⟩ := hkeys
      have hk : k ∉ init.map Prod.fst := fun hk => hapart k hk k List.mem_cons_self rfl
      have hmkey : m ∉ init.map Prod.fst := by
        intro hmem
        obtain ⟨e, he, rfl⟩ := List.mem_map.mp hmem
        exact hne (le_antisymm (hbefore e he) hmerged)
      refine ⟨.obj (init ++ [(m, w)]), .obj ?_ ?_, ?_, ?_⟩
      · rw [List.map_append, List.nodup_append]
        refine ⟨hinitKeys, List.nodup_singleton _, fun x hx y hy => ?_⟩
        rintro rfl
        rw [List.map_singleton, List.mem_singleton] at hy
        have hym : x = m := hy
        exact hmkey (hym ▸ hx)
      · intro f hf
        rcases List.mem_append.mp hf with hf | hf
        · exact hvalues f (List.mem_append_left _ hf)
        · rw [List.mem_singleton.mp hf]
          exact hvalues (k', w) (by simp)
      · have hordered : (init ++ [(m, w)]).Pairwise fun e f => e.1 ≤ f.1 := by
          rw [List.pairwise_append]
          refine ⟨hinit, List.pairwise_singleton _ _, fun e he f hf => ?_⟩
          rw [List.mem_singleton.mp hf]
          exact le_trans (hbefore e he) hmerged
        rw [canonicalJson_sortEntries fs hnd, canonicalJson_of_sorted (pairwise_sortEntries fs),
          canonicalJson_of_sorted hordered, hsorted, List.map_append, List.map_append,
          List.map_singleton, ← hm, entryText_mergedKey, separated_merge]
        rfl
      · intro hequal
        cases hequal with
        | obj hsame _ =>
            have hhere : containsKey k fs = true := by
              rw [containsKey_iff, ← (hperm.map Prod.fst).mem_iff, hsorted]
              simp
            rw [hsame k, containsKey_iff, List.map_append, List.mem_append] at hhere
            rcases hhere with hmem | hmem
            · exact hk hmem
            · exact hne (List.mem_singleton.mp hmem).symm

end Collision

/-- Graphs that differ in the order of their keys have one hash. -/
theorem graphHashOf_congr {numText : Number → List Char} {a b : Json} (h : EqualAsMaps a b)
    (ha : IsValue a) (hb : IsValue b) : graphHashOf numText a = graphHashOf numText b := by
  rw [graphHashOf, graphHashOf, canonicalJson_congr h ha hb]

/-- Equal values always have one text; different values have different texts as long as no key
has a quotation mark with a colon after it; and every object with two fields or more shares its
text with a value that has such a key. -/
theorem canonicalJson_identifies {numText : Number → List Char} (hnum : NumberTexts numText) :
    (∀ a b, IsValue a → IsValue b → EqualAsMaps a b →
      canonicalJson numText a = canonicalJson numText b) ∧
    (∀ a b, IsValue a → IsValue b → KeysPlain a → KeysPlain b →
      (canonicalJson numText a = canonicalJson numText b ↔ EqualAsMaps a b)) ∧
    ∀ fs, IsValue (.obj fs) → 2 ≤ fs.length →
      ∃ b, IsValue b ∧ canonicalJson numText (.obj fs) = canonicalJson numText b ∧
        ¬ EqualAsMaps (.obj fs) b :=
  ⟨fun _ _ ha hb h => canonicalJson_congr h ha hb,
    fun a _ ha hb hplain hplain' =>
      ⟨equalAsMaps_of_canonicalJson hnum a ha hplain hb hplain',
        fun h => canonicalJson_congr h ha hb⟩,
    fun _ h hlen => exists_collision h hlen⟩

section Texts

/-- The decimals of integers; another number gets its place in an enumeration. -/
def integerTexts : Number → List Char
  | .posInt n => Nat.toDigits 10 n
  | .negInt n => '-' :: Nat.toDigits 10 n.natAbs
  | .float (.finite q) => '.' :: Nat.toDigits 10 (Encodable.encode q)
  | .float _ => "-0.0".toList

theorem toDigits_inj {m n : Nat} (h : Nat.toDigits 10 m = Nat.toDigits 10 n) : m = n := by
  rw [← numeral_toDigits m, h, numeral_toDigits]

theorem isDigit_of_mem_digits {n : Nat} {c : Char} (h : c ∈ Nat.toDigits 10 n) :
    c.isDigit = true := Nat.isDigit_of_mem_toDigits (by decide) (by decide) h

theorem numberTexts_integerTexts : NumberTexts integerTexts where
  ne_nil n _ := by
    cases n with
    | posInt n =>
        exact Nat.toDigits_ne_nil
    | negInt n =>
        exact List.cons_ne_nil _ _
    | float x =>
        cases x <;> exact List.cons_ne_nil _ _
  chars n _ c hc := by
    have hdigit : ∀ {n : Nat}, c ∈ Nat.toDigits 10 n → c ∈ "0123456789+-.eE".toList := by
      intro n hn
      have hc := isDigit_of_mem_digits hn
      have hcode : c.toNat - 48 < 10 ∧ 48 ≤ c.toNat := by
        simp only [Char.isDigit, Bool.and_eq_true, decide_eq_true_eq, UInt32.le_iff_toNat_le] at hc
        have hlow : 48 ≤ c.toNat := hc.1
        have hhigh : c.toNat ≤ 57 := hc.2
        omega
      have hall : ∀ d : Fin 10, Char.ofNat (d + 48) ∈ "0123456789+-.eE".toList := by decide
      have hmem := hall ⟨c.toNat - 48, hcode.1⟩
      rwa [Fin.val_mk, Nat.sub_add_cancel hcode.2, Char.ofNat_toNat] at hmem
    have hcons : ∀ {d : Char} {n : Nat}, d ∈ "0123456789+-.eE".toList →
        c ∈ d :: Nat.toDigits 10 n → c ∈ "0123456789+-.eE".toList := by
      intro d n hd hc
      rcases List.mem_cons.mp hc with rfl | hc
      · exact hd
      · exact hdigit hc
    have hzero : ∀ c ∈ "-0.0".toList, c ∈ "0123456789+-.eE".toList := by simp
    cases n with
    | posInt n =>
        exact hdigit hc
    | negInt n =>
        exact hcons (by decide) hc
    | float x =>
        cases x with
        | finite q =>
            exact hcons (by decide) hc
        | _ =>
            exact hzero c hc
  injective m n hm hn h := by
    have hno : ∀ {c : Char} {k : Nat} {t : List Char}, c.isDigit = false → c ∈ t →
        Nat.toDigits 10 k ≠ t := by
      intro c k t hc hmem heq
      have hdigit := isDigit_of_mem_digits (heq ▸ hmem : c ∈ Nat.toDigits 10 k)
      rw [hc] at hdigit
      cases hdigit
    have hfloat : ∀ {x : F64}, x.isFinite = true → x = .negZero ∨ ∃ q, x = .finite q := by
      intro x hx
      cases x with
      | finite q =>
          exact .inr ⟨q, rfl⟩
      | negZero =>
          exact .inl rfl
      | _ =>
          cases hx
    cases m with
    | posInt m =>
        cases n with
        | posInt n =>
            exact congrArg Number.posInt (toDigits_inj h)
        | negInt n =>
            exact absurd h (hno (c := '-') rfl List.mem_cons_self)
        | float x =>
            rcases hfloat hn with rfl | ⟨q, rfl⟩
            · exact absurd h (hno (c := '-') rfl List.mem_cons_self)
            · exact absurd h (hno (c := '.') rfl List.mem_cons_self)
    | negInt m =>
        cases n with
        | posInt n =>
            exact absurd h.symm (hno (c := '-') rfl List.mem_cons_self)
        | negInt n =>
            have habs := toDigits_inj (List.tail_eq_of_cons_eq h)
            have hneg : m < 0 := hm.2
            have hneg' : n < 0 := hn.2
            exact congrArg Number.negInt (by omega)
        | float x =>
            rcases hfloat hn with rfl | ⟨q, rfl⟩
            · exact absurd (List.tail_eq_of_cons_eq h)
                (hno (c := '.') rfl (List.mem_cons_of_mem _ List.mem_cons_self))
            · exact absurd (List.head_eq_of_cons_eq h) (by decide)
    | float x =>
        rcases hfloat hm with rfl | ⟨q, rfl⟩
        · cases n with
          | posInt n =>
              exact absurd h.symm (hno (c := '-') rfl List.mem_cons_self)
          | negInt n =>
              exact absurd (List.tail_eq_of_cons_eq h).symm
                (hno (c := '.') rfl (List.mem_cons_of_mem _ List.mem_cons_self))
          | float y =>
              rcases hfloat hn with rfl | ⟨q, rfl⟩
              · rfl
              · exact absurd (List.head_eq_of_cons_eq h) (by decide)
        · cases n with
          | posInt n =>
              exact absurd h.symm (hno (c := '.') rfl List.mem_cons_self)
          | negInt n =>
              exact absurd (List.head_eq_of_cons_eq h) (by decide)
          | float y =>
              rcases hfloat hn with rfl | ⟨p, rfl⟩
              · exact absurd (List.head_eq_of_cons_eq h) (by decide)
              · rw [Encodable.encode_injective (toDigits_inj (List.tail_eq_of_cons_eq h))]

/-- An object with a one under one key and a two under another. -/
def oneAndTwo (k k' : String) : Json := .obj [(k, .num (.posInt 1)), (k', .num (.posInt 2))]

theorem isValue_oneAndTwo {k k' : String} (h : k ≠ k') : IsValue (oneAndTwo k k') := by
  refine .obj (by simpa using h) fun f hf => ?_
  have hpair : f = (k, .num (.posInt 1)) ∨ f = (k', .num (.posInt 2)) := by simpa using hf
  rcases hpair with rfl | rfl
  · exact .num (show 1 < 2 ^ 64 by decide)
  · exact .num (show 2 < 2 ^ 64 by decide)

theorem canonicalJson_identifies_fields :
    ∃ b, IsValue b ∧ canonicalJson integerTexts (oneAndTwo "a" "b") = canonicalJson integerTexts b ∧
      ¬ EqualAsMaps (oneAndTwo "a" "b") b :=
  (canonicalJson_identifies numberTexts_integerTexts).2.2 _ (isValue_oneAndTwo (by decide))
    (by decide)

/-- One key that holds what looks like a field and the beginning of another one. -/
def lookalike : Json := .obj [("a\":1,\"b", .num (.posInt 2))]

/-- Two different graphs with one canonical text. -/
theorem lookalike_collides :
    canonicalJson integerTexts (oneAndTwo "a" "b") = canonicalJson integerTexts lookalike ∧
      IsValue (oneAndTwo "a" "b") ∧ IsValue lookalike ∧
      ¬ EqualAsMaps (oneAndTwo "a" "b") lookalike := by
  refine ⟨?_, isValue_oneAndTwo (by decide), .obj (List.nodup_singleton _) ?_, ?_⟩
  · unfold oneAndTwo lookalike
    rw [canonicalJson_of_sorted (by decide), canonicalJson_of_sorted (by decide)]
    decide
  · intro f hf
    rw [List.mem_singleton.mp hf]
    exact .num (show 2 < 2 ^ 64 by decide)
  · intro h
    cases h with
    | obj hkeys _ =>
        exact absurd (hkeys "a") (by decide)

end Texts

end OrbitOpenEO
