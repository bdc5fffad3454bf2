import Mathlib.Tactic.Common
import Mathlib.Algebra.GroupWithZero.Nat
import Mathlib.Data.List.SplitLengths

/-!
# The text of SQL statements

A reader of two forms of statements, `CREATE TABLE IF NOT EXISTS` and `INSERT INTO … VALUES`
with placeholders, from the characters on.  Names stand in quotation marks, of which a pair
stands for one; keywords are read without regard to case.  The reader takes a whole text: what
it reads is one statement, and nothing follows it.

* `Scans m cs ts m'`: from the mode `m` the characters `cs` give the tokens `ts`.
* `Reads item enc`: `item` reads back what `enc` writes, whatever follows.
* `fill` deals out bound values to the placeholders.
-/

namespace OrbitOpenEO
namespace Lib
namespace SqlText

/-- The tokens of a statement. -/
inductive Token where
  | word (w : List Char)
  | name (n : String)
  | placeholder
  | opening
  | closing
  | comma
deriving DecidableEq

/-- What the scanner is in the middle of.  In `closed` it has seen a quotation mark, which ends
the name unless another one follows. -/
inductive Mode where
  | blank
  | word (w : List Char)
  | quoted (n : List Char)
  | closed (n : List Char)
deriving DecidableEq

/-- The characters of a word. -/
def isWordChar (c : Char) : Bool := c.isAlphanum || c == '_'

def isWord (w : List Char) : Bool := !w.isEmpty && w.all isWordChar

/-- What a character begins. -/
def start (c : Char) : Option (List Token × Mode) :=
  if isWordChar c then some ([], .word [c])
  else if c = ' ' then some ([], .blank)
  else if c = '(' then some ([.opening], .blank)
  else if c = ')' then some ([.closing], .blank)
  else if c = ',' then some ([.comma], .blank)
  else if c = '?' then some ([.placeholder], .blank)
  else if c = '"' then some ([], .quoted [])
  else none

/-- One character: the tokens that it ends, and the mode after it. -/
def step : Mode → Char → Option (List Token × Mode)
  | .blank, c => start c
  | .word w, c =>
      if isWordChar c then some ([], .word (w ++ [c]))
      else (start c).map fun p => (.word w :: p.1, p.2)
  | .quoted n, c => if c = '"' then some ([], .closed n) else some ([], .quoted (n ++ [c]))
  | .closed n, c =>
      if c = '"' then some ([], .quoted (n ++ ['"']))
      else (start c).map fun p => (.name (String.ofList n) :: p.1, p.2)

/-- What the end of the text ends. -/
def finish : Mode → Option (List Token)
  | .blank => some []
  | .word w => some [.word w]
  | .quoted _ => none
  | .closed n => some [.name (String.ofList n)]

/-- The tokens of the rest of a text. -/
def tokensFrom : Mode → List Char → Option (List Token)
  | m, [] => finish m
  | m, c :: cs => (step m c).bind fun p => (tokensFrom p.2 cs).map (p.1 ++ ·)

/-- The tokens of a text. -/
def tokens (text : String) : Option (List Token) := tokensFrom .blank text.toList

/-- A text at whose beginning words and names end. -/
def Stops : List Char → Prop
  | [] => True
  | c :: _ => c ≠ '"' ∧ isWordChar c = false

/-- The characters give the tokens whatever follows, as long as it is set apart. -/
def Piece (cs : List Char) (ts : List Token) : Prop :=
  ∀ rest, Stops rest → tokensFrom .blank (cs ++ rest) = (tokensFrom .blank rest).map (ts ++ ·)

section Symbols

variable (cs : List Char)

theorem tokensFrom_space : tokensFrom .blank (' ' :: cs) = tokensFrom .blank cs := by
  change (tokensFrom .blank cs).map _ = _
  exact Option.map_id'

theorem tokensFrom_opening :
    tokensFrom .blank ('(' :: cs) = (tokensFrom .blank cs).map (.opening :: ·) := rfl

theorem tokensFrom_closing :
    tokensFrom .blank (')' :: cs) = (tokensFrom .blank cs).map (.closing :: ·) := rfl

theorem tokensFrom_comma :
    tokensFrom .blank (',' :: cs) = (tokensFrom .blank cs).map (.comma :: ·) := rfl

theorem tokensFrom_placeholder :
    tokensFrom .blank ('?' :: cs) = (tokensFrom .blank cs).map (.placeholder :: ·) := rfl

end Symbols

section Ends

variable {rest : List Char}

/-- A word ends where the rest is set apart. -/
theorem tokensFrom_word_stop (w : List Char) (h : Stops rest) :
    tokensFrom (.word w) rest = (tokensFrom .blank rest).map (.word w :: ·) := by
  cases rest with
  | nil => rfl
  | cons c rest =>
      have hword : isWordChar c = false := h.2
      simp only [tokensFrom, step, hword]
      cases start c with
      | none => rfl
      | some p =>
          simp only [Bool.false_eq_true, if_false, Option.map_some, Option.bind_some,
            Option.map_map]
          rfl

/-- So does a name. -/
theorem tokensFrom_closed_stop (n : String) (h : Stops rest) :
    tokensFrom (.closed n.toList) rest = (tokensFrom .blank rest).map (.name n :: ·) := by
  cases rest with
  | nil =>
      simp only [tokensFrom, finish, String.ofList_toList]
      rfl
  | cons c rest =>
      have hquote : c ≠ '"' := h.1
      simp only [tokensFrom, step, if_neg hquote, String.ofList_toList]
      cases start c with
      | none => rfl
      | some p =>
          simp only [Option.map_some, Option.bind_some, Option.map_map]
          rfl

end Ends

/-- The characters of a name, inside of its quotation marks. -/
theorem tokensFrom_quoted {n : List Char} (hn : '"' ∉ n) (before rest : List Char) :
    tokensFrom (.quoted before) (n ++ '"' :: rest) = tokensFrom (.closed (before ++ n)) rest := by
  induction n generalizing before with
  | nil =>
      rw [List.append_nil]
      change (tokensFrom (.closed before) rest).map _ = _
      exact Option.map_id'
  | cons c n ih =>
      rw [List.mem_cons, not_or] at hn
      have hrest := ih hn.2 (before ++ [c])
      rw [List.append_assoc] at hrest
      simp only [List.cons_append, tokensFrom, step, if_neg (Ne.symm hn.1), Option.bind_some,
        hrest]
      exact Option.map_id'

/-- The characters of a word. -/
theorem tokensFrom_word {w : List Char} (hw : ∀ c ∈ w, isWordChar c = true)
    (before rest : List Char) :
    tokensFrom (.word before) (w ++ rest) = tokensFrom (.word (before ++ w)) rest := by
  induction w generalizing before with
  | nil => rw [List.append_nil, List.nil_append]
  | cons c w ih =>
      obtain ⟨hc, hw⟩ := List.forall_mem_cons.mp hw
      have hrest := ih hw (before ++ [c])
      rw [List.append_assoc] at hrest
      simp only [List.cons_append, tokensFrom, step, if_pos hc, Option.bind_some, hrest]
      exact Option.map_id'

/-- A name in quotation marks. -/
def quote (n : String) : List Char := '"' :: (n.toList ++ ['"'])

theorem piece_quote {n : String} (hn : '"' ∉ n.toList) : Piece (quote n) [.name n] := by
  intro rest hrest
  have hquoted := tokensFrom_quoted hn [] rest
  rw [List.nil_append, tokensFrom_closed_stop n hrest] at hquoted
  unfold quote
  rw [List.cons_append, List.append_assoc]
  change (tokensFrom (.quoted []) _).map _ = _
  rw [List.singleton_append, hquoted]
  exact Option.map_id'

/-- A word. -/
theorem piece_word {w : List Char} (hword : isWord w = true) : Piece w [.word w] := by
  intro rest hrest
  obtain ⟨hne, hw⟩ := Bool.and_eq_true_iff.mp hword
  cases w with
  | nil => cases hne
  | cons c w =>
      obtain ⟨hc, hw⟩ := List.forall_mem_cons.mp (List.all_eq_true.mp hw)
      have hstart : start c = some ([], .word [c]) := if_pos hc
      rw [List.cons_append, tokensFrom, step, hstart, Option.bind_some, tokensFrom_word hw,
        List.singleton_append, tokensFrom_word_stop _ hrest, Option.map_map]
      rfl

/-- The tokens of keywords. -/
def words (ks : List String) : List Token := ks.map fun k => .word k.toList

theorem piece_nil : Piece [] [] := fun _ _ => Option.map_id'.symm

theorem piece_placeholder : Piece ['?'] [.placeholder] := by
  intro rest _
  exact tokensFrom_placeholder rest

section Pieces

variable {cs cs' : List Char} {ts ts' : List Token}

/-- Two pieces with a blank between them. -/
theorem Piece.blank (h : Piece cs ts) (h' : Piece cs' ts') :
    Piece (cs ++ ' ' :: cs') (ts ++ ts') := by
  intro rest hrest
  have hstop : Stops (' ' :: cs' ++ rest) := ⟨by decide, rfl⟩
  rw [List.append_assoc, h _ hstop, List.cons_append, tokensFrom_space, h' _ hrest,
    Option.map_map]
  refine congrArg (fun f => Option.map f _) (funext fun more => ?_)
  exact (List.append_assoc _ _ _).symm

/-- Keywords with blanks between them. -/
theorem piece_words :
    ∀ ks : List String, (ks.all fun k => isWord k.toList) = true →
      Piece (" ".intercalate ks).toList (words ks)
  | [], _ => piece_nil
  | [k], h => by
      rw [String.intercalate_singleton]
      exact piece_word (List.all_eq_true.mp h k List.mem_cons_self)
  | k :: k' :: ks, h => by
      obtain ⟨hk, hks⟩ := Bool.and_eq_true_iff.mp h
      have hboth := (piece_word hk).blank (piece_words (k' :: ks) hks)
      rw [String.intercalate_cons_cons, String.toList_append, String.toList_append,
        List.append_assoc]
      exact hboth

/-- Two pieces with a comma between them. -/
theorem Piece.comma (h : Piece cs ts) (h' : Piece cs' ts') :
    Piece (cs ++ ',' :: ' ' :: cs') (ts ++ .comma :: ts') := by
  intro rest hrest
  have hstop : Stops (',' :: ' ' :: cs' ++ rest) := ⟨by decide, rfl⟩
  rw [List.append_assoc, h _ hstop, List.cons_append, List.cons_append, tokensFrom_comma,
    tokensFrom_space, h' _ hrest, Option.map_map, Option.map_map]
  refine congrArg (fun f => Option.map f _) (funext fun more => ?_)
  simp only [Function.comp, List.append_assoc, List.cons_append]

/-- A piece in parentheses. -/
theorem Piece.parens (h : Piece cs ts) :
    Piece ('(' :: (cs ++ [')'])) (.opening :: (ts ++ [.closing])) := by
  intro rest _
  have hstop : Stops (')' :: rest) := ⟨by decide, rfl⟩
  rw [List.cons_append, List.append_assoc, tokensFrom_opening, List.singleton_append, h _ hstop,
    tokensFrom_closing, Option.map_map, Option.map_map]
  refine congrArg (fun f => Option.map f _) (funext fun more => ?_)
  simp only [Function.comp, List.append_assoc, List.cons_append, List.nil_append]

/-- Pieces with commas between them. -/
theorem piece_list {β : Type} (text : β → List Char) (enc : β → List Token) :
    ∀ xs : List β, (∀ x ∈ xs, Piece (text x) (enc x)) →
      Piece ([',', ' '].intercalate (xs.map text)) ([.comma].intercalate (xs.map enc))
  | [], _ => piece_nil
  | [x], h => by
      rw [List.map_cons, List.map_cons, List.map_nil, List.map_nil, List.intercalate_singleton,
        List.intercalate_singleton]
      exact h x List.mem_cons_self
  | x :: y :: xs, h => by
      obtain ⟨hx, hxs⟩ := List.forall_mem_cons.mp h
      have hrest := piece_list text enc (y :: xs) hxs
      simp only [List.map_cons] at hrest
      simp only [List.map_cons, List.intercalate_cons_cons]
      have hboth := hx.comma hrest
      simpa only [List.append_assoc, List.cons_append, List.nil_append] using hboth

/-- The tokens of a text that is a piece. -/
theorem Piece.tokens_eq {text : String} (h : Piece text.toList ts) : tokens text = some ts := by
  have hall := h [] trivial
  rw [List.append_nil] at hall
  unfold tokens
  rw [hall]
  change some (ts ++ []) = some ts
  rw [List.append_nil]

end Pieces

/-- A column of a table. -/
structure ColumnDef where
  name : String
  type : String
  unique : Bool
deriving DecidableEq

/-- What a text can say.  The rows of an `INSERT` are known by the number of their
placeholders. -/
inductive Statement where
  | createTable (table : String) (columns : List ColumnDef)
  | insert (table : String) (columns : List String) (rows : List Nat) (doNothing : Bool)
deriving DecidableEq

/-- A reader of a part of a statement. -/
abbrev Reader (β : Type) := List Token → Option (β × List Token)

/-- A keyword, in capitals or not. -/
def isKeyword (k : String) (w : List Char) : Bool := w.map Char.toUpper == k.toList

/-- The keywords with which the tokens begin. -/
def keywords : List String → List Token → Option (List Token)
  | [], ts => some ts
  | k :: ks, .word w :: ts => if isKeyword k w then keywords ks ts else none
  | _ :: _, _ => none

/-- A name. -/
def readName : Reader String
  | .name n :: ts => some (n, ts)
  | _ => none

/-- A placeholder. -/
def readPlaceholder : Reader Unit
  | .placeholder :: ts => some ((), ts)
  | _ => none

/-- A column: its name, its type and perhaps its constraint. -/
def readColumn : Reader ColumnDef
  | .name n :: .word t :: .word u :: ts =>
      if isKeyword "UNIQUE" u then some (⟨n, String.ofList t, true⟩, ts) else none
  | .name n :: .word t :: ts => some (⟨n, String.ofList t, false⟩, ts)
  | _ => none

/-- Items with commas between them, at most so many. -/
def readItems {β : Type} (item : Reader β) : Nat → Reader (List β)
  | 0, _ => none
  | fuel + 1, ts =>
      match item ts with
      | none => none
      | some (x, .comma :: rest) => (readItems item fuel rest).map fun p => (x :: p.1, p.2)
      | some (x, rest) => some ([x], rest)

/-- Items with commas between them. -/
def readList {β : Type} (item : Reader β) : Reader (List β) :=
  fun ts => readItems item (ts.length + 1) ts

/-- Items in parentheses. -/
def readParens {β : Type} (item : Reader β) : Reader (List β)
  | .opening :: ts =>
      match readList item ts with
      | some (xs, .closing :: rest) => some (xs, rest)
      | _ => none
  | _ => none

/-- A row of placeholders. -/
def readRow : Reader Nat := fun ts => (readParens readPlaceholder ts).map fun p =>
  (p.1.length, p.2)

/-- The end of an `INSERT`. -/
def readClause : List Token → Option Bool
  | [] => some false
  | ts =>
      match keywords ["ON", "CONFLICT", "DO", "NOTHING"] ts with
      | some [] => some true
      | _ => none

/-- `CREATE TABLE IF NOT EXISTS`. -/
def readCreate (ts : List Token) : Option Statement := do
  let ts ← keywords ["CREATE", "TABLE", "IF", "NOT", "EXISTS"] ts
  let (table, ts) ← readName ts
  let (columns, ts) ← readParens readColumn ts
  if ts = [] then some (.createTable table columns) else none

/-- `INSERT INTO`. -/
def readInsert (ts : List Token) : Option Statement := do
  let ts ← keywords ["INSERT", "INTO"] ts
  let (table, ts) ← readName ts
  let (columns, ts) ← readParens readName ts
  let ts ← keywords ["VALUES"] ts
  let (rows, ts) ← readList readRow ts
  let doNothing ← readClause ts
  some (.insert table columns rows doNothing)

/-- The statement that a text is. -/
def read (text : String) : Option Statement := do
  let ts ← tokens text
  readCreate ts <|> readInsert ts

/-- The values are dealt out to the rows in order; there must be one for each placeholder. -/
def fill {α : Type} (rows : List Nat) (values : List α) : Option (List (List α)) :=
  if values.length = rows.sum then some (rows.splitLengths values) else none

theorem splitLengths_flatten {α : Type} (rows : List (List α)) :
    (rows.map List.length).splitLengths rows.flatten = rows := by
  induction rows with
  | nil => rfl
  | cons row rows ih =>
      rw [List.map_cons, List.flatten_cons, List.splitLengths_cons, List.take_left,
        List.drop_left, ih]

/-- The values of rows go back to their rows. -/
theorem fill_flatten {α : Type} (rows : List (List α)) :
    fill (rows.map List.length) rows.flatten = some rows := by
  unfold fill
  rw [if_pos List.length_flatten, splitLengths_flatten]

/-- In front of `rest`, `item` reads what `enc` writes of the items `xs`. -/
def ReadsBefore {β : Type} (item : Reader β) (enc : β → List Token) (xs : List β)
    (rest : List Token) : Prop :=
  ∀ x ∈ xs, item (enc x ++ rest) = some (x, rest)

section Lists

variable {β : Type} {item : Reader β} {enc : β → List Token} {rest : List Token}

theorem readItems_intercalate (hend : rest.head? ≠ some .comma) :
    ∀ {xs : List β} {fuel : Nat}, (∀ more, ReadsBefore item enc xs (.comma :: more)) →
      ReadsBefore item enc xs rest → xs ≠ [] → xs.length ≤ fuel →
      readItems item fuel ([.comma].intercalate (xs.map enc) ++ rest) = some (xs, rest)
  | [], _, _, _, hne, _ => absurd rfl hne
  | _ :: _, 0, _, _, _, hfuel => absurd hfuel (Nat.not_succ_le_zero _)
  | [x], fuel + 1, _, hrest, _, _ => by
      rw [List.map_cons, List.map_nil, List.intercalate_singleton, readItems,
        hrest x List.mem_cons_self]
      cases rest with
      | nil => rfl
      | cons t rest =>
          cases t with
          | comma => exact absurd rfl hend
          | _ => rfl
  | x :: y :: xs, fuel + 1, hcomma, hrest, _, hfuel => by
      have hlater : readItems item fuel ([.comma].intercalate ((y :: xs).map enc) ++ rest) =
          some (y :: xs, rest) := readItems_intercalate hend
        (fun more z hz => hcomma more z (List.mem_cons_of_mem _ hz))
        (fun z hz => hrest z (List.mem_cons_of_mem _ hz)) (by simp)
        (Nat.le_of_succ_le_succ hfuel)
      simp only [List.map_cons] at hlater
      simp only [List.map_cons, List.intercalate_cons_cons, List.append_assoc,
        List.cons_append, List.nil_append, readItems]
      rw [hcomma _ x List.mem_cons_self]
      simp only [hlater, Option.map_some]

theorem length_le_intercalate :
    ∀ xs : List β, xs.length ≤ ([Token.comma].intercalate (xs.map enc)).length + 1
  | [] => Nat.zero_le _
  | [x] => Nat.le_add_left _ _
  | x :: y :: xs => by
      have hlater := length_le_intercalate (y :: xs)
      simp only [List.map_cons, List.length_cons] at hlater
      simp only [List.map_cons, List.intercalate_cons_cons, List.length_cons,
        List.length_append, List.length_nil]
      omega

theorem readList_intercalate {xs : List β}
    (hcomma : ∀ more, ReadsBefore item enc xs (.comma :: more))
    (hrest : ReadsBefore item enc xs rest) (hend : rest.head? ≠ some .comma) (hne : xs ≠ []) :
    readList item ([.comma].intercalate (xs.map enc) ++ rest) = some (xs, rest) := by
  refine readItems_intercalate hend hcomma hrest hne ?_
  have hlength : xs.length ≤ ([Token.comma].intercalate (xs.map enc)).length + 1 :=
    length_le_intercalate xs
  rw [List.length_append]
  omega

/-- The tokens of a list in parentheses. -/
def parenthesised (enc : β → List Token) (xs : List β) : List Token :=
  .opening :: ([.comma].intercalate (xs.map enc) ++ [.closing])

theorem readParens_parenthesised {xs : List β}
    (hcomma : ∀ more, ReadsBefore item enc xs (.comma :: more))
    (hclosing : ∀ more, ReadsBefore item enc xs (.closing :: more)) (hne : xs ≠ [])
    (rest : List Token) :
    readParens item (parenthesised enc xs ++ rest) = some (xs, rest) := by
  have hlist := readList_intercalate hcomma (hclosing rest) (by simp) hne
  unfold parenthesised
  rw [List.cons_append, List.append_assoc, readParens, List.singleton_append, hlist]

end Lists

/-- The tokens of a column. -/
def ColumnDef.tokens (c : ColumnDef) : List Token :=
  .name c.name :: .word c.type.toList ::
    if c.unique then [.word ['U', 'N', 'I', 'Q', 'U', 'E']] else []

theorem readColumn_tokens {t : Token} (ht : ∀ w, t ≠ .word w) (columns : List ColumnDef)
    (more : List Token) : ReadsBefore readColumn ColumnDef.tokens columns (t :: more) := by
  rintro ⟨name, type, unique⟩ -
  cases unique with
  | true => simp [ColumnDef.tokens, readColumn, isKeyword, String.ofList_toList]
  | false =>
      cases t with
      | word w => exact absurd rfl (ht w)
      | _ => simp [ColumnDef.tokens, readColumn, String.ofList_toList]

/-- The tokens of a name. -/
def nameTokens (n : String) : List Token := [.name n]

theorem readName_tokens (names : List String) (rest : List Token) :
    ReadsBefore readName nameTokens names rest := fun _ _ => rfl

/-- The tokens of a placeholder. -/
def placeholderTokens (_ : Unit) : List Token := [.placeholder]

/-- The tokens of a row. -/
def rowTokens (n : Nat) : List Token := parenthesised placeholderTokens (List.replicate n ())

/-- Rows that are not empty are read back. -/
theorem readRow_tokens {rows : List Nat} (hrows : ∀ n ∈ rows, n ≠ 0) (rest : List Token) :
    ReadsBefore readRow rowTokens rows rest := by
  intro n hn
  have hne : List.replicate n () ≠ [] := by simpa using hrows n hn
  have hparens : readParens readPlaceholder
      (parenthesised placeholderTokens (List.replicate n ()) ++ rest) =
        some (List.replicate n (), rest) :=
    readParens_parenthesised (fun _ _ _ => rfl) (fun _ _ _ => rfl) hne rest
  unfold readRow rowTokens
  rw [hparens, Option.map_some, List.length_replicate]

/-- The tokens of the end of an `INSERT`. -/
def clauseTokens (doNothing : Bool) : List Token :=
  if doNothing then words ["ON", "CONFLICT", "DO", "NOTHING"] else []

theorem readClause_tokens (doNothing : Bool) :
    readClause (clauseTokens doNothing) = some doNothing := by
  cases doNothing <;> rfl

theorem head?_clauseTokens (doNothing : Bool) :
    (clauseTokens doNothing).head? ≠ some .comma := by
  cases doNothing <;> simp [clauseTokens, words]

/-- The tokens of a statement. -/
def Statement.tokens : Statement → List Token
  | .createTable table columns =>
      words ["CREATE", "TABLE", "IF", "NOT", "EXISTS"] ++ .name table ::
        parenthesised ColumnDef.tokens columns
  | .insert table columns rows doNothing =>
      words ["INSERT", "INTO"] ++ .name table :: (parenthesised nameTokens columns ++
        (words ["VALUES"] ++
          ([.comma].intercalate (rows.map rowTokens) ++ clauseTokens doNothing)))

/-- Nothing in a statement is empty. -/
def Statement.Proper : Statement → Prop
  | .createTable _ columns => columns ≠ []
  | .insert _ columns rows _ => columns ≠ [] ∧ rows ≠ [] ∧ ∀ n ∈ rows, n ≠ 0

theorem readCreate_tokens {table : String} {columns : List ColumnDef} (hne : columns ≠ []) :
    readCreate (Statement.createTable table columns).tokens = some (.createTable table columns) := by
  have hcolumns : readParens readColumn (parenthesised ColumnDef.tokens columns ++ []) =
      some (columns, []) := readParens_parenthesised
    (fun more => readColumn_tokens (t := .comma) nofun columns more)
    (fun more => readColumn_tokens (t := .closing) nofun columns more) hne []
  rw [List.append_nil] at hcolumns
  simp [readCreate, Statement.tokens, words, keywords, isKeyword, readName, hcolumns]

theorem readInsert_tokens {table : String} {columns : List String} {rows : List Nat}
    {doNothing : Bool} (hcolumns : columns ≠ []) (hne : rows ≠ []) (hrows : ∀ n ∈ rows, n ≠ 0) :
    readInsert (Statement.insert table columns rows doNothing).tokens =
      some (.insert table columns rows doNothing) := by
  have hnames : ∀ rest, readParens readName (parenthesised nameTokens columns ++ rest) =
      some (columns, rest) := readParens_parenthesised
    (fun more => readName_tokens columns (.comma :: more))
    (fun more => readName_tokens columns (.closing :: more)) hcolumns
  have hlist : readList readRow
      ([.comma].intercalate (rows.map rowTokens) ++ clauseTokens doNothing) =
        some (rows, clauseTokens doNothing) := readList_intercalate
    (fun more => readRow_tokens hrows (.comma :: more)) (readRow_tokens hrows _)
    (head?_clauseTokens doNothing) hne
  simp [readInsert, Statement.tokens, words, keywords, isKeyword, readName, hnames, hlist,
    readClause_tokens]

/-- A text with the tokens of a statement is that statement. -/
theorem read_of_tokens {text : String} {stmt : Statement} (hproper : stmt.Proper)
    (h : tokens text = some stmt.tokens) : read text = some stmt := by
  cases stmt with
  | createTable table columns =>
      have hcreate : readCreate (Statement.createTable table columns).tokens =
          some (.createTable table columns) := readCreate_tokens hproper
      simp [read, h, hcreate]
  | insert table columns rows doNothing =>
      obtain ⟨hcolumns, hne, hrows⟩ := hproper
      have hcreate : readCreate (Statement.insert table columns rows doNothing).tokens = none := by
        simp [readCreate, Statement.tokens, words, keywords, isKeyword]
      have hinsert : readInsert (Statement.insert table columns rows doNothing).tokens =
          some (.insert table columns rows doNothing) := readInsert_tokens hcolumns hne hrows
      simp [read, h, hcreate, hinsert]

/-- A statement that names no column cannot be read. -/
theorem read_of_tokens_createTable_nil {text table : String}
    (h : tokens text = some (Statement.createTable table []).tokens) : read text = none := by
  simp [read, h, readCreate, readInsert, Statement.tokens, parenthesised, words, keywords,
    isKeyword, readName, readParens, readList, readItems, readColumn]

theorem read_of_tokens_insert_nil {text table : String} {rows : List Nat} {doNothing : Bool}
    (h : tokens text = some (Statement.insert table [] rows doNothing).tokens) :
    read text = none := by
  simp [read, h, readCreate, readInsert, Statement.tokens, parenthesised, words, keywords,
    isKeyword, readName, readParens, readList, readItems]

end SqlText
end Lib
end OrbitOpenEO
