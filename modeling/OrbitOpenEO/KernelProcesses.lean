import OrbitOpenEO.Callbacks

/-!
# The processes of the `apply` kernel

Every arm of `apply_pure_numeric_op` does three things: it reads its operands from the
arguments, it may stop for the values they have, and it computes.  Reading looks only at
the names and the shapes of the arguments (`kernelProcess_reads`), so whatever depends on a pixel
value happens in the other two steps.
-/

namespace OrbitOpenEO

/-- A graph error whose text begins in this way. -/
def ExecError.Begins (p : String) (e : ExecError) : Prop := ∃ rest, e = .invalidGraph (p ++ rest)

theorem ExecError.begins_self (p rest : String) : (ExecError.invalidGraph (p ++ rest)).Begins p :=
  ⟨rest, rfl⟩

theorem ExecError.Begins.append {p m : String} (h : (ExecError.invalidGraph m).Begins p)
    (s : String) : (ExecError.invalidGraph (m ++ s)).Begins p := by
  obtain ⟨rest, hrest⟩ := h
  exact ⟨rest ++ s, by rw [ExecError.invalidGraph.inj hrest, String.append_assoc]⟩

/-- A text does not begin in two ways of one length. -/
theorem ExecError.Begins.inj {p q : String} {e : ExecError} (hp : e.Begins p) (hq : e.Begins q)
    (hlen : p.length = q.length) : p = q := by
  obtain ⟨rest, rfl⟩ := hp
  obtain ⟨rest', h⟩ := hq
  have htext : (p ++ rest).toList = (q ++ rest').toList := by
    rw [ExecError.invalidGraph.inj h]
  rw [String.toList_append, String.toList_append] at htext
  exact String.toList_injective (List.append_inj htext hlen).1

namespace ApplyKernel

/-- Why a process stops for the values of its operands. -/
inductive Fault where
  /-- A zero denominator. -/
  | zero (msg : String)
  /-- An input range without extent. -/
  | flat
  /-- Bounds that `f64::clamp` does not take. -/
  | disordered

def Fault.error : Fault → ExecError
  | .zero msg => .perPixelComputation msg
  | .flat => .invalidGraph "apply: linear_scale_range: inputMin == inputMax"
  | .disordered => .backend "panicked: min > max, or either was NaN"

/-- A process: its operands, what stops it and its value. -/
structure KernelProcess where
  read : BTreeMap ArgVal → Except ExecError (List F64)
  stop : List F64 → Option Fault
  value : List F64 → F64

namespace KernelProcess

def run (q : KernelProcess) (args : BTreeMap ArgVal) : Except ExecError F64 := do
  let xs ← q.read args
  match q.stop xs with
  | some fault => .error fault.error
  | none => .ok (q.value xs)

/-- A process of one operand. -/
def ofOne (who : String) (op : F64 → F64) : KernelProcess where
  read args := do
    let x ← one args who
    .ok [x]
  stop _ := none
  value
    | [x] => op x
    | _ => .nan

/-- A process of two operands that stops for some of their values. -/
def ofTwo (who : String) (stop : F64 → F64 → Option Fault) (op : F64 → F64 → F64) :
    KernelProcess where
  read args := do
    let p ← two args who
    .ok [p.1, p.2]
  stop
    | [x, y] => stop x y
    | _ => none
  value
    | [x, y] => op x y
    | _ => .nan

/-- A process of an operand with two names and another one with two names. -/
def ofNamed (key other missing key' other' missing' : String) (op : F64 → F64 → F64) :
    KernelProcess where
  read args := do
    let x ← named args key other missing
    let y ← named args key' other' missing'
    .ok [x, y]
  stop _ := none
  value
    | [x, y] => op x y
    | _ => .nan

/-- A process of a value and two bounds. -/
def ofBounds (who missing : String) (stop : F64 → F64 → Option Fault) (op : F64 → F64 → F64 → F64) :
    KernelProcess where
  read args := do
    let x ← named args "x" "data" missing
    let lo ← required args who "min"
    let hi ← required args who "max"
    .ok [x, lo, hi]
  stop
    | [_, lo, hi] => stop lo hi
    | _ => none
  value
    | [x, lo, hi] => op x lo hi
    | _ => .nan

/-- A process that does not stop. -/
def never (_ _ : F64) : Option Fault := none

/-- `linear_scale_range`. -/
def linearScaleRange (f : MathOps) : KernelProcess where
  read args := do
    let x ← named args "x" "data" "apply: `linear_scale_range` needs `x` or `data`"
    let inMin ← required args "linear_scale_range" "inputMin"
    let inMax ← required args "linear_scale_range" "inputMax"
    let outMin ← (args.get "outputMin").elim (.ok (.finite 0)) (fun v => v.asNum "outputMin")
    let outMax ← (args.get "outputMax").elim (.ok (.finite 1)) (fun v => v.asNum "outputMax")
    .ok [x, inMin, inMax, outMin, outMax]
  stop
    | [_, inMin, inMax, _, _] =>
        if F64.lt (f.sub inMax inMin).abs (.finite (1 / 1000000000000)) then some .flat else none
    | _ => none
  value
    | [x, inMin, inMax, outMin, outMax] =>
        f.add (f.div (f.mul (f.sub x inMin) (f.sub outMax outMin)) (f.sub inMax inMin)) outMin
    | _ => .nan

/-- `round`. -/
def round (f : MathOps) : KernelProcess where
  read args := do
    let x ← one args "round"
    .ok [x, match args.get "p" with
      | some (.num p) => p
      | _ => .finite 0]
  stop _ := none
  value
    | [x, p] => f.div (f.roundTiesEven (f.mul x (f.tenPowi p))) (f.tenPowi p)
    | _ => .nan

/-- `arctan2`. -/
def arctan2 (f : MathOps) : KernelProcess where
  read args :=
    match args.get "y", args.get "x" with
    | some y, some x => do
        let y ← y.asNum "y"
        let x ← x.asNum "x"
        .ok [y, x]
    | _, _ => do
        let p ← two args "arctan2"
        .ok [p.1, p.2]
  stop _ := none
  value
    | [y, x] => f.atan2 y x
    | _ => .nan

end KernelProcess

open KernelProcess

/-- The stop of a zero denominator. -/
def zeroStop (msg : String) (den : F64 → F64 → F64) (x y : F64) : Option Fault :=
  if (den x y).isZero then some (.zero msg) else none

/-- The processes of the kernel by their names. -/
def kernelProcess (f : MathOps) (pid : String) : Option KernelProcess :=
  match pid with
  | "add" => some (.ofTwo "add" never f.add)
  | "subtract" => some (.ofTwo "subtract" never f.sub)
  | "multiply" => some (.ofTwo "multiply" never f.mul)
  | "divide" => some (.ofTwo "divide" (zeroStop "apply: divide by zero" fun _ y => y) f.div)
  | "power" => some (.ofNamed "base" "x" "apply: `power` needs `base` or `x`"
      "p" "y" "apply: `power` needs `p` or `y`" f.powf)
  | "absolute" | "abs" => some (.ofOne "absolute" F64.abs)
  | "ln" => some (.ofOne "ln" f.ln)
  | "log" => some (.ofNamed "x" "data" "apply: `log` needs `x` or `data`"
      "base" "y" "apply: `log` needs `base` or `y`" f.log)
  | "exp" => some (.ofOne "exp" f.exp)
  | "eq" => some (.ofTwo "eq" never
      fun x y => ofBool (F64.lt (f.sub x y).abs (.finite (1 / 1000000000))))
  | "neq" => some (.ofTwo "neq" never
      fun x y => ofBool (F64.le (.finite (1 / 1000000000)) (f.sub x y).abs))
  | "lt" => some (.ofTwo "lt" never fun x y => ofBool (F64.lt x y))
  | "lte" => some (.ofTwo "lte" never fun x y => ofBool (F64.le x y))
  | "gt" => some (.ofTwo "gt" never fun x y => ofBool (F64.lt y x))
  | "gte" => some (.ofTwo "gte" never fun x y => ofBool (F64.le y x))
  | "and" => some (.ofTwo "and" never fun x y => ofBool (!x.isZero && !y.isZero))
  | "or" => some (.ofTwo "or" never fun x y => ofBool (!x.isZero || !y.isZero))
  | "not" => some (.ofOne "not" fun x => ofBool x.isZero)
  | "max" => some (.ofTwo "max" never F64.max)
  | "min" => some (.ofTwo "min" never F64.min)
  | "clip" => some (.ofBounds "clip" "apply: `clip` needs `x` or `data`"
      (fun lo hi => if F64.le lo hi then none else some .disordered) F64.clamp)
  | "linear_scale_range" => some (.linearScaleRange f)
  | "mod" => some (.ofTwo "mod" never fun x y => f.sub x (f.mul y (f.floor (f.div x y))))
  | "sgn" | "sign" => some (.ofOne "sgn" F64.signum)
  | "floor" => some (.ofOne "floor" f.floor)
  | "ceil" => some (.ofOne "ceil" f.ceil)
  | "int" => some (.ofOne "int" f.trunc)
  | "round" => some (.round f)
  | "sqrt" => some (.ofOne "sqrt" f.sqrt)
  | "normalized_difference" => some (.ofTwo "normalized_difference"
      (zeroStop "apply: normalized_difference x + y == 0" f.add)
      fun x y => f.div (f.sub x y) (f.add x y))
  | "between" => some (.ofBounds "between" "apply: `between` needs `x`" never
      fun x lo hi => ofBool (F64.le lo x && F64.le x hi))
  | "cos" => some (.ofOne "cos" f.cos)
  | "sin" => some (.ofOne "sin" f.sin)
  | "tan" => some (.ofOne "tan" f.tan)
  | "arccos" => some (.ofOne "arccos" f.acos)
  | "arcsin" => some (.ofOne "arcsin" f.asin)
  | "arctan" => some (.ofOne "arctan" f.atan)
  | "arctan2" => some (.arctan2 f)
  | _ => none

section Steps

variable (args : BTreeMap ArgVal)

theorem unary_eq (who : String) (op : F64 → F64) :
    unary args who op = (KernelProcess.ofOne who op).run args := by
  unfold unary KernelProcess.run KernelProcess.ofOne
  dsimp only
  cases one args who <;> rfl

theorem binary_eq (who : String) (op : F64 → F64 → F64) :
    binary args who op = (KernelProcess.ofTwo who never op).run args := by
  unfold binary KernelProcess.run KernelProcess.ofTwo
  dsimp only
  cases two args who <;> rfl

theorem quotient_eq (who msg : String) (num den div : F64 → F64 → F64) :
    quotient args who msg num den div =
      (KernelProcess.ofTwo who (zeroStop msg den) fun x y => div (num x y) (den x y)).run args := by
  unfold quotient KernelProcess.run KernelProcess.ofTwo zeroStop
  dsimp only
  cases two args who with
  | error e =>
      rfl
  | ok p =>
      simp only [Bind.bind, Except.bind]
      split_ifs <;> rfl

theorem named_eq (key other missing key' other' missing' : String) (op : F64 → F64 → F64) :
    (do
      let x ← named args key other missing
      let y ← named args key' other' missing'
      .ok (op x y) : Except ExecError F64) =
      (KernelProcess.ofNamed key other missing key' other' missing' op).run args := by
  unfold KernelProcess.run KernelProcess.ofNamed
  dsimp only
  cases named args key other missing with
  | error e =>
      rfl
  | ok x =>
      cases named args key' other' missing' <;> rfl

theorem bounds_eq (who missing : String) (stop : F64 → F64 → Option Fault)
    (op : F64 → F64 → F64 → F64) :
    (do
      let x ← named args "x" "data" missing
      let lo ← required args who "min"
      let hi ← required args who "max"
      match stop lo hi with
      | some fault => .error fault.error
      | none => .ok (op x lo hi) : Except ExecError F64) =
      (KernelProcess.ofBounds who missing stop op).run args := by
  unfold KernelProcess.run KernelProcess.ofBounds
  dsimp only
  cases named args "x" "data" missing with
  | error e =>
      rfl
  | ok x =>
      cases required args who "min" with
      | error e =>
          rfl
      | ok lo =>
          cases required args who "max" <;> rfl

theorem clip_eq :
    clip args = (KernelProcess.ofBounds "clip" "apply: `clip` needs `x` or `data`"
      (fun lo hi => if F64.le lo hi then none else some .disordered) F64.clamp).run args := by
  rw [← bounds_eq]
  unfold clip clamp
  refine bind_congr fun x => bind_congr fun lo => bind_congr fun hi => ?_
  split_ifs <;> rfl

theorem linearScaleRange_eq (f : MathOps) :
    ApplyKernel.linearScaleRange f args = (KernelProcess.linearScaleRange f).run args := by
  unfold ApplyKernel.linearScaleRange KernelProcess.run KernelProcess.linearScaleRange
  simp only [bind_assoc]
  refine bind_congr fun x => bind_congr fun inMin => bind_congr fun inMax =>
    bind_congr fun outMin => bind_congr fun outMax => ?_
  dsimp only [Bind.bind, Except.bind]
  split_ifs <;> rfl

theorem round_eq (f : MathOps) :
    ApplyKernel.round f args = (KernelProcess.round f).run args := by
  unfold ApplyKernel.round KernelProcess.run KernelProcess.round
  dsimp only
  cases one args "round" <;> rfl

theorem arctan2_eq (f : MathOps) :
    (match args.get "y", args.get "x" with
      | some y, some x => do
          let y ← y.asNum "y"
          let x ← x.asNum "x"
          .ok (f.atan2 y x)
      | _, _ => binary args "arctan2" f.atan2) = (KernelProcess.arctan2 f).run args := by
  unfold KernelProcess.run KernelProcess.arctan2
  dsimp only
  split
  · simp only [bind_assoc]
    rfl
  · unfold binary
    simp only [bind_assoc]
    rfl

/-- The arms of the kernel are these processes. -/
theorem applyPureNumericOp_eq {f : MathOps} {pid : String} {q : KernelProcess}
    (h : kernelProcess f pid = some q) : applyPureNumericOp f pid args = q.run args := by
  unfold kernelProcess at h
  split at h <;> cases h <;>
    first
    | exact quotient_eq args "divide" _ (fun x _ => x) (fun _ y => y) f.div
    | exact quotient_eq args "normalized_difference" _ f.sub f.add f.div
    | exact clip_eq args
    | exact linearScaleRange_eq args f
    | exact round_eq args f
    | exact arctan2_eq args f
    | rw [← unary_eq]; rfl
    | rw [← binary_eq]; rfl
    | rw [← named_eq]; rfl
    | rw [← bounds_eq]; rfl

/-- The kernel refuses every other process. -/
theorem applyPureNumericOp_unsupported {f : MathOps} {pid : String}
    (h : kernelProcess f pid = none) :
    applyPureNumericOp f pid args =
      .error (.invalidGraph s!"apply: unsupported sub-process `{pid}`") := by
  unfold applyPureNumericOp
  split <;> first | rfl | cases h

end Steps

/-- Two scalars, or two arrays of one length. -/
def SameShape : ArgVal → ArgVal → Prop
  | .num _, .num _ => True
  | .arr xs, .arr ys => xs.length = ys.length
  | _, _ => False

/-- The same names with values of the same shapes. -/
def Alike (args args' : BTreeMap ArgVal) : Prop :=
  ∀ k, Option.Rel SameShape (args.get k) (args'.get k)

theorem SameShape.symm {v v' : ArgVal} (h : SameShape v v') : SameShape v' v := by
  cases v with
  | num n =>
      cases v' with
      | num n' =>
          trivial
      | arr ns =>
          cases h
  | arr ns =>
      cases v' with
      | num n' =>
          cases h
      | arr ns' =>
          exact Eq.symm h

theorem Alike.symm {m m' : BTreeMap ArgVal} (h : Alike m m') : Alike m' m := by
  intro k
  have hk := h k
  generalize m.get k = o at hk
  generalize m'.get k = o' at hk ⊢
  cases hk with
  | some hshape =>
      exact .some hshape.symm
  | none =>
      exact .none

/-- A way to read arguments: its errors name what is missing or has the wrong shape, and on
arguments that are alike it does not fail once and succeed once. -/
structure Reads {γ α : Type} (read : γ → BTreeMap ArgVal → Except ExecError α) : Prop where
  message : ∀ c args e, read c args = .error e → e.Begins "apply: `"
  alike : ∀ c c' {args args' : BTreeMap ArgVal}, Alike args args' → ∀ a, read c args = .ok a →
    ∃ a', read c' args' = .ok a'

section Reads

variable {γ α β : Type}

theorem reads_ok (g : γ → BTreeMap ArgVal → α) : Reads fun c args => .ok (g c args) where
  message _ _ _ h := nomatch h
  alike _ c' _ args' _ _ _ := ⟨g c' args', rfl⟩

theorem Reads.bind {read : γ → BTreeMap ArgVal → Except ExecError α}
    {next : γ → α → BTreeMap ArgVal → Except ExecError β} (h : Reads read)
    (hnext : Reads fun p : γ × α => next p.1 p.2) :
    Reads fun c args => read c args >>= fun a => next c a args := by
  constructor
  · intro c args e he
    cases hread : read c args with
    | error e' =>
        rw [hread] at he
        cases he
        exact h.message c args _ hread
    | ok a =>
        rw [hread] at he
        exact hnext.message (c, a) args e he
  · intro c c' args args' halike b hb
    cases hread : read c args with
    | error e =>
        rw [hread] at hb
        cases hb
    | ok a =>
        rw [hread] at hb
        obtain ⟨a', ha'⟩ := h.alike c c' halike a hread
        obtain ⟨b', hb'⟩ := hnext.alike (c, a) (c', a') halike b hb
        refine ⟨b', ?_⟩
        rw [ha']
        exact hb'

/-- What is read of the arguments themselves. -/
theorem reads_const {read : BTreeMap ArgVal → Except ExecError α}
    (hmessage : ∀ args e, read args = .error e → e.Begins "apply: `")
    (halike : ∀ {args args' : BTreeMap ArgVal}, Alike args args' → ∀ a, read args = .ok a →
      ∃ a', read args' = .ok a') : Reads fun (_ : γ) args => read args :=
  ⟨fun _ => hmessage, fun _ _ => halike⟩

theorem asNum_message {v : ArgVal} {who : String} {e : ExecError} (h : v.asNum who = .error e) :
    e.Begins "apply: `" := by
  cases v with
  | num x =>
      cases h
  | arr xs =>
      cases h
      exact (ExecError.begins_self "apply: `" who).append _

theorem asNum_alike {v v' : ArgVal} (hshape : SameShape v v') {who : String} {x : F64}
    (h : v.asNum who = .ok x) : ∃ x', v'.asNum who = .ok x' := by
  cases v with
  | arr xs =>
      cases h
  | num x =>
      cases v' with
      | num x' =>
          exact ⟨x', rfl⟩
      | arr xs =>
          cases hshape

theorem asPair_message {v : ArgVal} {who : String} {e : ExecError} (h : v.asPair who = .error e) :
    e.Begins "apply: `" := by
  have htext : e = .invalidGraph s!"apply: `{who}` expected 2-element array" := by
    unfold ArgVal.asPair at h
    split at h
    · cases h
    · exact (Except.error.inj h).symm
  rw [htext]
  exact (ExecError.begins_self "apply: `" who).append _

theorem asPair_alike {v v' : ArgVal} (hshape : SameShape v v') {who : String} {p : F64 × F64}
    (h : v.asPair who = .ok p) : ∃ p', v'.asPair who = .ok p' := by
  unfold ArgVal.asPair at h
  split at h
  · cases v' with
    | num x =>
        cases hshape
    | arr ys =>
        obtain ⟨a, b, rfl⟩ := List.length_eq_two.mp hshape.symm
        exact ⟨_, rfl⟩
  · cases h

theorem reads_named (key other missing : String) (hmissing : ∃ rest, missing = "apply: `" ++ rest) :
    Reads fun (_ : γ) args => named args key other missing := by
  apply reads_const
  · intro args e h
    unfold named at h
    split at h
    · exact asNum_message h
    · cases h
      obtain ⟨rest, rfl⟩ := hmissing
      exact ⟨rest, rfl⟩
  · intro args args' halike x h
    unfold named at h ⊢
    have hkey := halike key
    have hother := halike other
    generalize args.get key = a at h hkey
    generalize args'.get key = a' at hkey ⊢
    cases hkey with
    | some hshape =>
        exact asNum_alike hshape h
    | none =>
        generalize args.get other = b at h hother
        generalize args'.get other = b' at hother ⊢
        cases hother with
        | some hshape =>
            exact asNum_alike hshape h
        | none =>
            cases h

theorem reads_required (who key : String) : Reads fun (_ : γ) args => required args who key := by
  apply reads_const
  · intro args e h
    unfold required at h
    split at h
    · exact asNum_message h
    · cases h
      exact (((ExecError.begins_self "apply: `" who).append _).append key).append _
  · intro args args' halike x h
    unfold required at h ⊢
    have hkey := halike key
    generalize args.get key = a at h hkey
    generalize args'.get key = a' at hkey ⊢
    cases hkey with
    | some hshape =>
        exact asNum_alike hshape h
    | none =>
        cases h

theorem reads_optional (key : String) (x : F64) :
    Reads fun (_ : γ) args => (args.get key).elim (.ok x) (fun v => v.asNum key) := by
  apply reads_const
  · intro args e h
    cases hkey : args.get key with
    | none =>
        rw [hkey] at h
        cases h
    | some v =>
        rw [hkey] at h
        exact asNum_message h
  · intro args args' halike y h
    have hkey := halike key
    generalize args.get key = a at h hkey
    generalize args'.get key = a' at hkey ⊢
    cases hkey with
    | some hshape =>
        exact asNum_alike hshape h
    | none =>
        exact ⟨x, rfl⟩

theorem reads_one (who : String) : Reads fun (_ : γ) args => one args who := by
  apply reads_const
  · intro args e h
    unfold one at h
    split at h
    · exact asNum_message h
    · split at h
      · exact asNum_message h
      · cases h
        exact (ExecError.begins_self "apply: `" who).append _
  · intro args args' halike x h
    unfold one at h ⊢
    have hx := halike "x"
    have hdata := halike "data"
    generalize args.get "x" = a at h hx
    generalize args'.get "x" = a' at hx ⊢
    cases hx with
    | some hshape =>
        exact asNum_alike hshape h
    | none =>
        generalize args.get "data" = b at h hdata
        generalize args'.get "data" = b' at hdata ⊢
        cases hdata with
        | some hshape =>
            exact asNum_alike hshape h
        | none =>
            cases h

/-- The pair under `data`, where `x` and `y` are not both given. -/
theorem reads_pair (who : String) : Reads fun (_ : γ) args =>
    match args.get "data" with
    | some d => d.asPair who
    | none => .error (.invalidGraph s!"apply: `{who}` needs `x`+`y` or `data: [a, b]`") := by
  apply reads_const
  · intro args e h
    cases hdata : args.get "data" with
    | some d =>
        rw [hdata] at h
        exact asPair_message h
    | none =>
        rw [hdata] at h
        cases h
        exact (ExecError.begins_self "apply: `" who).append _
  · intro args args' halike p h
    have hdata := halike "data"
    generalize args.get "data" = b at h hdata
    generalize args'.get "data" = b' at hdata ⊢
    cases hdata with
    | some hshape =>
        exact asPair_alike hshape h
    | none =>
        cases h

/-- Two scalars, where both are given. -/
theorem reads_both (key key' : String) (g : F64 → F64 → α)
    {otherwise : BTreeMap ArgVal → Except ExecError α}
    (h : Reads fun (_ : γ) => otherwise) :
    Reads fun (_ : γ) args =>
      match args.get key, args.get key' with
      | some v, some w => do
          let x ← v.asNum key
          let y ← w.asNum key'
          .ok (g x y)
      | _, _ => otherwise args := by
  constructor
  · intro c args e he
    split at he
    · rename_i v w _ _
      cases hv : v.asNum key with
      | error e' =>
          rw [hv] at he
          cases he
          exact asNum_message hv
      | ok x =>
          rw [hv] at he
          cases hw : w.asNum key' with
          | error e' =>
              rw [hw] at he
              cases he
              exact asNum_message hw
          | ok y =>
              rw [hw] at he
              cases he
    · exact h.message c args e he
  · intro c c' args args' halike a ha
    have hkey := halike key
    have hkey' := halike key'
    generalize args.get key = o at ha hkey
    generalize args'.get key = o' at hkey ⊢
    generalize args.get key' = u at ha hkey'
    generalize args'.get key' = u' at hkey' ⊢
    cases hkey with
    | none =>
        exact h.alike c c' halike a ha
    | @some v v' hv =>
        cases hkey' with
        | none =>
            exact h.alike c c' halike a ha
        | @some w w' hw =>
            cases hx : v.asNum key with
            | error e =>
                dsimp only at ha
                rw [hx] at ha
                cases ha
            | ok x =>
                cases hy : w.asNum key' with
                | error e =>
                    dsimp only at ha
                    rw [hx, hy] at ha
                    cases ha
                | ok y =>
                    obtain ⟨x', hx'⟩ := asNum_alike hv hx
                    obtain ⟨y', hy'⟩ := asNum_alike hw hy
                    refine ⟨g x' y', ?_⟩
                    dsimp only
                    rw [hx', hy']
                    rfl

theorem reads_two (who : String) : Reads fun (_ : γ) args => two args who :=
  reads_both "x" "y" Prod.mk (reads_pair who)

end Reads

/-- Every process reads in this way. -/
theorem kernelProcess_reads {f : MathOps} {pid : String} {q : KernelProcess}
    (h : kernelProcess f pid = some q) : Reads fun (_ : Unit) => q.read := by
  have hone : ∀ who op, Reads fun (_ : Unit) => (ofOne who op).read := fun who op =>
    (reads_one who).bind (reads_ok fun (p : Unit × F64) _ => [p.2])
  have htwo : ∀ who stop op, Reads fun (_ : Unit) => (ofTwo who stop op).read :=
    fun who stop op => (reads_two who).bind (reads_ok fun (p : Unit × F64 × F64) _ => [p.2.1, p.2.2])
  have hbounds : ∀ who rest stop op,
      Reads fun (_ : Unit) => (ofBounds who ("apply: `" ++ rest) stop op).read :=
    fun who rest stop op => (reads_named "x" "data" _ ⟨rest, rfl⟩).bind
      ((reads_required who "min").bind ((reads_required who "max").bind
        (reads_ok fun (p : ((Unit × F64) × F64) × F64) _ => [p.1.1.2, p.1.2, p.2])))
  have hnamed : ∀ key other rest key' other' rest' op, Reads fun (_ : Unit) =>
      (ofNamed key other ("apply: `" ++ rest) key' other' ("apply: `" ++ rest') op).read :=
    fun key other rest key' other' rest' op => (reads_named key other _ ⟨rest, rfl⟩).bind
      ((reads_named key' other' _ ⟨rest', rfl⟩).bind
        (reads_ok fun (p : (Unit × F64) × F64) _ => [p.1.2, p.2]))
  unfold kernelProcess at h
  split at h <;> cases h <;>
    first
    | exact htwo _ _ _
    | exact hone _ _
    | skip
  · exact hnamed "base" "x" "power` needs `base` or `x`" "p" "y" "power` needs `p` or `y`" _
  · exact hnamed "x" "data" "log` needs `x` or `data`" "base" "y" "log` needs `base` or `y`" _
  · exact hbounds "clip" "clip` needs `x` or `data`" _ _
  · exact (reads_named "x" "data" _ ⟨"linear_scale_range` needs `x` or `data`", rfl⟩).bind
      ((reads_required _ "inputMin").bind ((reads_required _ "inputMax").bind
        ((reads_optional "outputMin" _).bind ((reads_optional "outputMax" _).bind
          (reads_ok fun (p : ((((Unit × F64) × F64) × F64) × F64) × F64) _ =>
            [p.1.1.1.1.2, p.1.1.1.2, p.1.1.2, p.1.2, p.2])))))
  · exact (reads_one "round").bind (reads_ok fun (p : Unit × F64) args =>
      [p.2, match args.get "p" with
        | some (.num p) => p
        | _ => .finite 0])
  · exact hbounds "between" "between` needs `x`" _ _
  · exact reads_both "y" "x" (fun y x => [y, x])
      ((reads_two "arctan2").bind (reads_ok fun (p : Unit × F64 × F64) _ => [p.2.1, p.2.2]))

end ApplyKernel
end OrbitOpenEO
