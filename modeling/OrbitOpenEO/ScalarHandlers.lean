import OrbitOpenEO.Callbacks
import OrbitOpenEO.Denotation

/-!
# The scalar processes of the registry

As nodes of a process graph the scalar processes read numbers and truth values from their
arguments under the names of the openEO specification.  A result that is not finite becomes
`null`.
-/

namespace OrbitOpenEO

/-- `Value::as_bool`. -/
def Json.asBool : Json → Option Bool
  | .bool b => some b
  | _ => none

/-- `Value::as_i64`. -/
def Json.asI64 : Json → Option Int
  | .num (.posInt n) => if n < 2 ^ 63 then some n else none
  | .num (.negInt n) => some n
  | _ => none

namespace GeoExecutor

/-- `arg_bool`. -/
def argBool (args : BTreeMap Json) (key : String) : Except ExecError Bool :=
  match (args.get key).bind Json.asBool with
  | some b => .ok b
  | none => .error (.invalidGraph s!"expected boolean `{key}` argument")

section Handlers

variable (f : MathOps)

/-- `unary_num_handler!`. -/
def unaryNumHandler (key : String) (op : F64 → F64) : ProcessHandler := fun args => do
  let x ← argNumber f.toFloatOps args key
  .ok (Json.ofF64 (op x))

/-- `binary_num_handler!`. -/
def binaryNumHandler (a b : String) (op : F64 → F64 → F64) : ProcessHandler := fun args => do
  let x ← argNumber f.toFloatOps args a
  let y ← argNumber f.toFloatOps args b
  .ok (Json.ofF64 (op x y))

/-- `cmp_handler!`. -/
def cmpHandler (cmp : F64 → F64 → Bool) : ProcessHandler := fun args => do
  let x ← argNumber f.toFloatOps args "x"
  let y ← argNumber f.toFloatOps args "y"
  .ok (.bool (cmp x y))

def absoluteHandler : ProcessHandler := unaryNumHandler f "x" F64.abs

def sqrtHandler : ProcessHandler := unaryNumHandler f "x" f.sqrt

def expHandler : ProcessHandler := unaryNumHandler f "p" f.exp

def lnHandler : ProcessHandler := unaryNumHandler f "x" f.ln

def sgnHandler : ProcessHandler := unaryNumHandler f "x" F64.signum

def floorHandler : ProcessHandler := unaryNumHandler f "x" f.floor

def ceilHandler : ProcessHandler := unaryNumHandler f "x" f.ceil

def intHandler : ProcessHandler := unaryNumHandler f "x" f.trunc

def cosHandler : ProcessHandler := unaryNumHandler f "x" f.cos

def sinHandler : ProcessHandler := unaryNumHandler f "x" f.sin

def tanHandler : ProcessHandler := unaryNumHandler f "x" f.tan

def arccosHandler : ProcessHandler := unaryNumHandler f "x" f.acos

def arcsinHandler : ProcessHandler := unaryNumHandler f "x" f.asin

def arctanHandler : ProcessHandler := unaryNumHandler f "x" f.atan

def powerHandler : ProcessHandler := binaryNumHandler f "base" "p" f.powf

def modHandler : ProcessHandler :=
  binaryNumHandler f "x" "y" fun x y => f.sub x (f.mul y (f.floor (f.div x y)))

def arctan2Handler : ProcessHandler := binaryNumHandler f "y" "x" f.atan2

def gtHandler : ProcessHandler := cmpHandler f fun x y => F64.lt y x

def gteHandler : ProcessHandler := cmpHandler f fun x y => F64.le y x

def ltHandler : ProcessHandler := cmpHandler f F64.lt

def lteHandler : ProcessHandler := cmpHandler f F64.le

/-- The equality of `EqHandler` and `NeqHandler`: exact, or up to `delta`. -/
def equalUpTo (delta : Option F64) (x y : F64) : Bool :=
  match delta with
  | some d => F64.le (f.sub x y).abs d
  | none => F64.feq x y

def eqHandler : ProcessHandler := fun args => do
  let x ← argNumber f.toFloatOps args "x"
  let y ← argNumber f.toFloatOps args "y"
  .ok (.bool (equalUpTo f ((args.get "delta").bind (Json.asF64 f.toFloatOps)) x y))

def neqHandler : ProcessHandler := fun args => do
  let x ← argNumber f.toFloatOps args "x"
  let y ← argNumber f.toFloatOps args "y"
  .ok (.bool (!equalUpTo f ((args.get "delta").bind (Json.asF64 f.toFloatOps)) x y))

/-- The bases that `LogHandler` refuses. -/
def badBase (base : F64) : Bool :=
  F64.le base (.finite 0) || F64.lt (f.sub base (.finite 1)).abs (.finite (1 / 2 ^ 52))

def logHandler : ProcessHandler := fun args => do
  let x ← argNumber f.toFloatOps args "x"
  let base ← argNumber f.toFloatOps args "base"
  if badBase f base then .error (.invalidGraph "log: base must be > 0 and != 1")
  else .ok (Json.ofF64 (f.log x base))

/-- `RoundHandler`.  The digits are a whole number, cut down to 32 bits. -/
def roundHandler : ProcessHandler := fun args => do
  let x ← argNumber f.toFloatOps args "x"
  let p := ((args.get "p").bind Json.asI64).getD 0
  let factor := f.tenPowi (f.ofInt (p.bmod (2 ^ 32)))
  .ok (Json.ofF64 (f.div (f.roundTiesEven (f.mul x factor)) factor))

def clipHandler : ProcessHandler := fun args => do
  let x ← argNumber f.toFloatOps args "x"
  let lo ← argNumber f.toFloatOps args "min"
  let hi ← argNumber f.toFloatOps args "max"
  let r ← ApplyKernel.clamp x lo hi
  .ok (Json.ofF64 r)

def normalizedDifferenceHandler : ProcessHandler := fun args => do
  let x ← argNumber f.toFloatOps args "x"
  let y ← argNumber f.toFloatOps args "y"
  if (f.add x y).isZero then .error (.invalidGraph "normalized_difference: x + y == 0")
  else .ok (Json.ofF64 (f.div (f.sub x y) (f.add x y)))

def betweenHandler : ProcessHandler := fun args => do
  let x ← argNumber f.toFloatOps args "x"
  let lo ← argNumber f.toFloatOps args "min"
  let hi ← argNumber f.toFloatOps args "max"
  let excludeMax := ((args.get "exclude_max").bind Json.asBool).getD false
  .ok (.bool (F64.le lo x && if excludeMax then F64.lt x hi else F64.le x hi))

/-- `AndHandler`.  The second operand is only read where the first one is true. -/
def andHandler : ProcessHandler := fun args => do
  let x ← argBool args "x"
  let r ← if x then argBool args "y" else .ok false
  .ok (.bool r)

def orHandler : ProcessHandler := fun args => do
  let x ← argBool args "x"
  let r ← if x then .ok true else argBool args "y"
  .ok (.bool r)

def xorHandler : ProcessHandler := fun args => do
  let x ← argBool args "x"
  let y ← argBool args "y"
  .ok (.bool (x ^^ y))

def notHandler : ProcessHandler := fun args => do
  let x ← argBool args "x"
  .ok (.bool !x)

/-- The scalar processes in the order in which `register_defaults` registers them, after the four
arithmetic ones. -/
def scalarHandlers : List (String × ProcessHandler) :=
  [("absolute", absoluteHandler f), ("sqrt", sqrtHandler f), ("exp", expHandler f),
    ("ln", lnHandler f), ("log", logHandler f), ("power", powerHandler f), ("sgn", sgnHandler f),
    ("floor", floorHandler f), ("ceil", ceilHandler f), ("int", intHandler f),
    ("round", roundHandler f), ("mod", modHandler f), ("clip", clipHandler f),
    ("normalized_difference", normalizedDifferenceHandler f), ("cos", cosHandler f),
    ("sin", sinHandler f), ("tan", tanHandler f), ("arccos", arccosHandler f),
    ("arcsin", arcsinHandler f), ("arctan", arctanHandler f), ("arctan2", arctan2Handler f),
    ("eq", eqHandler f), ("neq", neqHandler f), ("gt", gtHandler f), ("gte", gteHandler f),
    ("lt", ltHandler f), ("lte", lteHandler f), ("between", betweenHandler f),
    ("and", andHandler), ("or", orHandler), ("xor", xorHandler), ("not", notHandler)]

/-- The numeric handlers of the registry. -/
def numericHandlers : List (String × ProcessHandler) :=
  [("add", addHandler f.toFloatOps), ("subtract", subtractHandler f.toFloatOps),
    ("multiply", multiplyHandler f.toFloatOps), ("divide", divideHandler f.toFloatOps)] ++
    scalarHandlers f

end Handlers

theorem get_registerAll_of_mem (handlerOf : String → ProcessHandler) {name : String} :
    ∀ {names : List String} {reg : ProcessRegistry}, name ∈ names →
      (registerAll handlerOf names reg).get name = some (handlerOf name)
  | n :: names, reg, h => by
      change (registerAll handlerOf names (reg.register n (handlerOf n))).get name = _
      by_cases hmem : name ∈ names
      · exact get_registerAll_of_mem handlerOf hmem
      · have hn : name = n := (List.mem_cons.mp h).resolve_right hmem
        rw [get_registerAll_of_not_mem handlerOf hmem, ← hn, ProcessRegistry.get_register_self]

end GeoExecutor

end OrbitOpenEO
