import OrbitOpenEO.Credentials
import Mathlib.Data.List.Nodup
import Mathlib.Data.List.Pairwise
import Mathlib.Tactic.Common

/-!
# Security of the routes

`RouteSecurityMap` is filled from `paths.<path>.<method>.security` of the OpenAPI
document; `enforce` asks it about the method and the matched path of a request.

An `OpenApiDocument` is a JSON value with the shape that OpenAPI gives to a document.
For these the map has one entry for each operation, and `get_fromSpec` says which.
-/

namespace OrbitOpenEO

/-- `RouteSecurity`. -/
structure RouteSecurity where
  alternatives : List (List String)
deriving DecidableEq

/-- `RouteSecurity::is_public`. -/
def RouteSecurity.isPublic (s : RouteSecurity) : Bool :=
  s.alternatives.isEmpty || s.alternatives.any (fun a => a.isEmpty)

/-- `RouteSecurityMap`; an entry hides the later ones of its key. -/
structure RouteSecurityMap where
  byKey : List ((String × String) × RouteSecurity)

/-- `SecurityMapError`, without the parse errors of the JSON text. -/
inductive SecurityMapError where
  | noPaths
deriving DecidableEq

/-- `char::to_uppercase`.  Beyond ASCII only what can give a letter of a method name
matters, as the result is compared with these. -/
def upperChar (c : Char) : List Char :=
  if c = 'ı' then ['I']
  else if c = 'ſ' then ['S']
  else if c = 'ﬅ' ∨ c = 'ﬆ' then ['S', 'T']
  else [c.toUpper]

/-- `str::to_uppercase`. -/
def toUppercase (s : String) : String := String.ofList (s.toList.flatMap upperChar)

/-- The methods that `from_spec` knows. -/
def specMethods : List String := ["GET", "POST", "PUT", "PATCH", "DELETE", "HEAD", "OPTIONS"]

/-- `parse_security_array`. -/
def parseSecurityArray (arr : List Json) : List (List String) :=
  arr.filterMap fun
    | .obj alt => some (alt.map Prod.fst)
    | _ => none

/-- The alternatives that `from_spec` takes from an operation. -/
def operationSecurity (op : Json) : RouteSecurity :=
  match op.get "security" with
  | some (.arr a) => ⟨parseSecurityArray a⟩
  | _ => ⟨[]⟩

/-- The entries of a path item. -/
def pathEntries (path : String) (ops : Json) : List ((String × String) × RouteSecurity) :=
  match ops with
  | .obj fields =>
      fields.filterMap fun (method, op) =>
        if toUppercase method ∈ specMethods then
          some ((toUppercase method, path), operationSecurity op)
        else none
  | _ => []

namespace RouteSecurityMap

/-- The insertions of a loop, one after another. -/
def insertAll (map : RouteSecurityMap) (entries : List ((String × String) × RouteSecurity)) :
    RouteSecurityMap :=
  entries.foldl (fun map e => ⟨e :: map.byKey⟩) map

/-- `RouteSecurityMap::from_spec`. -/
def fromSpec (spec : Json) : Except SecurityMapError RouteSecurityMap :=
  match spec.get "paths" with
  | some (.obj paths) =>
      .ok (paths.foldl (fun map e => map.insertAll (pathEntries e.1 e.2)) ⟨[]⟩)
  | _ => .error .noPaths

/-- `RouteSecurityMap::get`. -/
def get (map : RouteSecurityMap) (method pathTemplate : String) : Option RouteSecurity :=
  map.byKey.lookup (toUppercase method, pathTemplate)

end RouteSecurityMap

/-- What the router and the layer see of a request: the method, the matched path, the
values of the `Authorization` header. -/
structure HttpRequest where
  method : String
  matchedPath : Option String
  authorization : List (List UInt8)
deriving DecidableEq

/-- `HeaderValue::to_str`: visible ASCII and tabs. -/
def headerToStr (value : List UInt8) : Option String :=
  if value.all fun b => b.toNat == 9 || (decide (32 ≤ b.toNat) && decide (b.toNat < 127)) then
    some (String.ofList (value.map fun b => Char.ofNat b.toNat))
  else none

/-- The text of the first `Authorization` header. -/
def HttpRequest.header (req : HttpRequest) : Option String := req.authorization.head?.bind headerToStr

/-- `unauthorized`. -/
def unauthorized (msg : String) : JsonResponse :=
  ⟨401, .obj [("code", .str "AuthenticationRequired"), ("message", .str msg)]⟩

/-- `enforce`; `ok` when the request goes on to its handler. -/
def enforce (routes : RouteSecurityMap) (policy : AuthPolicy) (req : HttpRequest) :
    Except JsonResponse Unit :=
  let routeSec := req.matchedPath.bind fun p => routes.get req.method p
  if routeSec.elim true RouteSecurity.isPublic then .ok ()
  else
    match policy.check req.header with
    | .authenticated => .ok ()
    | .openAccess => .ok ()
    | .missing => .error (unauthorized "missing Authorization header")
    | .badScheme => .error (unauthorized "unsupported Authorization scheme")
    | .badCredentials => .error (unauthorized "invalid credentials")

/-- The map has an entry for the request that is not public. -/
def Gated (routes : RouteSecurityMap) (req : HttpRequest) : Prop :=
  ∃ template sec, req.matchedPath = some template ∧
    routes.get req.method template = some sec ∧ sec.isPublic = false

theorem isPublic_eq_false_iff (s : RouteSecurity) :
    s.isPublic = false ↔ s.alternatives ≠ [] ∧ [] ∉ s.alternatives := by
  simp only [RouteSecurity.isPublic, Bool.or_eq_false_iff, List.isEmpty_eq_false_iff,
    List.any_eq_false, List.isEmpty_iff]
  refine and_congr_right fun _ => ?_
  exact ⟨fun h hmem => h [] hmem rfl, fun h a ha hnil => h (hnil ▸ ha)⟩

theorem public_of_not_gated {routes : RouteSecurityMap} {req : HttpRequest} (h : ¬ Gated routes req) :
    ((req.matchedPath.bind fun p => routes.get req.method p).elim true
      RouteSecurity.isPublic) = true := by
  by_contra hpublic
  rw [Bool.not_eq_true] at hpublic
  cases hpath : req.matchedPath with
  | none => simp [hpath] at hpublic
  | some template =>
      rw [hpath, Option.bind_some] at hpublic
      cases hget : routes.get req.method template with
      | none => simp [hget] at hpublic
      | some sec =>
          rw [hget] at hpublic
          exact h ⟨template, sec, hpath, hget, hpublic⟩

/-- A request goes on to its handler if nothing gates it, or else with valid credentials. -/
theorem enforce_eq_ok_iff {routes : RouteSecurityMap} {policy : AuthPolicy}
    (hpolicy : policy ≠ .openAccess) (req : HttpRequest) :
    enforce routes policy req = .ok () ↔
      ¬ Gated routes req ∨ policy.check req.header = .authenticated := by
  by_cases hgated : Gated routes req
  · obtain ⟨template, sec, hpath, hget, hsec⟩ := hgated
    have hno := AuthPolicy.check_ne_openAccess hpolicy req.header
    have hg : Gated routes req := ⟨template, sec, hpath, hget, hsec⟩
    simp only [enforce, hpath, Option.bind_some, hget, Option.elim_some, hsec,
      Bool.false_eq_true, if_false, hg, not_true_eq_false, false_or]
    cases hout : policy.check req.header with
    | openAccess => exact absurd hout hno
    | authenticated => simp
    | missing => simp
    | badScheme => simp
    | badCredentials => simp
  · simp only [enforce, public_of_not_gated hgated, if_true, hgated, not_false_eq_true, true_or]

/-- The operations that a path item can have. -/
def operationKeys : List String :=
  ["get", "put", "post", "delete", "options", "head", "patch", "trace"]

/-- The value of `security`: a list of requirements, each of which names schemes. -/
def IsSecurity : Json → Prop
  | .arr requirements => ∀ r ∈ requirements, ∃ fields, r = .obj fields
  | _ => False

/-- An OpenAPI document.  Objects have no repeated keys, a field of a path item whose
name is a method up to case is an operation, and `security` is a list of objects. -/
structure OpenApiDocument where
  spec : Json
  paths : List (String × Json)
  spec_paths : spec.get "paths" = some (.obj paths)
  paths_nodup : (paths.map Prod.fst).Nodup
  items_nodup : ∀ path fields, (path, Json.obj fields) ∈ paths → (fields.map Prod.fst).Nodup
  items_keys : ∀ path fields, (path, Json.obj fields) ∈ paths → ∀ key ∈ fields.map Prod.fst,
    toUppercase key ∈ specMethods → key ∈ operationKeys
  items_security : ∀ path fields, (path, Json.obj fields) ∈ paths → ∀ key op, (key, op) ∈ fields →
    key ∈ operationKeys → ∀ s, op.get "security" = some s → IsSecurity s
  spec_security : ∀ s, spec.get "security" = some s → IsSecurity s

/-- The names in a value of `security`. -/
def requirements : Json → List (List String)
  | .arr rs =>
      rs.map fun
        | .obj fields => fields.map Prod.fst
        | _ => []
  | _ => []

theorem parseSecurityArray_eq {rs : List Json} (h : IsSecurity (.arr rs)) :
    parseSecurityArray rs = requirements (.arr rs) := by
  induction rs with
  | nil => rfl
  | cons r rs ih =>
      obtain ⟨⟨fields, rfl⟩, hrs⟩ := List.forall_mem_cons.mp h
      have htail := ih hrs
      simp only [parseSecurityArray, requirements, List.filterMap_cons, List.map_cons,
        List.cons.injEq, true_and] at htail ⊢
      exact htail

/-- Of the operation keys, each stands for its own method. -/
theorem toUppercase_inj_operationKeys : ∀ k ∈ operationKeys, ∀ k' ∈ operationKeys,
    toUppercase k = toUppercase k' → k = k' := by decide

namespace OpenApiDocument

variable (doc : OpenApiDocument)

/-- The operation of a document under a path and an operation key. -/
def operation (path key : String) : Option Json :=
  if key ∈ operationKeys then
    match doc.paths.lookup path with
    | some (.obj fields) => fields.lookup key
    | _ => none
  else none

/-- The security of an operation: its own, else that of the document.  Without any
requirement there is one alternative, with no scheme. -/
def effectiveSecurity (op : Json) : List (List String) :=
  let declared :=
    match op.get "security", doc.spec.get "security" with
    | some s, _ => requirements s
    | none, some s => requirements s
    | none, none => []
  if declared = [] then [[]] else declared

/-- The kind of the scheme that a document declares under a name. -/
def schemeOf (name : String) : Option AuthPolicy.Scheme :=
  match ((doc.spec.get "components").bind fun c => c.get "securitySchemes").bind
      fun s => s.get name with
  | some declared =>
      match (declared.get "type").bind Json.asStr, (declared.get "scheme").bind Json.asStr with
      | some "http", some scheme =>
          if toUppercase scheme = "BEARER" then some .bearer
          else if toUppercase scheme = "BASIC" then some .basic
          else none
      | _, _ => none
  | none => none

theorem insertAll_byKey (entries : List ((String × String) × RouteSecurity)) :
    ∀ map : RouteSecurityMap, (map.insertAll entries).byKey = entries.reverse ++ map.byKey := by
  induction entries with
  | nil => exact fun _ => rfl
  | cons e entries ih =>
      intro map
      rw [List.reverse_cons, List.append_assoc]
      exact ih ⟨e :: map.byKey⟩

/-- The map holds the entries of all path items. -/
theorem mem_byKey_foldl {e : (String × String) × RouteSecurity} (paths : List (String × Json)) :
    ∀ map : RouteSecurityMap,
      e ∈ (paths.foldl (fun map p => map.insertAll (pathEntries p.1 p.2)) map).byKey ↔
        e ∈ map.byKey ∨ ∃ p ∈ paths, e ∈ pathEntries p.1 p.2 := by
  induction paths with
  | nil => simp
  | cons p paths ih =>
      intro map
      rw [List.foldl_cons, ih, insertAll_byKey, List.mem_append, List.mem_reverse,
        List.exists_mem_cons_iff]
      tauto

theorem mem_pathEntries_iff {method template path : String} {sec : RouteSecurity} {ops : Json} :
    ((method, template), sec) ∈ pathEntries path ops ↔
      ∃ fields key op, ops = .obj fields ∧ (key, op) ∈ fields ∧ toUppercase key ∈ specMethods ∧
        toUppercase key = method ∧ path = template ∧ operationSecurity op = sec := by
  cases ops with
  | obj fields =>
      simp only [pathEntries, List.mem_filterMap, Prod.exists, Option.ite_none_right_eq_some,
        Option.some.injEq, Prod.mk.injEq, Json.obj.injEq]
      constructor
      · rintro ⟨key, op, hmem, hmethod, ⟨rfl, rfl⟩, rfl⟩
        exact ⟨fields, key, op, rfl, hmem, hmethod, rfl, rfl, rfl⟩
      · rintro ⟨_, key, op, rfl, hmem, hmethod, rfl, rfl, rfl⟩
        exact ⟨key, op, hmem, hmethod, ⟨rfl, rfl⟩, rfl⟩
  | _ => simp [pathEntries]

/-- Where equal keys have equal values, a lookup is a search for the entry. -/
theorem lookup_eq_some_iff_mem_of_functional {κ ν : Type} [BEq κ] [LawfulBEq κ]
    {entries : List (κ × ν)} {k : κ} {v : ν}
    (h : ∀ v v', (k, v) ∈ entries → (k, v') ∈ entries → v = v') :
    entries.lookup k = some v ↔ (k, v) ∈ entries := by
  have hsound : ∀ v, entries.lookup k = some v → (k, v) ∈ entries :=
    fun _ hv => mem_of_lookup_eq_some hv
  constructor
  · exact hsound v
  · intro hmem
    cases hlookup : entries.lookup k with
    | none =>
        have hne := List.lookup_eq_none_iff.mp hlookup (k, v) hmem
        simp at hne
    | some v' => rw [h v' v (hsound v' hlookup) hmem]

theorem operation_eq_some_iff {path key : String} {op : Json} :
    doc.operation path key = some op ↔
      key ∈ operationKeys ∧ ∃ fields, (path, Json.obj fields) ∈ doc.paths ∧ (key, op) ∈ fields := by
  have hpaths : ∀ ops, doc.paths.lookup path = some ops ↔ (path, ops) ∈ doc.paths := fun ops =>
    BTreeMap.lookup_eq_some_iff_mem doc.paths_nodup
  unfold operation
  by_cases hkey : key ∈ operationKeys
  · simp only [hkey, if_true, true_and]
    constructor
    · intro h
      split at h
      · rename_i fields hlookup
        have hmem := (hpaths _).mp hlookup
        refine ⟨fields, hmem, ?_⟩
        exact (BTreeMap.lookup_eq_some_iff_mem (doc.items_nodup path fields hmem)).mp h
      · cases h
    · rintro ⟨fields, hmem, hop⟩
      rw [(hpaths _).mpr hmem]
      exact (BTreeMap.lookup_eq_some_iff_mem (doc.items_nodup path fields hmem)).mpr hop
  · simp [hkey]

theorem fields_unique {path : String} {fields fields' : List (String × Json)}
    (h : (path, Json.obj fields) ∈ doc.paths) (h' : (path, Json.obj fields') ∈ doc.paths) :
    fields = fields' := by
  rw [← BTreeMap.lookup_eq_some_iff_mem doc.paths_nodup] at h h'
  rw [h] at h'
  exact Json.obj.inj (Option.some.inj h')

theorem op_unique {path key : String} {fields : List (String × Json)} {op op' : Json}
    (hfields : (path, Json.obj fields) ∈ doc.paths) (h : (key, op) ∈ fields)
    (h' : (key, op') ∈ fields) : op = op' := by
  rw [← BTreeMap.lookup_eq_some_iff_mem (doc.items_nodup path fields hfields)] at h h'
  rw [h] at h'
  exact Option.some.inj h'

/-- The map of a document has the security of its operations, and nothing else. -/
theorem get_fromSpec {map : RouteSecurityMap} (h : RouteSecurityMap.fromSpec doc.spec = .ok map)
    (method template : String) (sec : RouteSecurity) :
    map.get method template = some sec ↔
      ∃ key op, doc.operation template key = some op ∧ toUppercase key = toUppercase method ∧
        toUppercase method ∈ specMethods ∧ operationSecurity op = sec := by
  have hmap : map = doc.paths.foldl (fun map e => map.insertAll (pathEntries e.1 e.2)) ⟨[]⟩ := by
    unfold RouteSecurityMap.fromSpec at h
    rw [doc.spec_paths] at h
    exact (Except.ok.inj h).symm
  have hmem : ∀ sec, ((toUppercase method, template), sec) ∈ map.byKey ↔
      ∃ key op, doc.operation template key = some op ∧ toUppercase key = toUppercase method ∧
        toUppercase method ∈ specMethods ∧ operationSecurity op = sec := by
    intro sec
    rw [hmap, mem_byKey_foldl]
    simp only [List.not_mem_nil, false_or, Prod.exists, mem_pathEntries_iff,
      operation_eq_some_iff]
    constructor
    · rintro ⟨path, ops, hpath, fields, key, op, rfl, hop, hmethod, hkey, rfl, hsec⟩
      have hoperation := doc.items_keys path fields hpath key (List.mem_map_of_mem hop) hmethod
      exact ⟨key, op, ⟨hoperation, fields, hpath, hop⟩, hkey, hkey ▸ hmethod, hsec⟩
    · rintro ⟨key, op, ⟨-, fields, hpath, hop⟩, hkey, hmethod, hsec⟩
      exact ⟨template, _, hpath, fields, key, op, rfl, hop, hkey ▸ hmethod, hkey, rfl, hsec⟩
  rw [RouteSecurityMap.get, lookup_eq_some_iff_mem_of_functional, hmem]
  intro sec₁ sec₂ h₁ h₂
  obtain ⟨key₁, op₁, hop₁, hkey₁, -, rfl⟩ := (hmem sec₁).mp h₁
  obtain ⟨key₂, op₂, hop₂, hkey₂, -, rfl⟩ := (hmem sec₂).mp h₂
  obtain ⟨hin₁, fields₁, hpath₁, hmem₁⟩ := (doc.operation_eq_some_iff).mp hop₁
  obtain ⟨hin₂, fields₂, hpath₂, hmem₂⟩ := (doc.operation_eq_some_iff).mp hop₂
  have hkey := toUppercase_inj_operationKeys _ hin₁ _ hin₂ (hkey₁.trans hkey₂.symm)
  subst hkey
  rw [doc.fields_unique hpath₁ hpath₂] at hmem₁
  rw [doc.op_unique hpath₂ hmem₁ hmem₂]

end OpenApiDocument

end OrbitOpenEO
