import OrbitOpenEO.RouteSecurity

/-!
# Enforcement against the specification

Three views of a route meet in `enforce`: the operation of the document, the handler
that the router gives the request to, and the method and matched path of the request.
Where they agree and the operation states its own security, a request passes exactly with
the credentials of the policy, whichever scheme the operation asks for.
-/

namespace OrbitOpenEO

/-- A handler of the router: where it is mounted, and the path and the key of the
operation that it implements. -/
structure RouteHandler where
  template : String
  method : String
  operation : String × String

/-- The handler that gets a request; those for `GET` also serve `HEAD`. -/
def dispatch (router : List RouteHandler) (req : HttpRequest) : Option RouteHandler :=
  match req.matchedPath with
  | none => none
  | some template =>
      match router.find? fun h => h.template == template && h.method == req.method with
      | some h => some h
      | none =>
          if req.method = "HEAD" then
            router.find? fun h => h.template == template && h.method == "GET"
          else none

/-- The header holds valid credentials for all schemes of one of the alternatives. -/
def Satisfies (doc : OpenApiDocument) (policy : AuthPolicy) (alternatives : List (List String))
    (header : Option String) : Prop :=
  ∃ h, header = some h ∧ ∃ alt ∈ alternatives, ∀ name ∈ alt, ∃ scheme,
    doc.schemeOf name = some scheme ∧ policy.Authenticates scheme h

/-- If the handler of an operation without an empty alternative gets the request past the
layer, then the request satisfies one of the alternatives. -/
def FollowsSpecification (doc : OpenApiDocument) (policy : AuthPolicy)
    (router : List RouteHandler) (req : HttpRequest) : Prop :=
  ∀ handler op map, dispatch router req = some handler →
    doc.operation handler.operation.1 handler.operation.2 = some op →
    [] ∉ doc.effectiveSecurity op →
    RouteSecurityMap.fromSpec doc.spec = .ok map →
    enforce map policy req = .ok () →
    Satisfies doc policy (doc.effectiveSecurity op) req.header

/-- An operation that states security of its own, without an empty alternative. -/
def StatesSecurity (op : Json) : Prop :=
  ∃ s, op.get "security" = some s ∧ requirements s ≠ [] ∧ [] ∉ requirements s

/-- The request comes in by the method and on the path of an operation; the method is one of
those that `from_spec` reads, which passes `TRACE` over. -/
def ComesAsDeclared (req : HttpRequest) (path key : String) : Prop :=
  req.matchedPath = some path ∧ req.method = toUppercase key ∧ req.method ∈ specMethods

/-- No method name changes in upper case. -/
theorem toUppercase_specMethods : ∀ m ∈ specMethods, toUppercase m = m := by decide

theorem requirements_operationSecurity {doc : OpenApiDocument} {path key : String} {op s : Json}
    (hop : doc.operation path key = some op) (hs : op.get "security" = some s) :
    (operationSecurity op).alternatives = requirements s := by
  obtain ⟨hkey, fields, hpath, hmem⟩ := (doc.operation_eq_some_iff).mp hop
  have hwf := doc.items_security path fields hpath key op hmem hkey s hs
  unfold operationSecurity
  rw [hs]
  cases s with
  | arr rs => exact parseSecurityArray_eq hwf
  | _ => exact hwf.elim

/-- An operation that states its security gates the requests that come as declared. -/
theorem gated_of_statesSecurity {doc : OpenApiDocument} {map : RouteSecurityMap}
    {req : HttpRequest} {path key : String} {op : Json}
    (hmap : RouteSecurityMap.fromSpec doc.spec = .ok map)
    (hop : doc.operation path key = some op)
    (hreq : ComesAsDeclared req path key) (hsec : StatesSecurity op) : Gated map req := by
  obtain ⟨hpath, hmethod, hspec⟩ := hreq
  obtain ⟨s, hs, hne, hempty⟩ := hsec
  have hupper := toUppercase_specMethods req.method hspec
  refine ⟨path, operationSecurity op, hpath, ?_, ?_⟩
  · rw [doc.get_fromSpec hmap]
    exact ⟨key, op, hop, by rw [hupper, hmethod], by rwa [hupper], rfl⟩
  · rw [isPublic_eq_false_iff, requirements_operationSecurity hop hs]
    exact ⟨hne, hempty⟩

/-- Such a request, whatever handler it goes to, passes exactly with valid credentials of
the policy. -/
theorem enforce_declared {doc : OpenApiDocument} {policy : AuthPolicy} {map : RouteSecurityMap}
    {req : HttpRequest} {path key : String} {op : Json} (hpolicy : policy ≠ .openAccess)
    (hmap : RouteSecurityMap.fromSpec doc.spec = .ok map)
    (hop : doc.operation path key = some op)
    (hreq : ComesAsDeclared req path key) (hsec : StatesSecurity op) :
    enforce map policy req = .ok () ↔
      ∃ h, req.header = some h ∧ ∃ scheme, policy.Authenticates scheme h := by
  have hgated := gated_of_statesSecurity hmap hop hreq hsec
  rw [enforce_eq_ok_iff hpolicy, AuthPolicy.check_eq_authenticated_iff hpolicy]
  exact or_iff_right (not_not.mpr hgated)

/-- An operation that takes Bearer tokens only. -/
def bearerOperation : Json := .obj [("security", .arr [.obj [("Bearer", .arr [])]])]

/-- A document with a default for operations that state no security. -/
def sampleDocument : OpenApiDocument where
  spec := .obj
    [("paths", .obj
      [("/jobs", .obj [("get", bearerOperation), ("trace", bearerOperation)]),
       ("/files/{path}", .obj [("get", bearerOperation)]),
       ("/me", .obj [("get", .obj [])])]),
     ("security", .arr [.obj [("Bearer", .arr [])]]),
     ("components", .obj [("securitySchemes", .obj
       [("Bearer", .obj [("type", .str "http"), ("scheme", .str "bearer")]),
        ("Basic", .obj [("type", .str "http"), ("scheme", .str "basic")])])])]
  paths :=
    [("/jobs", .obj [("get", bearerOperation), ("trace", bearerOperation)]),
     ("/files/{path}", .obj [("get", bearerOperation)]),
     ("/me", .obj [("get", .obj [])])]
  spec_paths := rfl
  paths_nodup := by decide
  items_nodup := by
    intro path fields h
    simp only [List.mem_cons, Prod.mk.injEq, Json.obj.injEq, List.not_mem_nil, or_false] at h
    rcases h with ⟨-, rfl⟩ | ⟨-, rfl⟩ | ⟨-, rfl⟩ <;> decide
  items_keys := by
    intro path fields h
    simp only [List.mem_cons, Prod.mk.injEq, Json.obj.injEq, List.not_mem_nil, or_false] at h
    rcases h with ⟨-, rfl⟩ | ⟨-, rfl⟩ | ⟨-, rfl⟩ <;> decide
  items_security := by
    intro path fields h key op hop _ s hs
    simp only [List.mem_cons, Prod.mk.injEq, Json.obj.injEq, List.not_mem_nil, or_false] at h
    have hop' : op = bearerOperation ∨ op = .obj [] := by
      rcases h with ⟨-, rfl⟩ | ⟨-, rfl⟩ | ⟨-, rfl⟩ <;>
        simp only [List.mem_cons, List.not_mem_nil, or_false, Prod.mk.injEq] at hop
      · exact .inl (hop.elim And.right And.right)
      · exact .inl hop.2
      · exact .inr hop.2
    rcases hop' with rfl | rfl
    · cases hs
      simp [IsSecurity]
    · cases hs
  spec_security := by
    intro s hs
    cases hs
    simp [IsSecurity]

def sampleRouter : List RouteHandler :=
  [⟨"/jobs", "GET", ("/jobs", "get")⟩, ⟨"/jobs", "TRACE", ("/jobs", "trace")⟩,
   ⟨"/files/{user_id}/{path}", "GET", ("/files/{path}", "get")⟩,
   ⟨"/me", "GET", ("/me", "get")⟩]

/-- The map of the sample document. -/
def sampleMap : RouteSecurityMap :=
  ⟨[(("GET", "/me"), ⟨[]⟩), (("GET", "/files/{path}"), ⟨[["Bearer"]]⟩),
    (("GET", "/jobs"), ⟨[["Bearer"]]⟩)]⟩

theorem fromSpec_sampleDocument :
    RouteSecurityMap.fromSpec sampleDocument.spec = .ok sampleMap := by
  rfl

/-- A request that holds a header text. -/
def requestWith (method template : String) (header : String) : HttpRequest :=
  ⟨method, some template, [header.toList.map fun c => UInt8.ofNat c.toNat]⟩

/-- The policy of a server with a token and one user. -/
def samplePolicy : AuthPolicy := .any (some "s3cret") (some ("a", "b"))

/-- A request by the declared method passes with the token. -/
theorem enforce_declared_jobs :
    enforce sampleMap samplePolicy (requestWith "GET" "/jobs" "Bearer s3cret") = .ok () := by
  have hop : sampleDocument.operation "/jobs" "get" = some bearerOperation := rfl
  refine (enforce_declared (by decide) fromSpec_sampleDocument hop
    ⟨rfl, by decide, by decide⟩ ?_).mpr ?_
  · exact ⟨_, rfl, by decide, by decide⟩
  · exact ⟨"Bearer s3cret", by decide, .bearer, "s3cret", rfl, by decide⟩

/-- Where Bearer is asked for, a header without the token satisfies nothing. -/
theorem not_satisfies {header : Option String} (h : header ≠ some "Bearer s3cret") :
    ¬ Satisfies sampleDocument samplePolicy [["Bearer"]] header := by
  rintro ⟨text, rfl, alt, halt, hall⟩
  rw [List.mem_singleton] at halt
  subst halt
  obtain ⟨scheme, hscheme, hauth⟩ := hall "Bearer" List.mem_cons_self
  have hbearer : scheme = .bearer := (Option.some.inj hscheme).symm
  subst hbearer
  obtain ⟨token, htoken, rfl⟩ := hauth
  cases htoken
  exact h rfl

/-- An operation for Bearer tokens that a request without the token gets to. -/
theorem not_followsSpecification (handler : RouteHandler) (op : Json) {req : HttpRequest}
    (hdispatch : dispatch sampleRouter req = some handler)
    (hop : sampleDocument.operation handler.operation.1 handler.operation.2 = some op)
    (hsec : sampleDocument.effectiveSecurity op = [["Bearer"]])
    (hpass : enforce sampleMap samplePolicy req = .ok ())
    (hheader : req.header ≠ some "Bearer s3cret") :
    ¬ FollowsSpecification sampleDocument samplePolicy sampleRouter req := by
  intro h
  have hsat := h handler op sampleMap hdispatch hop (by rw [hsec]; decide)
    fromSpec_sampleDocument hpass
  rw [hsec] at hsat
  exact not_satisfies hheader hsat

/-- Basic credentials open an operation that takes Bearer tokens only, and nothing is
asked for by `HEAD`, by `TRACE`, on a path that the router spells its own way, or under the
default of the document. -/
theorem unsatisfied_requests_pass :
    ¬ FollowsSpecification sampleDocument samplePolicy sampleRouter
        (requestWith "GET" "/jobs" "Basic YTpi") ∧
      ¬ FollowsSpecification sampleDocument samplePolicy sampleRouter
        ⟨"HEAD", some "/jobs", []⟩ ∧
      ¬ FollowsSpecification sampleDocument samplePolicy sampleRouter
        ⟨"TRACE", some "/jobs", []⟩ ∧
      ¬ FollowsSpecification sampleDocument samplePolicy sampleRouter
        ⟨"GET", some "/files/{user_id}/{path}", []⟩ ∧
      ¬ FollowsSpecification sampleDocument samplePolicy sampleRouter
        ⟨"GET", some "/me", []⟩ := by
  refine ⟨?_, ?_, ?_, ?_, ?_⟩
  · exact not_followsSpecification ⟨"/jobs", "GET", ("/jobs", "get")⟩ bearerOperation
      rfl rfl rfl rfl (by decide)
  · exact not_followsSpecification ⟨"/jobs", "GET", ("/jobs", "get")⟩ bearerOperation
      rfl rfl rfl rfl (by decide)
  · exact not_followsSpecification ⟨"/jobs", "TRACE", ("/jobs", "trace")⟩ bearerOperation
      rfl rfl rfl rfl (by decide)
  · exact not_followsSpecification ⟨"/files/{user_id}/{path}", "GET", ("/files/{path}", "get")⟩
      bearerOperation rfl rfl rfl rfl (by decide)
  · exact not_followsSpecification ⟨"/me", "GET", ("/me", "get")⟩ (.obj [])
      rfl rfl rfl rfl (by decide)

end OrbitOpenEO
