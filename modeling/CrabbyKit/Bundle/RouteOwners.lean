import CrabbyKit.Core.Split
import CrabbyKit.Core.UriComponent
import CrabbyKit.Registry.Memory

/-!
# HTTP routes of a bundle

`validateHttpRoutes` of `bundle-sdk/src/validate.ts` and `matchPathPattern` of
`agent-runtime-helpers.ts`: routes are compared as texts when a bundle declares them, and matched
segment by segment when a request comes.
-/

namespace CrabbyKit.Bundle

open List

open BundleRegistry (RouteSpec validateBundleRoutesAgainstKnownRoutes)

/-- `BundleRouteDeclaration`. -/
structure BundleRoute where
  method : String
  path : String
  capabilityId : String
  deriving DecidableEq, Repr

def reservedPathPrefixes : List String :=
  ["/bundle/", "/a2a-callback", "/a2a", "/.well-known/", "/__", "/mcp/", "/schedules"]

def reservedPathLiterals : List String := ["/", "/prompt", "/schedules"]

def allowedHttpMethods : List String := ["GET", "POST", "PUT", "DELETE"]

def maxPathLength : Nat := 256

/-- What is thrown when a bundle is defined. -/
inductive DefinitionError
  | typeError (message : String)
  | rangeError (message : String)
  deriving DecidableEq, Repr

namespace BundleRoute

/-- The route as it is looked for among those of the host. -/
def spec (route : BundleRoute) : RouteSpec := ⟨route.method, route.path⟩

/-- `method:path` -/
def key (route : BundleRoute) : String := route.spec.key

def toJson (route : BundleRoute) : Json :=
  .obj [("method", .str route.method), ("path", .str route.path),
    ("capabilityId", .str route.capabilityId)]

def capLabel (route : BundleRoute) : String :=
  if route.capabilityId = "" then "" else " (capability \"" ++ route.capabilityId ++ "\")"

def check (route : BundleRoute) (seen : List String) : Except DefinitionError Unit :=
  let label := "Bundle route" ++ route.capLabel
  if route.method ∉ allowedHttpMethods then
    .error (.typeError (label ++ " declares unsupported method \"" ++ route.method ++
      "\" — allowed: GET, POST, PUT, DELETE"))
  else if route.path = "" then
    .error (.typeError (label ++ " must declare a non-empty path string"))
  else if route.path.toList.head? ≠ some '/' then
    .error (.typeError (label ++ " path \"" ++ route.path ++ "\" must start with a leading \"/\""))
  else if maxPathLength < textLength route.path then
    .error (.rangeError (label ++ " path \"" ++ route.path ++ "\" exceeds " ++
      toString maxPathLength ++ " characters"))
  else if route.path ∈ reservedPathLiterals then
    .error (.typeError (label ++ " path \"" ++ route.path ++
      "\" is a reserved host literal — choose a non-reserved path"))
  else
    match reservedPathPrefixes.find? fun reserved =>
      reserved.toList.isPrefixOf route.path.toList with
    | some reserved =>
      .error (.typeError (label ++ " path \"" ++ route.path ++
        "\" starts with reserved prefix \"" ++ reserved ++ "\""))
    | none =>
      if route.key ∈ seen then
        .error (.typeError (label ++ " duplicates an earlier declaration of \"" ++ route.method ++
          " " ++ route.path ++ "\" — each method+path pair may appear only once"))
      else .ok ()

end BundleRoute

/-- The loop of `validateHttpRoutes`. -/
def validateRoutesFrom (seen : List String) : List BundleRoute → Except DefinitionError Unit
  | [] => .ok ()
  | route :: rest => do
    route.check seen
    validateRoutesFrom (route.key :: seen) rest

def validateHttpRoutes (routes : List BundleRoute) : Except DefinitionError Unit :=
  validateRoutesFrom [] routes

/-- What `decodeURIComponent` throws. -/
inductive UriError
  | malformed
  deriving DecidableEq, Repr

/-- `Record<string, string>`. -/
abbrev Params := List Char → Option (List Char)

/-- `params[name] = value`; to set `__proto__` to a text has no effect. -/
def setParam (params : Params) (name value : List Char) : Params :=
  if name = "__proto__".toList then params else Function.update params name (some value)

/-- `path.split("/")` -/
def segments (path : String) : List (List Char) := path.toList.splitOn '/'

/-- `p.startsWith(":")` -/
def isParameter (segment : List Char) : Bool := segment.head? = some ':'

/-- The loop of `matchPathPattern`. -/
def matchSegments (params : Params) :
    List (List Char) → List (List Char) → Except UriError (Option Params)
  | p :: patternSegments, v :: pathSegments =>
    if isParameter p then
      if v = [] then .ok none
      else
        match decodeURIComponent v with
        | none => .error .malformed
        | some value => matchSegments (setParam params p.tail value) patternSegments pathSegments
    else if p ≠ v then .ok none
    else matchSegments params patternSegments pathSegments
  | _, _ => .ok (some params)

def matchPathPattern (pattern pathname : String) : Except UriError (Option Params) :=
  if (segments pattern).length ≠ (segments pathname).length then .ok none
  else matchSegments (fun _ => none) (segments pattern) (segments pathname)

/-- `params[name]`, of which `__proto__` alone is inherited, as a text. -/
def readParam (params : Params) (name : List Char) : List Char :=
  (params name).getD "[object Object]".toList

/-- The path that a pattern and parameters give, which are percent-encoded. -/
def substitute (pattern : String) (params : Params) : String :=
  String.ofList (['/'].intercalate ((segments pattern).map fun p =>
    if isParameter p then encodeURIComponent (readParam params p.tail) else p))

/-!
# Who owns a request

Accepted routes differ as texts. A request belongs to two of them exactly when one of the patterns
has a parameter where the other has another segment, so that the patterns overlap.
-/

/-- A segment of a path is matched by one of a pattern. -/
def Takes (p v : List Char) : Prop :=
  if isParameter p then v ≠ [] ∧ (decodeURIComponent v).isSome else p = v

def Matched (pattern pathname : String) : Prop :=
  ∃ params, matchPathPattern pattern pathname = .ok (some params)

variable {ps vs : List (List Char)}

theorem matchSegments_iff (same : ps.length = vs.length) (params : Params) :
    (∃ out, matchSegments params ps vs = .ok (some out)) ↔ Forall₂ Takes ps vs := by
  induction ps generalizing vs params with
  | nil =>
    obtain rfl := eq_nil_of_length_eq_zero same.symm
    exact ⟨fun _ => .nil, fun _ => ⟨params, rfl⟩⟩
  | cons p ps ih =>
    cases vs with
    | nil => cases same
    | cons v vs =>
      have same := Nat.succ.inj same
      rw [forall₂_cons, matchSegments, Takes]
      split
      · split
        · next empty => simp [empty]
        · next filled =>
          cases decoded : decodeURIComponent v with
          | none => simp
          | some value => simpa [filled] using ih same _
      · split
        · next other => simp [other]
        · next equal => simpa [not_not.mp equal] using ih same params

theorem matched_iff (pattern pathname : String) :
    Matched pattern pathname ↔ Forall₂ Takes (segments pattern) (segments pathname) := by
  unfold Matched matchPathPattern
  split
  · next other =>
    refine iff_of_false ?_ fun h => other h.length_eq
    rintro ⟨params, h⟩
    cases h
  · next same => exact matchSegments_iff (not_not.mp same) _

theorem segments_intercalate (free : ∀ v ∈ vs, '/' ∉ v)
    (nonempty : vs ≠ []) : segments (String.ofList (['/'].intercalate vs)) = vs := by
  rw [segments, String.toList_ofList]
  exact splitOn_intercalate '/' free nonempty

theorem segments_ne_nil (path : String) : segments path ≠ [] := splitOn_ne_nil _ _

theorem segments_injective {p q : String} (h : segments p = segments q) : p = q := by
  have joined := congrArg (['/'].intercalate ·) h
  simp only [segments, intercalate_splitOn] at joined
  exact String.toList_inj.mp joined

/-- Two segments take a segment in common: they are the same, or one of them is a parameter and the
other a parameter too or a text that can be decoded. -/
def Meet (p q : List Char) : Prop :=
  if isParameter p then isParameter q ∨ q ≠ [] ∧ (decodeURIComponent q).isSome
  else if isParameter q then p ≠ [] ∧ (decodeURIComponent p).isSome
  else p = q

/-- Patterns of one length whose segments meet. -/
def Overlap (p q : String) : Prop := List.Forall₂ Meet (segments p) (segments q)

theorem meet_iff {p q : List Char} (hp : '/' ∉ p) (hq : '/' ∉ q) :
    Meet p q ↔ ∃ v, '/' ∉ v ∧ Takes p v ∧ Takes q v := by
  unfold Meet Takes
  by_cases first : isParameter p = true
  · by_cases second : isParameter q = true
    · simp only [if_pos first, if_pos second]
      exact iff_of_true (.inl second) ⟨['x'], by decide, by decide, by decide⟩
    · simp only [if_pos first, if_neg second]
      constructor
      · intro h
        exact ⟨q, hq, h.resolve_left second, rfl⟩
      · rintro ⟨_, -, taken, rfl⟩
        exact .inr taken
  · by_cases second : isParameter q = true
    · simp only [if_neg first, if_pos second]
      constructor
      · intro h
        exact ⟨p, hp, rfl, h⟩
      · rintro ⟨_, -, rfl, taken⟩
        exact taken
    · simp only [if_neg first, if_neg second]
      constructor
      · intro h
        exact ⟨p, hp, rfl, h.symm⟩
      · rintro ⟨_, -, rfl, same⟩
        exact same.symm

theorem forall₂_meet_iff {qs : List (List Char)} (hp : ∀ p ∈ ps, '/' ∉ p)
    (hq : ∀ q ∈ qs, '/' ∉ q) : Forall₂ Meet ps qs ↔
      ∃ vs, (∀ v ∈ vs, '/' ∉ v) ∧ Forall₂ Takes ps vs ∧ Forall₂ Takes qs vs := by
  induction ps generalizing qs with
  | nil =>
    constructor
    · intro h
      cases h
      exact ⟨[], forall_mem_nil _, .nil, .nil⟩
    · rintro ⟨vs, -, first, second⟩
      cases first
      cases second
      exact .nil
  | cons p ps ih =>
    obtain ⟨freeP, restP⟩ := forall_mem_cons.mp hp
    constructor
    · intro h
      cases h with
      | cons here later =>
        obtain ⟨freeQ, restQ⟩ := forall_mem_cons.mp hq
        obtain ⟨v, free, one, two⟩ := (meet_iff freeP freeQ).mp here
        obtain ⟨vs, frees, ones, twos⟩ := (ih restP restQ).mp later
        exact ⟨v :: vs, forall_mem_cons.mpr ⟨free, frees⟩, .cons one ones, .cons two twos⟩
    · rintro ⟨vs, frees, first, second⟩
      cases first with
      | cons one ones =>
        cases second with
        | cons two twos =>
          obtain ⟨freeQ, restQ⟩ := forall_mem_cons.mp hq
          obtain ⟨free, frees⟩ := forall_mem_cons.mp frees
          exact .cons ((meet_iff freeP freeQ).mpr ⟨_, free, one, two⟩)
            ((ih restP restQ).mpr ⟨_, frees, ones, twos⟩)

theorem overlap_iff (p q : String) :
    Overlap p q ↔ ∃ pathname, Matched p pathname ∧ Matched q pathname := by
  have free (path : String) : ∀ v ∈ segments path, '/' ∉ v := fun _ => notMem_of_mem_splitOn
  rw [Overlap, forall₂_meet_iff (free p) (free q)]
  simp only [matched_iff]
  constructor
  · rintro ⟨vs, frees, first, second⟩
    refine ⟨String.ofList (['/'].intercalate vs), ?_⟩
    have nonempty : vs ≠ [] := by
      rintro rfl
      cases h : segments p with
      | nil => exact segments_ne_nil p h
      | cons p ps =>
        rw [h] at first
        cases first
    rw [segments_intercalate frees nonempty]
    exact ⟨first, second⟩
  · rintro ⟨pathname, first, second⟩
    exact ⟨segments pathname, free pathname, first, second⟩

theorem overlap_literal {p q : String} (hp : ∀ s ∈ segments p, isParameter s = false)
    (hq : ∀ s ∈ segments q, isParameter s = false) (h : Overlap p q) : p = q := by
  apply segments_injective
  unfold Overlap at h
  generalize segments p = ps at h hp
  generalize segments q = qs at h hq
  induction h with
  | nil => rfl
  | cons here later ih =>
    obtain ⟨plainP, restP⟩ := forall_mem_cons.mp hp
    obtain ⟨plainQ, restQ⟩ := forall_mem_cons.mp hq
    rw [Meet, plainP, plainQ] at here
    rw [ih restP restQ, show _ = _ from here]

structure Accepted (hosts : List RouteSpec) (routes : List BundleRoute) : Prop where
  declared : validateHttpRoutes routes = .ok ()
  promoted : validateBundleRoutesAgainstKnownRoutes (.arr (routes.map BundleRoute.toJson)) hosts =
    .ok []

/-- A request belongs to both. -/
def Shared (a b : RouteSpec) (method pathname : String) : Prop :=
  a.method = method ∧ b.method = method ∧ Matched a.path pathname ∧ Matched b.path pathname

/-- No request belongs to a handler and a route, or to two routes. -/
def OneOwner (hosts : List RouteSpec) (routes : List BundleRoute) : Prop :=
  (∀ host ∈ hosts, ∀ route ∈ routes, ∀ method pathname, ¬ Shared host route.spec method pathname) ∧
    routes.Pairwise fun a b => ∀ method pathname, ¬ Shared a.spec b.spec method pathname

theorem shared_iff (a b : RouteSpec) :
    (∃ method pathname, Shared a b method pathname) ↔
      a.method = b.method ∧ Overlap a.path b.path := by
  rw [overlap_iff]
  constructor
  · rintro ⟨_, pathname, rfl, same, matched⟩
    exact ⟨same.symm, pathname, matched⟩
  · rintro ⟨same, pathname, matched⟩
    exact ⟨a.method, pathname, rfl, same.symm, matched⟩

variable {route : BundleRoute} {seen : List String}

theorem BundleRoute.check_unseen (h : route.check seen = .ok ()) : route.key ∉ seen := by
  unfold check at h
  intro seenBefore
  split_ifs at h
  simp only at h
  split at h
  · cases h
  · cases h

variable {routes : List BundleRoute}

theorem keys_of_validateRoutesFrom (h : validateRoutesFrom seen routes = .ok ()) :
    (routes.map BundleRoute.key).Nodup ∧ ∀ key ∈ seen, key ∉ routes.map BundleRoute.key := by
  induction routes generalizing seen with
  | nil => exact ⟨nodup_nil, fun _ _ => not_mem_nil⟩
  | cons route rest ih =>
    rw [validateRoutesFrom] at h
    cases checked : route.check seen with
    | error e =>
      rw [checked] at h
      cases h
    | ok _ =>
      rw [checked] at h
      obtain ⟨distinct, unseen⟩ := ih h
      have new := BundleRoute.check_unseen checked
      rw [map_cons, nodup_cons]
      refine ⟨⟨unseen _ mem_cons_self, distinct⟩, fun key mem => ?_⟩
      rw [mem_cons, not_or]
      refine ⟨?_, unseen key (mem_cons_of_mem _ mem)⟩
      rintro rfl
      exact new mem

theorem firstRoutes_eq_nil {routes : List RouteSpec}
    (h : BundleRegistry.firstRoutes [] routes = []) : routes = [] := by
  cases routes with
  | nil => rfl
  | cons route rest =>
    rw [BundleRegistry.firstRoutes, if_neg not_mem_nil] at h
    cases h

theorem routeOf_toJson (route : BundleRoute) :
    BundleRegistry.routeOf route.toJson = some route.spec := by
  simp [BundleRegistry.routeOf, BundleRoute.toJson, BundleRoute.spec, Json.field, Json.asString]

variable {hosts : List RouteSpec}

theorem Accepted.host_ne (h : Accepted hosts routes) {host : RouteSpec} (hmem : host ∈ hosts)
    (rmem : route ∈ routes) : host ≠ route.spec := by
  rintro rfl
  have noneCollide := h.promoted
  have among : route.toJson ∈ routes.map BundleRoute.toJson := mem_map_of_mem rmem
  have routesNonempty := ne_nil_of_mem among
  have hostsNonempty := ne_nil_of_mem hmem
  have checked : (BundleRegistry.emptyList (some (.arr (routes.map BundleRoute.toJson))) ||
      hosts.isEmpty) = false := by
    rw [Bool.or_eq_false_iff, isEmpty_eq_false_iff]
    refine ⟨?_, hostsNonempty⟩
    generalize routes.map BundleRoute.toJson = entries at routesNonempty
    simp [BundleRegistry.emptyList, BundleRegistry.lengthOf, Json.truthy, routesNonempty]
  rw [validateBundleRoutesAgainstKnownRoutes, checked] at noneCollide
  have empty := firstRoutes_eq_nil (Except.ok.inj noneCollide)
  refine ne_nil_of_mem (a := route.spec) ?_ empty
  rw [mem_filter, mem_filterMap]
  refine ⟨⟨route.toJson, among, routeOf_toJson route⟩, ?_⟩
  exact decide_eq_true (mem_map_of_mem hmem)

theorem Accepted.pairwise_ne
    (h : Accepted hosts routes) : routes.Pairwise fun a b => a.spec ≠ b.spec := by
  have distinct := (keys_of_validateRoutesFrom h.declared).1
  rw [Nodup, pairwise_map] at distinct
  refine distinct.imp fun other same => other ?_
  rw [BundleRoute.key, BundleRoute.key, same]

/-- No parameter has the empty text. -/
def Filled (params : Params) : Prop := ∀ name value, params name = some value → value ≠ []

variable {params : Params}

theorem Filled.readParam (h : Filled params) (name : List Char) : readParam params name ≠ [] := by
  unfold CrabbyKit.Bundle.readParam
  cases found : params name with
  | none => decide
  | some value => exact h name value found

theorem Filled.setParam (h : Filled params) (name : List Char) {value : List Char}
    (filled : value ≠ []) : Filled (setParam params name value) := by
  unfold CrabbyKit.Bundle.setParam
  split
  · exact h
  · intro other found hfound
    by_cases same : other = name
    · subst same
      rw [Function.update_self] at hfound
      exact Option.some.inj hfound ▸ filled
    · rw [Function.update_of_ne same] at hfound
      exact h other found hfound

theorem filled_of_matchSegments {out : Params}
    (h : Filled params) (matched : matchSegments params ps vs = .ok (some out)) : Filled out := by
  induction ps generalizing vs params with
  | nil =>
    rw [matchSegments] at matched
    · cases matched
      exact h
    · simp
  | cons p ps ih =>
    cases vs with
    | nil =>
      rw [matchSegments] at matched
      · cases matched
        exact h
      · simp
    | cons v vs =>
      rw [matchSegments] at matched
      split at matched
      · split at matched
        · cases matched
        · next filled =>
          cases decoded : decodeURIComponent v with
          | none =>
            rw [decoded] at matched
            cases matched
          | some value =>
            rw [decoded] at matched
            refine ih (h.setParam _ ?_) matched
            rintro rfl
            exact filled (decodeURIComponent_nil decoded)
      · split at matched
        · cases matched
        · exact ih h matched

variable {pathname : String}

theorem matched_substitute {pattern : String}
    (h : matchPathPattern pattern pathname = .ok (some params)) :
    Matched pattern (substitute pattern params) := by
  have filled : Filled params := by
    unfold matchPathPattern at h
    split at h
    · cases h
    · exact filled_of_matchSegments (fun _ _ none => by cases none) h
  have free : ∀ v ∈ (segments pattern).map fun p =>
      if isParameter p then encodeURIComponent (readParam params p.tail) else p, '/' ∉ v := by
    intro v mem
    obtain ⟨p, among, rfl⟩ := mem_map.mp mem
    split
    · exact slash_notMem_encodeURIComponent _
    · exact notMem_of_mem_splitOn among
  rw [matched_iff, substitute,
    segments_intercalate free fun nil => segments_ne_nil pattern (map_eq_nil_iff.mp nil),
    forall₂_map_right_iff, forall₂_same]
  intro p _
  unfold Takes
  split
  · refine ⟨mt encodeURIComponent_eq_nil.mp (filled.readParam _), ?_⟩
    rw [decodeURIComponent_encodeURIComponent]
    rfl
  · rfl

theorem matchSegments_ok (h : ∀ v ∈ vs, (decodeURIComponent v).isSome)
    (params : Params) : ∃ out, matchSegments params ps vs = .ok out := by
  induction ps generalizing vs params with
  | nil => exact ⟨some params, by rw [matchSegments]; simp⟩
  | cons p ps ih =>
    cases vs with
    | nil => exact ⟨some params, by rw [matchSegments]; simp⟩
    | cons v vs =>
      obtain ⟨here, later⟩ := forall_mem_cons.mp h
      rw [matchSegments]
      split
      · split
        · exact ⟨none, rfl⟩
        · obtain ⟨value, decoded⟩ := Option.isSome_iff_exists.mp here
          rw [decoded]
          exact ih later _
      · split
        · exact ⟨none, rfl⟩
        · exact ih later params

theorem matchPathPattern_ok (pattern : String)
    (h : ∀ v ∈ segments pathname, (decodeURIComponent v).isSome) :
    ∃ out, matchPathPattern pattern pathname = .ok out := by
  unfold matchPathPattern
  split
  · exact ⟨none, rfl⟩
  · exact matchSegments_ok h _

/-- Two accepted owners are other texts, and they share requests exactly when they have one method
and their patterns overlap; a match gives back a path. -/
theorem routes_owners {hosts : List RouteSpec} {routes : List BundleRoute}
    (h : Accepted hosts routes) :
    (∀ host ∈ hosts, ∀ route ∈ routes, host ≠ route.spec) ∧
      (routes.Pairwise fun a b => a.spec ≠ b.spec) ∧
      (∀ a b : RouteSpec, (∃ method pathname, Shared a b method pathname) ↔
        a.method = b.method ∧ Overlap a.path b.path) ∧
      (∀ a b : RouteSpec, a ≠ b → (∀ s ∈ segments a.path, isParameter s = false) →
        (∀ s ∈ segments b.path, isParameter s = false) →
        ∀ method pathname, ¬ Shared a b method pathname) ∧
      (∀ pattern pathname, (∀ v ∈ segments pathname, (decodeURIComponent v).isSome) →
        ∃ out, matchPathPattern pattern pathname = .ok out) ∧
      ∀ pattern pathname params, matchPathPattern pattern pathname = .ok (some params) →
        Matched pattern (substitute pattern params) := by
  refine ⟨fun _ hmem _ rmem => h.host_ne hmem rmem, h.pairwise_ne, shared_iff, ?_,
    fun pattern _ => matchPathPattern_ok pattern, fun _ _ _ => matched_substitute⟩
  rintro ⟨methodA, pathA⟩ ⟨methodB, pathB⟩ other plainA plainB method pathname shared
  obtain ⟨sameMethod, overlap⟩ := (shared_iff _ _).mp ⟨method, pathname, shared⟩
  cases sameMethod
  cases overlap_literal plainA plainB overlap
  exact other rfl

def exampleHosts : List RouteSpec := [⟨"GET", "/files/:id"⟩]

def exampleRoutes : List BundleRoute := [⟨"GET", "/files/list", "files"⟩]

theorem accepted_example : Accepted exampleHosts exampleRoutes := by
  constructor
  · decide
  · decide

/-- A route of a bundle beside a parameter of the host. -/
theorem routes_owners_example :
    Accepted exampleHosts exampleRoutes ∧ (⟨"GET", "/files/:id"⟩ : RouteSpec) ≠
      ⟨"GET", "/files/list"⟩ :=
  ⟨accepted_example, (routes_owners accepted_example).1 _ mem_cons_self
    ⟨"GET", "/files/list", "files"⟩ mem_cons_self⟩

/-- The host's `/files/:id` and the bundle's `/files/list` both match `/files/list`. -/
theorem accepted_two_owners : ∃ hosts routes, Accepted hosts routes ∧ ¬ OneOwner hosts routes := by
  refine ⟨exampleHosts, exampleRoutes, accepted_example, fun one => ?_⟩
  refine one.1 _ mem_cons_self _ mem_cons_self "GET" "/files/list" ⟨rfl, rfl, ?_, ?_⟩
  · exact ⟨setParam (fun _ => none) "id".toList "list".toList, rfl⟩
  · exact ⟨fun _ => none, rfl⟩

end CrabbyKit.Bundle
