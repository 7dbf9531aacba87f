import Mathlib.Data.List.Basic

/-!
# Config schemas in bundle metadata

`schema-serialize.ts` and `assertSchemaKindsAllowed` of `validate.ts` in `bundle-sdk`. A schema is
a JavaScript value whose objects may carry a marker under the symbol `TypeBox.Kind`; JSON has no
place for the marker, so it is mirrored to a member `Kind`.
-/

namespace CrabbyKit.Bundle

/-- A JSON value whose objects have the marker that the symbol holds, if there is one. -/
inductive SchemaValue
  | null
  | bool (value : Bool)
  | num (value : Int)
  | str (value : String)
  | arr (items : List SchemaValue)
  | obj (members : List (String × SchemaValue)) (kind : Option String)

namespace SchemaValue

/-- The marker of an object. -/
def kind : SchemaValue → Option String
  | obj _ kind => kind
  | _ => none

def lookup (key : String) (members : List (String × SchemaValue)) : Option SchemaValue :=
  (members.find? fun m => m.1 = key).map Prod.snd

def member (key : String) : SchemaValue → Option SchemaValue
  | obj members _ => lookup key members
  | _ => none

end SchemaValue

open SchemaValue

/-- The marker as a member, unless there is a member of that name. -/
def mirrorKind (members : List (String × SchemaValue)) :
    Option String → List (String × SchemaValue)
  | some kind =>
    match lookup "Kind" members with
    | none => members ++ [("Kind", .str kind)]
    | some _ => members
  | none => members

mutual

def cloneAndAnnotate : SchemaValue → SchemaValue
  | .arr items => .arr (cloneItems items)
  | .obj members kind => .obj (mirrorKind (cloneMembers members) kind) none
  | v => v

def cloneItems : List SchemaValue → List SchemaValue
  | [] => []
  | v :: rest => cloneAndAnnotate v :: cloneItems rest

def cloneMembers : List (String × SchemaValue) → List (String × SchemaValue)
  | [] => []
  | (key, v) :: rest => (key, cloneAndAnnotate v) :: cloneMembers rest

end

def serializeBundleSchema (schema : SchemaValue) : SchemaValue := cloneAndAnnotate schema

mutual

/-- `JSON.parse(JSON.stringify(value))`: the markers are lost. -/
def jsonRoundTrip : SchemaValue → SchemaValue
  | .arr items => .arr (roundTripItems items)
  | .obj members _ => .obj (roundTripMembers members) none
  | v => v

def roundTripItems : List SchemaValue → List SchemaValue
  | [] => []
  | v :: rest => jsonRoundTrip v :: roundTripItems rest

def roundTripMembers : List (String × SchemaValue) → List (String × SchemaValue)
  | [] => []
  | (key, v) :: rest => (key, jsonRoundTrip v) :: roundTripMembers rest

end

/-- The marker that an object has after `restoreKindInPlace`. -/
def restoredKind (members : List (String × SchemaValue)) (kind : Option String) : Option String :=
  match lookup "Kind" members with
  | some (.str kind) => some kind
  | _ => kind

mutual

def restoreKindInPlace : SchemaValue → SchemaValue
  | .arr items => .arr (restoreItems items)
  | .obj members kind => .obj (restoreMembers members) (restoredKind members kind)
  | v => v

def restoreItems : List SchemaValue → List SchemaValue
  | [] => []
  | v :: rest => restoreKindInPlace v :: restoreItems rest

def restoreMembers : List (String × SchemaValue) → List (String × SchemaValue)
  | [] => []
  | (key, v) :: rest => (key, restoreKindInPlace v) :: restoreMembers rest

end

def hydrateBundleSchema (schema : SchemaValue) : SchemaValue := restoreKindInPlace schema

def rejectedSchemaKinds : List String := ["Transform", "Constructor", "Function"]

/-- `rec.Kind ?? rec.kind`. -/
def readKind (members : List (String × SchemaValue)) : Option SchemaValue :=
  match lookup "Kind" members with
  | none => lookup "kind" members
  | some .null => lookup "kind" members
  | some v => some v

def rejectedKind (members : List (String × SchemaValue)) : Option String :=
  match readKind members with
  | some (.str kind) => if kind ∈ rejectedSchemaKinds then some kind else none
  | _ => none

/-- The message of the check. -/
def unsupportedKind (pathLabel kind trail : String) : String :=
  pathLabel ++ " schema contains unsupported TypeBox Kind \"" ++ kind ++ "\" at " ++
    (if trail = "" then "<root>" else trail) ++
    " — Transform/Constructor/Function kinds carry runtime closures that cannot survive JSON " ++
    "serialization into bundle metadata. Remove the transform or move it to bundle-side execution."

def propertyTrail (trail key : String) : String := if trail = "" then key else trail ++ "." ++ key

mutual

/-- `walk`. An array has none of the members that it reads. -/
def walk (pathLabel trail : String) : SchemaValue → Except String Unit
  | .obj members _ =>
    match rejectedKind members with
    | some kind => .error (unsupportedKind pathLabel kind trail)
    | none => do
      walkProperties pathLabel trail members
      walkAt "items" pathLabel (trail ++ "[]") members
      walkListAt "anyOf" pathLabel trail members
      walkListAt "allOf" pathLabel trail members
      walkListAt "oneOf" pathLabel trail members
  | _ => .ok ()

/-- `rec.properties`. -/
def walkProperties (pathLabel trail : String) : List (String × SchemaValue) → Except String Unit
  | [] => .ok ()
  | (key, v) :: rest =>
    if key = "properties" then walkEntries pathLabel trail v
    else walkProperties pathLabel trail rest

/-- The entries of an object. Those of an array have its indices as keys. -/
def walkEntries (pathLabel trail : String) : SchemaValue → Except String Unit
  | .obj members _ => walkMembers pathLabel trail members
  | .arr items => walkItems pathLabel (fun idx => propertyTrail trail (toString idx)) 0 items
  | _ => .ok ()

def walkMembers (pathLabel trail : String) : List (String × SchemaValue) → Except String Unit
  | [] => .ok ()
  | (key, v) :: rest => do
    walk pathLabel (propertyTrail trail key) v
    walkMembers pathLabel trail rest

/-- The value of a member. -/
def walkAt (keyword pathLabel trail : String) :
    List (String × SchemaValue) → Except String Unit
  | [] => .ok ()
  | (key, v) :: rest =>
    if key = keyword then walk pathLabel trail v else walkAt keyword pathLabel trail rest

/-- A member that may be an array. -/
def walkListAt (keyword pathLabel trail : String) :
    List (String × SchemaValue) → Except String Unit
  | [] => .ok ()
  | (key, v) :: rest =>
    if key = keyword then walkList keyword pathLabel trail v
    else walkListAt keyword pathLabel trail rest

/-- The elements of an array. -/
def walkList (keyword pathLabel trail : String) : SchemaValue → Except String Unit
  | .arr items =>
    walkItems pathLabel (fun idx => trail ++ "." ++ keyword ++ "[" ++ toString idx ++ "]") 0 items
  | _ => .ok ()

def walkItems (pathLabel : String) (trailOf : Nat → String) (idx : Nat) :
    List SchemaValue → Except String Unit
  | [] => .ok ()
  | v :: rest => do
    walk pathLabel (trailOf idx) v
    walkItems pathLabel trailOf (idx + 1) rest

end

def assertSchemaKindsAllowed (schema : SchemaValue) (pathLabel : String) : Except String Unit :=
  walk pathLabel "" schema

/-!
# The nodes of a schema

The places of a schema that hold schemas again, and those of them that the check looks at. A copy
that changes markers only has the copies of the nodes at the same places.
-/

open SchemaValue

/-- A keyword whose value holds schemas: one schema, a list of them or a record of them. -/
structure Keyword where
  key : String
  one : Bool := false
  list : Bool := false
  record : Bool := false

mutual

/-- The objects at the places of some keywords, outermost first. -/
def nodes (keywords : List Keyword) : SchemaValue → List SchemaValue
  | .obj members kind =>
    .obj members kind :: keywords.flatMap fun keyword => nodesAt keywords keyword members
  | _ => []

def nodesAt (keywords : List Keyword) (keyword : Keyword) :
    List (String × SchemaValue) → List SchemaValue
  | [] => []
  | (key, v) :: rest =>
    if key = keyword.key then
      (if keyword.one then nodes keywords v else []) ++ heldNodes keywords keyword v
    else nodesAt keywords keyword rest

def heldNodes (keywords : List Keyword) (keyword : Keyword) : SchemaValue → List SchemaValue
  | .arr items => if keyword.list then itemNodes keywords items else []
  | .obj members _ => if keyword.record then memberNodes keywords members else []
  | _ => []

def itemNodes (keywords : List Keyword) : List SchemaValue → List SchemaValue
  | [] => []
  | v :: rest => nodes keywords v ++ itemNodes keywords rest

def memberNodes (keywords : List Keyword) : List (String × SchemaValue) → List SchemaValue
  | [] => []
  | (_, v) :: rest => nodes keywords v ++ memberNodes keywords rest

end

def schemaKeywords : List Keyword :=
  [{ key := "properties", record := true }, { key := "items", one := true, list := true },
    { key := "anyOf", list := true }, { key := "allOf", list := true },
    { key := "oneOf", list := true }, { key := "not", one := true },
    { key := "additionalProperties", one := true }, { key := "patternProperties", record := true }]

/-- The keywords under which the check looks for schemas. -/
def walkedKeywords : List Keyword :=
  [{ key := "properties", list := true, record := true }, { key := "items", one := true },
    { key := "anyOf", list := true }, { key := "allOf", list := true },
    { key := "oneOf", list := true }]

def schemaNodes (schema : SchemaValue) : List SchemaValue := nodes schemaKeywords schema

def walkedNodes (schema : SchemaValue) : List SchemaValue := nodes walkedKeywords schema

variable (items : List SchemaValue)

theorem cloneItems_eq : cloneItems items = items.map cloneAndAnnotate := by
  induction items with
  | nil => rfl
  | cons v rest ih => rw [cloneItems, ih, List.map_cons]

variable (members : List (String × SchemaValue))

theorem cloneMembers_eq :
    cloneMembers members = members.map fun m => (m.1, cloneAndAnnotate m.2) := by
  induction members with
  | nil => rfl
  | cons m rest ih => rw [cloneMembers, ih, List.map_cons]

theorem roundTripItems_eq : roundTripItems items = items.map jsonRoundTrip := by
  induction items with
  | nil => rfl
  | cons v rest ih => rw [roundTripItems, ih, List.map_cons]

theorem roundTripMembers_eq :
    roundTripMembers members = members.map fun m => (m.1, jsonRoundTrip m.2) := by
  induction members with
  | nil => rfl
  | cons m rest ih => rw [roundTripMembers, ih, List.map_cons]

theorem restoreItems_eq : restoreItems items = items.map restoreKindInPlace := by
  induction items with
  | nil => rfl
  | cons v rest ih => rw [restoreItems, ih, List.map_cons]

theorem restoreMembers_eq :
    restoreMembers members = members.map fun m => (m.1, restoreKindInPlace m.2) := by
  induction members with
  | nil => rfl
  | cons m rest ih => rw [restoreMembers, ih, List.map_cons]

/-- A copy of values that changes markers and appends members `Kind` without objects. -/
structure Copies (f : SchemaValue → SchemaValue) : Prop where
  arr : ∀ items, f (.arr items) = .arr (items.map f)
  obj : ∀ members kind, ∃ extra kind',
    f (.obj members kind) = .obj (members.map (fun m => (m.1, f m.2)) ++ extra) kind' ∧
      ∀ m ∈ extra, m.1 = "Kind" ∧ ∃ value, m.2 = .str value
  null : f .null = .null
  bool : ∀ value, f (.bool value) = .bool value
  num : ∀ value, f (.num value) = .num value
  str : ∀ value, f (.str value) = .str value

theorem copies_cloneAndAnnotate : Copies cloneAndAnnotate where
  arr items := by rw [cloneAndAnnotate, cloneItems_eq]
  obj members kind := by
    rw [cloneAndAnnotate, cloneMembers_eq]
    cases kind with
    | none => exact ⟨[], none, by rw [mirrorKind, List.append_nil], nofun⟩
    | some kind =>
      rw [mirrorKind]
      cases lookup "Kind" (members.map fun m => (m.1, cloneAndAnnotate m.2)) with
      | none =>
        refine ⟨[("Kind", .str kind)], none, rfl, fun m hm => ?_⟩
        rw [List.mem_singleton.mp hm]
        exact ⟨rfl, kind, rfl⟩
      | some _ => exact ⟨[], none, by rw [List.append_nil], nofun⟩
  null := rfl
  bool _ := rfl
  num _ := rfl
  str _ := rfl

theorem copies_jsonRoundTrip : Copies jsonRoundTrip where
  arr items := by rw [jsonRoundTrip, roundTripItems_eq]
  obj members kind :=
    ⟨[], none, by rw [jsonRoundTrip, roundTripMembers_eq, List.append_nil], nofun⟩
  null := rfl
  bool _ := rfl
  num _ := rfl
  str _ := rfl

theorem copies_restoreKindInPlace : Copies restoreKindInPlace where
  arr items := by rw [restoreKindInPlace, restoreItems_eq]
  obj members kind :=
    ⟨[], _, by rw [restoreKindInPlace, restoreMembers_eq, List.append_nil], nofun⟩
  null := rfl
  bool _ := rfl
  num _ := rfl
  str _ := rfl

/-- No keyword is called `Kind`. -/
def Plain (keywords : List Keyword) : Prop := ∀ keyword ∈ keywords, keyword.key ≠ "Kind"

section Copies

variable {keywords : List Keyword} {f : SchemaValue → SchemaValue}

/-- Members `Kind` hold no nodes. -/
theorem nodesAt_extra {extra : List (String × SchemaValue)} {keyword : Keyword}
    (hplain : keyword.key ≠ "Kind")
    (hextra : ∀ m ∈ extra, m.1 = "Kind" ∧ ∃ value, m.2 = .str value) :
    nodesAt keywords keyword extra = [] := by
  induction extra with
  | nil => rfl
  | cons m rest ih =>
    obtain ⟨hkey, _⟩ := hextra m List.mem_cons_self
    rw [nodesAt, if_neg fun heq => hplain (heq.symm.trans hkey)]
    exact ih fun m hm => hextra m (List.mem_cons_of_mem _ hm)

theorem memberNodes_extra {extra : List (String × SchemaValue)}
    (hextra : ∀ m ∈ extra, m.1 = "Kind" ∧ ∃ value, m.2 = .str value) :
    memberNodes keywords extra = [] := by
  induction extra with
  | nil => rfl
  | cons m rest ih =>
    obtain ⟨_, value, hvalue⟩ := hextra m List.mem_cons_self
    rw [memberNodes, hvalue, ih fun m hm => hextra m (List.mem_cons_of_mem _ hm)]
    rfl

mutual

theorem nodes_copy (hf : Copies f) (hplain : Plain keywords) (v : SchemaValue) :
    nodes keywords (f v) = (nodes keywords v).map f := by
  cases v with
  | arr items =>
    rw [hf.arr]
    rfl
  | obj members kind =>
    obtain ⟨extra, kind', heq, hextra⟩ := hf.obj members kind
    rw [nodes, List.map_cons, heq, nodes, List.map_flatMap]
    congr 1
    refine List.flatMap_congr fun keyword hkeyword => ?_
    exact nodesAt_copy hf hplain (hplain keyword hkeyword) hextra members
  | null => rw [hf.null]; rfl
  | bool value => rw [hf.bool]; rfl
  | num value => rw [hf.num]; rfl
  | str value => rw [hf.str]; rfl

theorem nodesAt_copy (hf : Copies f) (hplain : Plain keywords) {keyword : Keyword}
    (hkeyword : keyword.key ≠ "Kind") {extra : List (String × SchemaValue)}
    (hextra : ∀ m ∈ extra, m.1 = "Kind" ∧ ∃ value, m.2 = .str value)
    (members : List (String × SchemaValue)) :
    nodesAt keywords keyword (members.map (fun m => (m.1, f m.2)) ++ extra) =
      (nodesAt keywords keyword members).map f := by
  match members with
  | [] => rw [List.map_nil, List.nil_append, nodesAt_extra hkeyword hextra, nodesAt, List.map_nil]
  | (key, v) :: rest =>
    rw [List.map_cons, List.cons_append, nodesAt, nodesAt]
    by_cases hkey : key = keyword.key
    · rw [if_pos hkey, if_pos hkey, List.map_append]
      congr 1
      · cases keyword.one with
        | true => exact nodes_copy hf hplain v
        | false => rfl
      · exact heldNodes_copy hf hplain keyword v
    · rw [if_neg hkey, if_neg hkey]
      exact nodesAt_copy hf hplain hkeyword hextra rest

theorem heldNodes_copy (hf : Copies f) (hplain : Plain keywords) (keyword : Keyword)
    (v : SchemaValue) :
    heldNodes keywords keyword (f v) = (heldNodes keywords keyword v).map f := by
  cases v with
  | arr items =>
    rw [hf.arr, heldNodes, heldNodes]
    cases keyword.list with
    | true => exact itemNodes_copy hf hplain items
    | false => rfl
  | obj members kind =>
    obtain ⟨extra, kind', heq, hextra⟩ := hf.obj members kind
    rw [heq, heldNodes, heldNodes]
    cases keyword.record with
    | true => exact memberNodes_copy hf hplain hextra members
    | false => rfl
  | null => rw [hf.null]; rfl
  | bool value => rw [hf.bool]; rfl
  | num value => rw [hf.num]; rfl
  | str value => rw [hf.str]; rfl

theorem itemNodes_copy (hf : Copies f) (hplain : Plain keywords) (items : List SchemaValue) :
    itemNodes keywords (items.map f) = (itemNodes keywords items).map f := by
  match items with
  | [] => rfl
  | v :: rest =>
    rw [List.map_cons, itemNodes, itemNodes, List.map_append, nodes_copy hf hplain v,
      itemNodes_copy hf hplain rest]

theorem memberNodes_copy (hf : Copies f) (hplain : Plain keywords)
    {extra : List (String × SchemaValue)}
    (hextra : ∀ m ∈ extra, m.1 = "Kind" ∧ ∃ value, m.2 = .str value)
    (members : List (String × SchemaValue)) :
    memberNodes keywords (members.map (fun m => (m.1, f m.2)) ++ extra) =
      (memberNodes keywords members).map f := by
  match members with
  | [] => rw [List.map_nil, List.nil_append, memberNodes_extra hextra, memberNodes, List.map_nil]
  | (key, v) :: rest =>
    rw [List.map_cons, List.cons_append, memberNodes, memberNodes, List.map_append,
      nodes_copy hf hplain v, memberNodes_copy hf hplain hextra rest]

end

end Copies

end CrabbyKit.Bundle
