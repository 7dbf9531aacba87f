import CrabbyKit.Bundle.Schema

/-!
# Unsupported kinds are rejected and the others survive

The check looks at some of the nodes of a schema and reads what was recorded there. So it rejects
what it should, and the markers come back, exactly under a condition on the nodes and what they
are recorded with.
-/

namespace CrabbyKit.Bundle

open SchemaValue

def rejectedFor : SchemaValue → Option String
  | .obj members _ => rejectedKind members
  | _ => none

def Allowed (found : List SchemaValue) : Prop := ∀ n ∈ found, rejectedFor n = none

theorem allowed_nil : Allowed [] := nofun

theorem allowed_append {found more : List SchemaValue} :
    Allowed (found ++ more) ↔ Allowed found ∧ Allowed more := List.forall_mem_append

theorem both_ok {x y : Except String Unit} :
    (do x; y) = .ok () ↔ x = .ok () ∧ y = .ok () := by
  cases x with
  | error e => exact ⟨nofun, nofun⟩
  | ok a => exact ⟨fun h => ⟨rfl, h⟩, fun h => h.2⟩

mutual

theorem walk_ok (pathLabel trail : String) (v : SchemaValue) :
    walk pathLabel trail v = .ok () ↔ Allowed (walkedNodes v) := by
  cases v with
  | obj members kind =>
    rw [walkedNodes, nodes, walk]
    cases hkind : rejectedKind members with
    | some rejected =>
      refine iff_of_false nofun fun h => ?_
      have hself := h _ List.mem_cons_self
      rw [rejectedFor, hkind] at hself
      cases hself
    | none =>
      have hself : Allowed [.obj members kind] := by
        intro n hn
        rw [List.mem_singleton.mp hn]
        exact hkind
      simp only [both_ok]
      rw [walkProperties_ok pathLabel trail members, walkAt_ok "items" pathLabel _ members,
        walkListAt_ok "anyOf" pathLabel trail members,
        walkListAt_ok "allOf" pathLabel trail members,
        walkListAt_ok "oneOf" pathLabel trail members, ← List.singleton_append, allowed_append]
      simp only [walkedKeywords, List.flatMap_cons, List.flatMap_nil, List.append_nil,
        allowed_append]
      exact ⟨fun h => ⟨hself, h⟩, fun h => h.2⟩
  | _ => exact iff_of_true rfl allowed_nil

theorem walkProperties_ok (pathLabel trail : String) (members : List (String × SchemaValue)) :
    walkProperties pathLabel trail members = .ok () ↔
      Allowed (nodesAt walkedKeywords { key := "properties", list := true, record := true }
        members) := by
  match members with
  | [] => exact iff_of_true rfl allowed_nil
  | (key, v) :: rest =>
    rw [walkProperties, nodesAt]
    by_cases hkey : key = "properties"
    · rw [if_pos hkey, if_pos hkey]
      exact walkEntries_ok pathLabel trail v
    · rw [if_neg hkey, if_neg hkey]
      exact walkProperties_ok pathLabel trail rest

theorem walkEntries_ok (pathLabel trail : String) (v : SchemaValue) :
    walkEntries pathLabel trail v = .ok () ↔
      Allowed (heldNodes walkedKeywords { key := "properties", list := true, record := true }
        v) := by
  cases v with
  | obj members kind => exact walkMembers_ok pathLabel trail members
  | arr items => exact walkItems_ok pathLabel _ 0 items
  | _ => exact iff_of_true rfl allowed_nil

theorem walkMembers_ok (pathLabel trail : String) (members : List (String × SchemaValue)) :
    walkMembers pathLabel trail members = .ok () ↔
      Allowed (memberNodes walkedKeywords members) := by
  match members with
  | [] => exact iff_of_true rfl allowed_nil
  | (key, v) :: rest =>
    rw [walkMembers, memberNodes, both_ok, allowed_append, walk_ok pathLabel _ v,
      walkMembers_ok pathLabel trail rest, walkedNodes]

theorem walkAt_ok (keyword pathLabel trail : String) (members : List (String × SchemaValue)) :
    walkAt keyword pathLabel trail members = .ok () ↔
      Allowed (nodesAt walkedKeywords { key := keyword, one := true } members) := by
  match members with
  | [] => exact iff_of_true rfl allowed_nil
  | (key, v) :: rest =>
    rw [walkAt, nodesAt]
    by_cases hkey : key = keyword
    · rw [if_pos hkey, if_pos hkey]
      have hheld : heldNodes walkedKeywords { key := keyword, one := true } v = [] := by
        cases v <;> rfl
      rw [hheld, List.append_nil]
      exact walk_ok pathLabel trail v
    · rw [if_neg hkey, if_neg hkey]
      exact walkAt_ok keyword pathLabel trail rest

theorem walkListAt_ok (keyword pathLabel trail : String) (members : List (String × SchemaValue)) :
    walkListAt keyword pathLabel trail members = .ok () ↔
      Allowed (nodesAt walkedKeywords { key := keyword, list := true } members) := by
  match members with
  | [] => exact iff_of_true rfl allowed_nil
  | (key, v) :: rest =>
    rw [walkListAt, nodesAt]
    by_cases hkey : key = keyword
    · rw [if_pos hkey, if_pos hkey]
      exact walkList_ok keyword pathLabel trail v
    · rw [if_neg hkey, if_neg hkey]
      exact walkListAt_ok keyword pathLabel trail rest

theorem walkList_ok (keyword pathLabel trail : String) (v : SchemaValue) :
    walkList keyword pathLabel trail v = .ok () ↔
      Allowed (heldNodes walkedKeywords { key := keyword, list := true } v) := by
  cases v with
  | arr items => exact walkItems_ok pathLabel _ 0 items
  | _ => exact iff_of_true rfl allowed_nil

theorem walkItems_ok (pathLabel : String) (trailOf : Nat → String) (idx : Nat)
    (items : List SchemaValue) :
    walkItems pathLabel trailOf idx items = .ok () ↔ Allowed (itemNodes walkedKeywords items) := by
  match items with
  | [] => exact iff_of_true rfl allowed_nil
  | v :: rest =>
    rw [walkItems, itemNodes, both_ok, allowed_append, walk_ok pathLabel _ v,
      walkItems_ok pathLabel trailOf (idx + 1) rest, walkedNodes]

end

def memberText : Option SchemaValue → Option String
  | some (.str value) => some value
  | _ => none

/-- The kind that the serialized node is checked for: the member `Kind`, which is the marker where
the node has none of its own, else the member `kind`. -/
def recordedKind : SchemaValue → Option String
  | .obj members kind =>
    match lookup "Kind" members with
    | none => kind.or (memberText (lookup "kind" members))
    | some .null => memberText (lookup "kind" members)
    | some v => memberText (some v)
  | _ => none

/-- Kinds that a bundle must not ship. -/
def Unsupported (kind : Option String) : Prop := ∃ k ∈ kind, k ∈ rejectedSchemaKinds

/-- A member `Kind` that the node has of its own is its marker. -/
def OwnKindAgrees : SchemaValue → Prop
  | .obj members kind => ∀ v, lookup "Kind" members = some v → memberText (some v) = kind
  | _ => True

/-- A schema after the way through the metadata. -/
def shipped (schema : SchemaValue) : SchemaValue :=
  hydrateBundleSchema (jsonRoundTrip (serializeBundleSchema schema))

theorem lookup_map (f : SchemaValue → SchemaValue) (key : String)
    (members : List (String × SchemaValue)) :
    lookup key (members.map fun m => (m.1, f m.2)) = (lookup key members).map f := by
  rw [lookup, lookup, List.find?_map, Option.map_map, Option.map_map]
  rfl

theorem lookup_append (key : String) (members extra : List (String × SchemaValue)) :
    lookup key (members ++ extra) = (lookup key members).or (lookup key extra) := by
  rw [lookup, List.find?_append, Option.map_or]
  rfl

theorem memberText_copy {f : SchemaValue → SchemaValue} (hf : Copies f) (v : Option SchemaValue) :
    memberText (v.map f) = memberText v := by
  cases v with
  | none => rfl
  | some v =>
    cases v with
    | arr items => rw [Option.map_some, hf.arr]; rfl
    | obj members kind =>
      obtain ⟨_, _, heq, _⟩ := hf.obj members kind
      rw [Option.map_some, heq]
      rfl
    | null => rw [Option.map_some, hf.null]
    | bool value => rw [Option.map_some, hf.bool]
    | num value => rw [Option.map_some, hf.num]
    | str value => rw [Option.map_some, hf.str]

variable {members : List (String × SchemaValue)} {kind : Option String}

theorem lookup_mirrorKind :
    lookup "Kind" (mirrorKind members kind) =
      (lookup "Kind" members).or (kind.map SchemaValue.str) := by
  cases kind with
  | none => rw [mirrorKind, Option.map_none, Option.or_none]
  | some kind =>
    rw [mirrorKind]
    cases hown : lookup "Kind" members with
    | none =>
      simp only
      rw [lookup_append, hown]
      rfl
    | some v =>
      simp only
      rw [hown]
      rfl

theorem lookup_kind_mirrorKind :
    lookup "kind" (mirrorKind members kind) = lookup "kind" members := by
  cases kind with
  | none => rw [mirrorKind]
  | some kind =>
    rw [mirrorKind]
    cases lookup "Kind" members with
    | none =>
      simp only
      rw [lookup_append]
      exact Option.or_none
    | some v => rfl

theorem memberText_readKind (members : List (String × SchemaValue)) (kind : Option String) :
    memberText (readKind (mirrorKind (cloneMembers members) kind)) =
      recordedKind (.obj members kind) := by
  have hkind : lookup "Kind" (mirrorKind (cloneMembers members) kind) =
      ((lookup "Kind" members).map cloneAndAnnotate).or (kind.map SchemaValue.str) := by
    rw [lookup_mirrorKind, cloneMembers_eq, lookup_map]
  have hlower : memberText (lookup "kind" (mirrorKind (cloneMembers members) kind)) =
      memberText (lookup "kind" members) := by
    rw [lookup_kind_mirrorKind, cloneMembers_eq, lookup_map,
      memberText_copy copies_cloneAndAnnotate]
  rw [readKind, hkind, recordedKind]
  cases lookup "Kind" members with
  | none =>
    cases kind with
    | none => exact hlower
    | some kind => rfl
  | some v =>
    cases v with
    | null => exact hlower
    | arr items => rw [Option.map_some, copies_cloneAndAnnotate.arr]; rfl
    | obj members kind =>
      obtain ⟨_, _, heq, _⟩ := copies_cloneAndAnnotate.obj members kind
      rw [Option.map_some, heq]
      rfl
    | bool value => rfl
    | num value => rfl
    | str value => rfl

theorem not_unsupported_none : ¬ Unsupported none := by
  rintro ⟨k, hk, -⟩
  cases hk

theorem rejectedKind_eq_none (members : List (String × SchemaValue)) :
    rejectedKind members = none ↔ ¬ Unsupported (memberText (readKind members)) := by
  rw [rejectedKind]
  cases readKind members with
  | none => exact iff_of_true rfl not_unsupported_none
  | some v =>
    cases v with
    | str kind =>
      simp only [memberText, Unsupported, Option.mem_some_iff, exists_eq_left']
      split_ifs with hrejected
      · exact iff_of_false nofun (not_not_intro hrejected)
      · exact iff_of_true rfl hrejected
    | _ => exact iff_of_true rfl not_unsupported_none

theorem rejectedFor_clone (n : SchemaValue) :
    rejectedFor (cloneAndAnnotate n) = none ↔ ¬ Unsupported (recordedKind n) := by
  cases n with
  | obj members kind =>
    rw [cloneAndAnnotate, rejectedFor, rejectedKind_eq_none, memberText_readKind]
  | _ => exact iff_of_true rfl not_unsupported_none

theorem plain_schemaKeywords : Plain schemaKeywords := by
  unfold Plain schemaKeywords
  decide

theorem plain_walkedKeywords : Plain walkedKeywords := by
  unfold Plain walkedKeywords
  decide

theorem assertSchemaKindsAllowed_ok (schema : SchemaValue) (pathLabel : String) :
    assertSchemaKindsAllowed (serializeBundleSchema schema) pathLabel = .ok () ↔
      ∀ n ∈ walkedNodes schema, ¬ Unsupported (recordedKind n) := by
  rw [assertSchemaKindsAllowed, walk_ok, serializeBundleSchema, walkedNodes,
    nodes_copy copies_cloneAndAnnotate plain_walkedKeywords, Allowed, List.forall_mem_map]
  exact forall₂_congr fun n _ => rejectedFor_clone n

theorem kind_shipped (n : SchemaValue) : (shipped n).kind = n.kind ↔ OwnKindAgrees n := by
  cases n with
  | obj members kind =>
    have hmember : lookup "Kind" (roundTripMembers (mirrorKind (cloneMembers members) kind)) =
        (((lookup "Kind" members).map cloneAndAnnotate).or (kind.map SchemaValue.str)).map
          jsonRoundTrip := by
      rw [roundTripMembers_eq, lookup_map, lookup_mirrorKind, cloneMembers_eq, lookup_map]
    have hshipped : (shipped (.obj members kind)).kind =
        memberText
          (((lookup "Kind" members).map cloneAndAnnotate).or (kind.map SchemaValue.str)) := by
      rw [shipped, serializeBundleSchema, cloneAndAnnotate, jsonRoundTrip, hydrateBundleSchema,
        restoreKindInPlace, SchemaValue.kind, restoredKind, hmember]
      rw [← memberText_copy copies_jsonRoundTrip]
      cases (((lookup "Kind" members).map cloneAndAnnotate).or
        (kind.map SchemaValue.str)).map jsonRoundTrip with
      | none => rfl
      | some v => cases v <;> rfl
    rw [hshipped, SchemaValue.kind, OwnKindAgrees]
    cases lookup "Kind" members with
    | none =>
      refine iff_of_true ?_ fun v hv => ?_
      · cases kind <;> rfl
      · cases hv
    | some v =>
      have hv : memberText (((some v).map cloneAndAnnotate).or (kind.map SchemaValue.str)) =
          memberText (some v) := memberText_copy copies_cloneAndAnnotate (some v)
      rw [hv]
      constructor
      · intro h w hw
        rw [← hw]
        exact h
      · intro h
        exact h v rfl
  | _ => exact iff_of_true rfl trivial

theorem schemaNodes_shipped (schema : SchemaValue) :
    schemaNodes (shipped schema) = (schemaNodes schema).map shipped := by
  unfold shipped serializeBundleSchema hydrateBundleSchema schemaNodes
  rw [nodes_copy copies_restoreKindInPlace plain_schemaKeywords,
    nodes_copy copies_jsonRoundTrip plain_schemaKeywords,
    nodes_copy copies_cloneAndAnnotate plain_schemaKeywords, List.map_map, List.map_map]
  rfl

/-- A schema with a node of an unsupported kind is rejected, and of an accepted one all schema
nodes have the markers that they had. -/
def RejectedOrRestored (schema : SchemaValue) (pathLabel : String) : Prop :=
  ((∃ n ∈ schemaNodes schema, Unsupported n.kind) →
    ∃ e, assertSchemaKindsAllowed (serializeBundleSchema schema) pathLabel = .error e) ∧
  (assertSchemaKindsAllowed (serializeBundleSchema schema) pathLabel = .ok () →
    (schemaNodes (shipped schema)).map SchemaValue.kind =
      (schemaNodes schema).map SchemaValue.kind)

/-- That is so exactly when an unsupported kind anywhere means one recorded where the check looks,
and where the check finds none, the members `Kind` of the schema nodes are their markers. -/
theorem rejectedOrRestored_iff (schema : SchemaValue) (pathLabel : String) :
    RejectedOrRestored schema pathLabel ↔
      ((∃ n ∈ schemaNodes schema, Unsupported n.kind) →
        ∃ n ∈ walkedNodes schema, Unsupported (recordedKind n)) ∧
      ((∀ n ∈ walkedNodes schema, ¬ Unsupported (recordedKind n)) →
        ∀ n ∈ schemaNodes schema, OwnKindAgrees n) := by
  have hthrows : (∃ e, assertSchemaKindsAllowed (serializeBundleSchema schema) pathLabel =
      .error e) ↔ ∃ n ∈ walkedNodes schema, Unsupported (recordedKind n) := by
    rw [← not_iff_not]
    have hok := assertSchemaKindsAllowed_ok schema pathLabel
    simp only [not_exists, not_and]
    rw [← hok]
    cases assertSchemaKindsAllowed (serializeBundleSchema schema) pathLabel with
    | error e => exact iff_of_false (fun h => h e rfl) nofun
    | ok _ => exact iff_of_true nofun rfl
  have hkinds : (schemaNodes (shipped schema)).map SchemaValue.kind =
      (schemaNodes schema).map SchemaValue.kind ↔ ∀ n ∈ schemaNodes schema, OwnKindAgrees n := by
    rw [schemaNodes_shipped, List.map_map, List.map_inj_left]
    exact forall₂_congr fun n _ => kind_shipped n
  rw [RejectedOrRestored, hthrows, assertSchemaKindsAllowed_ok, hkinds]

def tupleOfFunction : SchemaValue :=
  .obj [("type", .str "array"),
    ("items", .arr [.obj [("type", .str "Function"), ("parameters", .arr []),
      ("returns", .obj [("type", .str "string")] (some "String"))] (some "Function")]),
    ("additionalItems", .bool false), ("minItems", .num 1), ("maxItems", .num 1)] (some "Tuple")

/-- The elements of a tuple are not looked at. -/
theorem tupleOfFunction_not_rejected :
    ¬ RejectedOrRestored tupleOfFunction "config namespace \"app\"" := by
  intro h
  obtain ⟨e, he⟩ := h.1 ⟨.obj [("type", .str "Function"), ("parameters", .arr []),
    ("returns", .obj [("type", .str "string")] (some "String"))] (some "Function"),
    List.mem_cons_of_mem _ List.mem_cons_self, "Function", rfl, by decide⟩
  cases he

end CrabbyKit.Bundle
