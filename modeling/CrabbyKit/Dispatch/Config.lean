import CrabbyKit.Bundle.Schema
import CrabbyKit.Registry.D1

/-!
# The config metadata of a bundle

`loadBundleConfigMetadata` and `installBundleConfigMetadata`: what the active version declares
about configuration is read from its metadata and put on the runtime.
-/

namespace CrabbyKit.DispatchHost

open BundleRegistry CrabbyKit.Bundle

mutual

/-- A parsed value, none of whose objects has a marker. -/
def schemaOfJson : Json → SchemaValue
  | .null => .null
  | .bool b => .bool b
  | .num n => .num n
  | .str text => .str text
  | .arr items => .arr (schemaItems items)
  | .obj members => .obj (schemaMembers members) none

def schemaItems : List Json → List SchemaValue
  | [] => []
  | item :: rest => schemaOfJson item :: schemaItems rest

def schemaMembers : List (String × Json) → List (String × SchemaValue)
  | [] => []
  | (key, value) :: rest => (key, schemaOfJson value) :: schemaMembers rest

end

/-- `JSON.parse(JSON.stringify(schema))` with its kinds restored; it throws on `undefined`. -/
def rehydrateSchema : Option Json → Except RegistryError SchemaValue
  | none => .error .syntaxError
  | some schema => .ok (hydrateBundleSchema (schemaOfJson schema))

/-- `entry.name`, which throws on `null`. -/
def readMember (name : String) : Json → Except RegistryError (Option Json)
  | .null => .error (.typeError ("Cannot read properties of null (reading " ++ name ++ ")"))
  | entry => .ok (Json.field name entry)

/-- `value ?? []` as the list that `map` goes over. -/
def listOrEmpty : Option Json → Except RegistryError (List Json)
  | none | some .null => .ok []
  | some (.arr items) => .ok items
  | some _ => .error (.typeError "map is not a function")

/-- `Object.entries(value ?? {})`. -/
def objectEntries : Option Json → List (String × Json)
  | some (.obj members) => members
  | some (.arr items) => items.zipIdx.map fun item => (toString item.2, item.1)
  | some (.str text) => text.toList.zipIdx.map fun c => (toString c.2, .str (String.ofList [c.1]))
  | _ => []

structure CapabilityConfig where
  id : Option Json
  schema : SchemaValue
  default : Option Json

structure ConfigNamespace where
  id : Option Json
  description : Option Json
  schema : SchemaValue

structure AgentConfigPath where
  id : Option Json
  agentConfigPath : String

structure BundleConfigMetadata where
  capabilityConfigs : List CapabilityConfig
  agentConfigSchemas : List (String × SchemaValue)
  configNamespaces : List ConfigNamespace
  agentConfigPaths : List AgentConfigPath

def capabilityConfigOf (entry : Json) : Except RegistryError CapabilityConfig := do
  let id ← readMember "id" entry
  let schema ← rehydrateSchema (Json.field "schema" entry)
  .ok ⟨id, schema, Json.field "default" entry⟩

def agentConfigSchemaOf (entry : String × Json) : Except RegistryError (String × SchemaValue) := do
  let schema ← rehydrateSchema (some entry.2)
  .ok (entry.1, schema)

def configNamespaceOf (entry : Json) : Except RegistryError ConfigNamespace := do
  let id ← readMember "id" entry
  let schema ← rehydrateSchema (Json.field "schema" entry)
  .ok ⟨id, Json.field "description" entry, schema⟩

/-- The path of an entry, if it is a text that is not empty. -/
def agentConfigPathOf (entry : Json) : Option AgentConfigPath :=
  match Json.field "agentConfigPath" entry with
  | some (.str path) => if path = "" then none else some ⟨Json.field "id" entry, path⟩
  | _ => none

def configOfMetadata (metadata : Json) : Except RegistryError BundleConfigMetadata := do
  let entries ← listOrEmpty (Json.field "capabilityConfigs" metadata)
  let capabilityConfigs ← entries.mapM capabilityConfigOf
  let agentConfigSchemas ←
    (objectEntries (Json.field "agentConfigSchemas" metadata)).mapM agentConfigSchemaOf
  let namespaces ← listOrEmpty (Json.field "configNamespaces" metadata)
  let configNamespaces ← namespaces.mapM configNamespaceOf
  .ok ⟨capabilityConfigs, agentConfigSchemas, configNamespaces,
    entries.filterMap agentConfigPathOf⟩

def loadBundleConfigMetadata (registry : D1State) (versionId : String) :
    Except RegistryError (Option BundleConfigMetadata) := do
  let version ← registry.getVersion versionId
  match version.bind BundleVersion.metadata with
  | none => .ok none
  | some metadata => if metadata.truthy then (configOfMetadata metadata).map some else .ok none

/-- The four members of the runtime; an empty declaration is not installed. -/
structure InstalledConfig where
  bundleCapabilityConfigMetadata : Option (List CapabilityConfig) := none
  bundleAgentConfigSchemaMetadata : Option (List (String × SchemaValue)) := none
  bundleConfigNamespaceMetadata : Option (List ConfigNamespace) := none
  bundleCapabilityAgentConfigPaths : Option (List AgentConfigPath) := none

def nonEmpty {α : Type} (items : List α) : Option (List α) :=
  if items.isEmpty then none else some items

def installBundleConfigMetadata : Option BundleConfigMetadata → InstalledConfig
  | none => {}
  | some loaded =>
    { bundleCapabilityConfigMetadata := nonEmpty loaded.capabilityConfigs
      bundleAgentConfigSchemaMetadata := nonEmpty loaded.agentConfigSchemas
      bundleConfigNamespaceMetadata := nonEmpty loaded.configNamespaces
      bundleCapabilityAgentConfigPaths := nonEmpty loaded.agentConfigPaths }

theorem configOfMetadata_undeclared {metadata : Json}
    (hconfigs : Json.field "capabilityConfigs" metadata = none)
    (hschemas : Json.field "agentConfigSchemas" metadata = none)
    (hnamespaces : Json.field "configNamespaces" metadata = none) :
    configOfMetadata metadata = .ok ⟨[], [], [], []⟩ := by
  unfold configOfMetadata
  rw [hconfigs, hschemas, hnamespaces]
  rfl

end CrabbyKit.DispatchHost
