import CrabbyKit.Core.FileTree
import CrabbyKit.Core.Split
import CrabbyKit.Core.Table
import CrabbyKit.Skills.Tracking

/-!
# The tables of the app registry

`app-store.ts`: apps and the versions that were deployed of them. Ids are drawn fresh. The times
in the rows are left out, which nothing here reads.
-/

namespace CrabbyKit.Apps

/-- A row of `apps`. -/
structure AppRecord where
  id : Nat
  name : String
  slug : String
  currentVersion : Nat := 0
  hasBackend : Bool := false
  deriving DecidableEq, Repr

/-- What `addVersion` is given. -/
structure VersionConfig where
  deployId : String
  commitHash : String
  message : Option String
  files : List String
  hasBackend : Bool
  deriving DecidableEq, Repr

/-- A row of `app_versions`. -/
structure AppVersion extends VersionConfig where
  appId : Nat
  version : Nat
  deriving DecidableEq, Repr

/-- The primary key of `app_versions`. -/
def AppVersion.key (row : AppVersion) : Nat × Nat := (row.appId, row.version)

/-- Both tables, and the id that is drawn next. -/
structure AppStore where
  apps : List AppRecord := []
  versions : List AppVersion := []
  nextId : Nat := 0
  deriving DecidableEq, Repr

namespace AppStore

def get (store : AppStore) (id : Nat) : Option AppRecord :=
  Table.lookup AppRecord.id store.apps id

def getBySlug (store : AppStore) (slug : String) : Option AppRecord :=
  Table.lookup AppRecord.slug store.apps slug

def getVersion (store : AppStore) (appId version : Nat) : Option AppVersion :=
  Table.lookup AppVersion.key store.versions (appId, version)

/-- `create`: slugs are unique. -/
def create (store : AppStore) (name slug : String) : Except String (AppRecord × AppStore) :=
  if (store.getBySlug slug).isSome then .error "UNIQUE constraint failed: apps.slug"
  else
    let app : AppRecord := { id := store.nextId, name, slug }
    .ok (app, { store with apps := store.apps ++ [app], nextId := store.nextId + 1 })

/-- `update` of the fields that are given. -/
def update (store : AppStore) (id : Nat) (name : Option String) (currentVersion : Option Nat)
    (hasBackend : Option Bool) : AppStore :=
  { store with
    apps := Table.modify AppRecord.id id (fun app =>
      { app with
        name := name.getD app.name
        currentVersion := currentVersion.getD app.currentVersion
        hasBackend := hasBackend.getD app.hasBackend }) store.apps }

def delete (store : AppStore) (id : Nat) : AppStore :=
  { store with
    versions := store.versions.filter fun row => row.appId ≠ id
    apps := store.apps.filter fun app => app.id ≠ id }

/-- `addVersion`: the number after the current one, which the table must not have yet. -/
def addVersion (store : AppStore) (appId : Nat) (config : VersionConfig) :
    Except String (Option AppVersion × AppStore) :=
  match store.get appId with
  | none => .ok (none, store)
  | some app =>
    let version := app.currentVersion + 1
    if (store.getVersion appId version).isSome then
      .error "UNIQUE constraint failed: app_versions.app_id, app_versions.version"
    else
      let row : AppVersion := { config with appId, version }
      .ok (some row, { store with versions := store.versions ++ [row] }.update appId none
        (some version) (some config.hasBackend))

variable {store : AppStore}

variable {app : AppRecord}

theorem mem_of_getBySlug {slug : String}
    (h : store.getBySlug slug = some app) : app ∈ store.apps ∧ app.slug = slug :=
  Table.mem_of_lookup h

theorem mem_of_getVersion {appId version : Nat} {row : AppVersion}
    (h : store.getVersion appId version = some row) :
    row ∈ store.versions ∧ row.appId = appId ∧ row.version = version := by
  obtain ⟨hrow, hkey⟩ := Table.mem_of_lookup h
  exact ⟨hrow, congrArg Prod.fst hkey, congrArg Prod.snd hkey⟩

theorem getVersion_eq_none {appId version : Nat} :
    store.getVersion appId version = none ↔
      ∀ row ∈ store.versions, row.appId = appId → row.version ≠ version := by
  rw [getVersion, Table.lookup_eq_none]
  simp only [AppVersion.key, ne_eq, Prod.mk.injEq, not_and]

variable {id : Nat}

theorem mem_update {name : Option String} {version : Option Nat} {hasBackend : Option Bool} :
    app ∈ (store.update id name version hasBackend).apps ↔ ∃ old ∈ store.apps,
      (if old.id = id then
        { old with
          name := name.getD old.name
          currentVersion := version.getD old.currentVersion
          hasBackend := hasBackend.getD old.hasBackend } else old) = app :=
  Table.mem_modify

@[simp] theorem update_versions (store : AppStore) (id : Nat) (name : Option String)
    (version : Option Nat) (hasBackend : Option Bool) :
    (store.update id name version hasBackend).versions = store.versions := rfl

@[simp] theorem update_nextId (store : AppStore) (id : Nat) (name : Option String)
    (version : Option Nat) (hasBackend : Option Bool) :
    (store.update id name version hasBackend).nextId = store.nextId := rfl

theorem map_update {β : Type} (f : AppRecord → β) (hf : ∀ app : AppRecord, ∀ name version backend,
    f { app with name := name, currentVersion := version, hasBackend := backend } = f app)
    (store : AppStore) (id : Nat) (name : Option String) (version : Option Nat)
    (hasBackend : Option Bool) :
    (store.update id name version hasBackend).apps.map f = store.apps.map f := by
  rw [update, Table.modify, List.map_map]
  refine List.map_congr_left fun app _ => ?_
  rw [Function.comp_apply]
  split
  · exact hf _ _ _ _
  · rfl

theorem mem_delete_apps : app ∈ (store.delete id).apps ↔ app ∈ store.apps ∧ app.id ≠ id := by
  simp [delete]

theorem mem_delete_versions {row : AppVersion} :
    row ∈ (store.delete id).versions ↔ row ∈ store.versions ∧ row.appId ≠ id := by
  simp [delete]

end AppStore

end CrabbyKit.Apps

/-!
# Slugs

`slugify.ts`: the part of a URL that an app's name is made into.
-/

namespace CrabbyKit.Apps

/-- The letters of a lower case. Outside of ASCII only the Kelvin sign and the dotted capital I
have one that begins in it. -/
def toLowerCase (c : Char) : List Char :=
  if c = '\u212A' then ['k'] else if c = '\u0130' then ['i', '\u0307'] else [c.toLower]

/-- `[a-z0-9]`. -/
def isSlugChar (c : Char) : Bool := ('a' ≤ c && c ≤ 'z') || ('0' ≤ c && c ≤ '9')

/-- `slugify`: one hyphen for each run of other characters, and none at the ends. -/
def slugify (name : String) : String :=
  let pieces := ((name.toList.flatMap toLowerCase).splitOnP (!isSlugChar ·)).filter (· ≠ [])
  String.ofList (List.intercalate ['-'] pieces)

example : slugify "  My Cool__App! " = "my-cool-app" := by decide

end CrabbyKit.Apps

/-!
## Tools of the app registry

`deploy-app.ts`, `rollback-app.ts` and `delete-app.ts` over the tables and the files of the
sandbox. What the commands answer comes with each call; `cp`, `echo` and `rm` do what they say
to the files, except that a copy may fail halfway. Paths are taken as they are written between
the quotes of a command.
-/

namespace CrabbyKit.Apps

open Skills (trim)

/-- `SandboxExecResult`. -/
structure ExecResult where
  stdout : String := ""
  stderr : String := ""
  exitCode : Int := 0
  deriving DecidableEq, Repr

/-- How a tool ends before its work is done. -/
inductive Stop
  | thrown (message : String)
  | answered (text : String)
  deriving DecidableEq, Repr

/-- A command, which the sandbox may refuse to run. -/
def exec (result : Except String ExecResult) : Except Stop ExecResult := result.mapError .thrown

def errorResult (text : String) : Stop := .answered s!"Error: {text}"

def enter (dir : List String) (segment : String) : List String :=
  if segment = "" ∨ segment = "." then dir
  else if segment = ".." then dir.dropLast
  else dir ++ [segment]

/-- `/workspace/apps/${slug}`. -/
def appDir (slug : String) : List String :=
  ((slug.toList.splitOn '/').map String.ofList).foldl enter ["workspace", "apps"]

def versionName (version : Nat) : String := "v" ++ toString version

/-- `/workspace/apps/${slug}/.deploys/v${version}`. -/
def versionDir (slug : String) (version : Nat) : List String :=
  appDir slug ++ [".deploys", versionName version]

/-- `/workspace/apps/${slug}/.deploys/CURRENT`. -/
def currentPath (slug : String) : List String := appDir slug ++ [".deploys", "CURRENT"]

/-- What `echo "${version}"` prints. -/
def pointer (version : Nat) : String := toString version ++ "\n"

/-- What the sandbox and the bundler answer while a backend is bundled. -/
structure Bundling where
  list : Except String ExecResult := .ok {}
  cat : String → Except String ExecResult := fun _ => .ok {}
  createWorker : List (String × String) → String → Except String String := fun _ _ => .ok ""
  write : Except String ExecResult := .ok {}
  /-- What a failed write left in the file. -/
  partly : Option String := none

/-- A call of `deploy_app` with what its commands answer and what `cp` copied. -/
structure DeployCall where
  name : String
  slug : Option String := none
  buildDir : String
  backendEntry : Option String := none
  /-- The options of the capability have a `backend`. -/
  backend : Bool := false
  gitStatus : Except String ExecResult := .ok {}
  head : Except String ExecResult := .ok {}
  check : Except String ExecResult := .ok { stdout := "OK\n" }
  list : Except String ExecResult := .ok {}
  deployId : String := ""
  copy : Except String ExecResult := .ok {}
  copied : List (List String × String) := []
  bundling : Bundling := {}

/-- `providedSlug || slugify(name)`. -/
def DeployCall.appSlug (call : DeployCall) : String :=
  match call.slug with
  | none | some "" => slugify call.name
  | some slug => slug

/-- What a deploy knows of its sources. -/
structure Commit where
  hash : String
  message : Option String
  files : List String
  deriving DecidableEq, Repr

/-- The checks before anything is written. -/
def preflight (call : DeployCall) : Except Stop Commit := do
  let gitStatusResult ← exec call.gitStatus
  if gitStatusResult.exitCode ≠ 0 then
    throw (errorResult s!"Failed to check git status: {gitStatusResult.stderr}")
  let dirty := trim gitStatusResult.stdout.toList
  if dirty ≠ [] then
    throw (errorResult ("Uncommitted changes detected. Please commit your changes before " ++
      "deploying.\n\nDirty files:\n" ++ String.ofList dirty))
  let headResult ← exec call.head
  if headResult.exitCode ≠ 0 then
    throw (errorResult s!"Failed to read git HEAD: {headResult.stderr}")
  let lines := (trim headResult.stdout.toList).splitOn '\n'
  let message := trim (List.intercalate ['\n'] lines.tail)
  let checkResult ← exec call.check
  if !checkResult.stdout.toList.tails.any ("OK".toList.isPrefixOf ·) then
    throw (errorResult ("Build directory \"" ++ call.buildDir ++
      "\" does not exist. Build the app first."))
  let listResult ← exec call.list
  if listResult.exitCode ≠ 0 then
    throw (errorResult ("Error listing files in \"" ++ call.buildDir ++ "\": " ++
      listResult.stderr))
  let files := ((trim listResult.stdout.toList).splitOn '\n').filter (· ≠ [])
  if files = [] then
    throw (errorResult ("Build directory \"" ++ call.buildDir ++ "\" contains no files."))
  return {
    hash := String.ofList (lines.headD [])
    message := if message = [] then none else some (String.ofList message)
    files := files.map String.ofList }

/-- The names that every object of the language answers to. -/
def inheritedNames : List String :=
  ["constructor", "__defineGetter__", "__defineSetter__", "hasOwnProperty", "__lookupGetter__",
    "__lookupSetter__", "isPrototypeOf", "propertyIsEnumerable", "toString", "valueOf",
    "__proto__", "toLocaleString"]

def readSources (cat : String → Except String ExecResult) (sourceDir : String)
    (filePaths : List String) : Except Stop (List (String × String)) :=
  filePaths.foldlM (fun sourceFiles absPath => do
    let relPath := String.ofList (absPath.toList.drop (sourceDir.length + 1))
    let readResult ← exec (cat absPath)
    if readResult.exitCode = 0 then
      return Table.upsert Prod.fst relPath (fun _ => (relPath, readResult.stdout)) sourceFiles
    else return sourceFiles) []

/-- `bundleAndStoreBackend` up to the bundle. -/
def bundleBackend (bundling : Bundling) (entryPoint : String) : Except Stop String := do
  let fail error := Stop.answered s!"Frontend deployed but backend failed: {error}"
  -- Without a slash the index is `-1`, and the slice drops the last character.
  let sourceDir := match entryPoint.toList.reverse.dropWhile (· ≠ '/') with
    | [] => String.ofList entryPoint.toList.dropLast
    | _ :: dir => String.ofList dir.reverse
  let entryRelative := String.ofList (entryPoint.toList.drop (sourceDir.length + 1))
  let listResult ← exec bundling.list
  let listed := trim listResult.stdout.toList
  if listResult.exitCode ≠ 0 ∨ listed = [] then
    throw (fail s!"Failed to list backend files in {sourceDir}: {listResult.stderr}")
  let filePaths := ((listed.splitOn '\n').map trim).filter (· ≠ [])
  let sourceFiles ← readSources bundling.cat sourceDir (filePaths.map String.ofList)
  let found := match Table.lookup Prod.fst sourceFiles entryRelative with
    | some (_, content) => content ≠ ""
    | none => entryRelative ∈ inheritedNames
  if !found then
    throw (fail ("Entry point \"" ++ entryRelative ++ "\" not found in backend source files"))
  match bundling.createWorker sourceFiles entryRelative with
  | .error message => throw (fail s!"Backend bundling failed: {message}")
  | .ok bundleJson => return bundleJson

/-- `bundleAndStoreBackend`: the files it wrote, and how it ended. -/
def bundleAndStoreBackend (bundling : Bundling) (entryPoint : String) :
    List (List String × String) × Except Stop Unit :=
  match bundleBackend bundling entryPoint with
  | .error stop => ([], .error stop)
  | .ok bundleJson =>
    let bundlePath := [".backend", "bundle.json"]
    let left := bundling.partly.toList.map (bundlePath, ·)
    match bundling.write with
    | .error message => (left, .error (.thrown message))
    | .ok writeResult =>
      if writeResult.exitCode ≠ 0 then
        (left, .error (.answered ("Frontend deployed but backend failed: " ++
          s!"Failed to write backend bundle: {writeResult.stderr}")))
      else ([(bundlePath, bundleJson ++ "\n")], .ok ())

/-- What a deploy writes below its version directory, and whether it has a backend if it got
that far. -/
def DeployCall.place (call : DeployCall) : List (List String × String) × Except Stop Bool :=
  match call.copy with
  | .error message => (call.copied, .error (.thrown message))
  | .ok copyResult =>
    if copyResult.exitCode ≠ 0 then
      (call.copied,
        .error (errorResult s!"Error copying build to deploy path: {copyResult.stderr}"))
    else
      match call.backendEntry, call.backend with
      | none, _ | some "", _ | some _, false => (call.copied, .ok false)
      | some backendEntry, true =>
        let (bundle, result) := bundleAndStoreBackend call.bundling backendEntry
        (call.copied ++ bundle, result.map fun _ => true)

def DeployCall.written (call : DeployCall) : List (List String × String) := call.place.1

/-- A recorded version with the files of its deploy. -/
structure Deployed where
  row : AppVersion
  contents : FileTree String String

/-- The tables, the files of the sandbox, and every version recorded so far. -/
structure AppRegistry where
  store : AppStore := {}
  files : FileTree String String := fun _ => none
  history : List Deployed := []

/-- The `details` of an answer. The clients are told of them at the same time. -/
inductive Details
  | deployed (appSlug deployId : String) (version : Nat) (commit : Commit) (url : String)
      (hasBackend : Bool)
  | rolledBack (app : String) (version : Nat) (commitHash : String)
  | deleted (slug name : String)
  deriving DecidableEq, Repr

/-- A tool's answer after its work is done. -/
structure Reply where
  text : String
  details : Details
  deriving DecidableEq, Repr

/-- `commitHash.slice(0, 7) — message`. -/
def commitLine (hash : String) (message : Option String) : String :=
  String.ofList (hash.toList.take 7) ++ " — " ++ message.getD "(no message)"

/-- The app of a slug, which the first deploy creates. -/
def openApp (store : AppStore) (name slug : String) : Except Stop (AppRecord × AppStore) :=
  match store.getBySlug slug with
  | some app => .ok (app, store)
  | none =>
    match store.create name slug with
    | .error _ =>
      .error (errorResult ("Slug \"" ++ slug ++ "\" is already taken. Provide a different slug."))
    | .ok created => .ok created

/-- The steps of a deploy after the files are in place. -/
def publish (s : AppRegistry) (call : DeployCall) (commit : Commit) (app : AppRecord)
    (hasBackend : Bool) : AppRegistry × Except Stop Reply :=
  let versionNum := app.currentVersion + 1
  let s := { s with files := s.files.put (currentPath call.appSlug) (pointer versionNum) }
  match s.store.addVersion app.id
    { deployId := call.deployId, commitHash := commit.hash, message := commit.message
      files := commit.files, hasBackend } with
  | .error message => (s, .error (.thrown message))
  | .ok (row, store) =>
    let url := s!"/apps/{call.appSlug}/"
    let text :=
      s!"App deployed successfully!\n\nApp: {call.name} ({call.appSlug})\n" ++
      s!"Version: v{versionNum}\nCommit: {commitLine commit.hash commit.message}\n" ++
      s!"URL: {url}\nFiles: {commit.files.length} assets" ++
      if hasBackend then "\nBackend: deployed (API available at /api/*)" else ""
    ({ s with
        store
        history := s.history ++ row.toList.map (⟨·, .ofFiles call.written⟩) },
      .ok ⟨text, .deployed call.appSlug call.deployId versionNum commit url hasBackend⟩)

def deployApp (s : AppRegistry) (call : DeployCall) : AppRegistry × Except Stop Reply :=
  match preflight call with
  | .error stop => (s, .error stop)
  | .ok commit =>
    match openApp s.store call.name call.appSlug with
    | .error stop => (s, .error stop)
    | .ok (app, store) =>
      let dir := versionDir call.appSlug (app.currentVersion + 1)
      let placed := { s with store, files := s.files.putAll dir call.written }
      match call.place.2 with
      | .error stop => (placed, .error stop)
      | .ok hasBackend => publish placed call commit app hasBackend

/-- The number that a rollback is asked for. A number other than `0, 1, 2, …` is only printed. -/
inductive VersionArg
  | version (n : Nat)
  | other (text : String)
  deriving DecidableEq, Repr

def rollbackApp (s : AppRegistry) (slug : String) (version : VersionArg) :
    AppRegistry × Except Stop Reply :=
  match s.store.getBySlug slug with
  | none => (s, .error (errorResult ("App \"" ++ slug ++ "\" not found.")))
  | some app =>
    let missing (text : String) := errorResult
      ("Version " ++ text ++ " does not exist for app \"" ++ slug ++ "\".")
    match version with
    | .other text => (s, .error (missing text))
    | .version n =>
      match s.store.getVersion app.id n with
      | none => (s, .error (missing (toString n)))
      | some targetVersion =>
        ({ s with
            files := s.files.put (currentPath slug) (pointer n)
            store := s.store.update app.id none (some n) (some targetVersion.hasBackend) },
          .ok ⟨s!"Rolled back {app.name} to v{n}\nCommit: " ++
              commitLine targetVersion.commitHash targetVersion.message,
            .rolledBack app.slug n targetVersion.commitHash⟩)

def deleteApp (s : AppRegistry) (slug : String) : AppRegistry × Except Stop Reply :=
  match s.store.getBySlug slug with
  | none => (s, .error (errorResult ("App \"" ++ slug ++ "\" not found.")))
  | some app =>
    ({ s with files := s.files.removeDir (appDir slug), store := s.store.delete app.id },
      .ok ⟨"Deleted app \"" ++ app.name ++ s!"\" ({slug}) and all {app.currentVersion} versions.",
        .deleted slug app.name⟩)

inductive Call
  | deploy (call : DeployCall)
  | rollback (slug : String) (version : VersionArg)
  | delete (slug : String)

def execute (s : AppRegistry) : Call → AppRegistry × Except Stop Reply
  | .deploy call => deployApp s call
  | .rollback slug version => rollbackApp s slug version
  | .delete slug => deleteApp s slug

def step (s : AppRegistry) (call : Call) : AppRegistry := (execute s call).1

end CrabbyKit.Apps
