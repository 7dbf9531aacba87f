import CrabbyKit.Apps.Custody

/-!
# Versions over whole runs

The next number is the one after the current version, and a rollback makes the current version
an old one. A deploy keeps to the versions as long as that number is free and its directory has
no other files; then every version stays what its deploy made it.
-/

namespace CrabbyKit.Apps

open List

open FileTree (Apart)

/-- A slug that is one segment of a path. -/
def Plain (slug : String) : Prop :=
  slug ≠ "" ∧ slug ≠ "." ∧ slug ≠ ".." ∧ '/' ∉ slug.toList

variable {app : AppRecord}

variable {hasBackend : Bool}

theorem AppStore.update_cases {store : AppStore} {a : AppRecord}
    (hn : (store.apps.map AppRecord.id).Nodup) (happ : app ∈ store.apps) {version : Nat}
    (ha : a ∈ (store.update app.id none (some version) (some hasBackend)).apps) :
    a = { app with currentVersion := version, hasBackend } ∨ (a ∈ store.apps ∧ a.id ≠ app.id) := by
  obtain ⟨old, hold, heq⟩ := mem_update.mp ha
  by_cases hid : old.id = app.id
  · obtain rfl : old = app := Table.eq_of_key hn hold happ hid
    rw [if_pos rfl] at heq
    exact .inl heq.symm
  · rw [if_neg hid] at heq
    exact .inr ⟨heq ▸ hold, heq ▸ hid⟩

variable {s : AppRegistry}

theorem Sound.repoint (h : Sound s) (happ : app ∈ s.store.apps)
    {versions : List AppVersion} {history : List Deployed} {version : Nat}
    (hrows : ∀ row, row.appId ≠ app.id → (row ∈ versions ↔ row ∈ s.store.versions))
    (hpast : ∀ d, d.row.appId ≠ app.id → (d ∈ history ↔ d ∈ s.history))
    (unique : (history.map fun d => d.row.key).Nodup)
    (deployed : ∀ row ∈ versions, row.appId = app.id → ∃ d ∈ history, d.row = row)
    (numbered : ∀ row ∈ versions, row.appId = app.id → 0 < row.version ∧
      ∀ v, 0 < v → v < row.version → ∃ earlier ∈ versions, earlier.key = (row.appId, v))
    (recorded : ∀ d ∈ history, d.row.appId = app.id → d.row ∈ versions)
    (contents : ∀ d ∈ history, d.row.appId = app.id →
      s.files.below (versionDir app.slug d.row.version) = d.contents)
    (hrow : ∃ row ∈ versions, row.key = (app.id, version) ∧ row.hasBackend = hasBackend) :
    Sound {
      store := { s.store with versions }.update app.id none (some version) (some hasBackend)
      files := s.files.put (currentPath app.slug) (pointer version)
      history } := by
  have hcases : ∀ a, a ∈ ({ s.store with versions }.update app.id none (some version)
      (some hasBackend)).apps →
      a = { app with currentVersion := version, hasBackend } ∨ (a ∈ s.store.apps ∧ a.id ≠ app.id) :=
    fun a ha => AppStore.update_cases h.ids_nodup happ ha
  refine h.touch happ ?_ unique deployed numbered fun a ha hid => ?_
  · refine ⟨?_, fun a ha => ?_, rfl, hrows, hpast, fun path hpath => ?_⟩
    · exact AppStore.map_update _ (fun _ _ _ _ => rfl) _ _ _ _ _
    · rcases hcases a ha with rfl | hother
      · exact .inl ⟨rfl, rfl⟩
      · exact .inr hother
    · refine FileTree.put_of_ne ?_
      rintro rfl
      exact hpath (prefix_append _ _)
  · rcases hcases a ha with rfl | ⟨-, hne⟩
    · refine ⟨.inr ?_, recorded, fun d hd hown => ?_⟩
      · obtain ⟨row, hmem, hkey, hbackend⟩ := hrow
        exact ⟨row, hmem, hkey, hbackend, Function.update_self _ _ _⟩
      · rw [← contents d hd hown]
        exact FileTree.below_put_of_outside (versionDir_not_prefix_currentPath _ _)
    · exact absurd hid hne

theorem Sound.rollback (h : Sound s) (slug : String) (version : VersionArg) :
    Sound (rollbackApp s slug version).1 := by
  unfold rollbackApp
  cases hfound : s.store.getBySlug slug with
  | none => exact h
  | some app =>
    obtain ⟨happ, hslug⟩ := AppStore.mem_of_getBySlug hfound
    cases version with
    | other text => exact h
    | version n =>
      cases htarget : s.store.getVersion app.id n with
      | none => simpa only [htarget] using h
      | some target =>
        obtain ⟨hmem, hid, hn⟩ := AppStore.mem_of_getVersion htarget
        simp only [htarget]
        rw [← hslug]
        exact h.repoint happ (fun _ _ => Iff.rfl) (fun _ _ => Iff.rfl) h.unique
          (fun row hrow _ => h.deployed row hrow) (fun row hrow _ => h.numbered row hrow)
          (h.intact app happ).recorded (h.intact app happ).contents
          ⟨target, hmem, by rw [AppVersion.key, hid, hn], rfl⟩

theorem Sound.delete (h : Sound s) (slug : String) : Sound (deleteApp s slug).1 := by
  unfold deleteApp
  cases hfound : s.store.getBySlug slug with
  | none => exact h
  | some app =>
    obtain ⟨happ, hslug⟩ := AppStore.mem_of_getBySlug hfound
    refine
      { unique := h.unique
        deployed := fun row hrow => h.deployed row (AppStore.mem_delete_versions.mp hrow).1
        intact := fun a ha => ?_
        ids_nodup := ?_
        ids_lt := fun a ha => h.ids_lt a (AppStore.mem_delete_apps.mp ha).1
        past_lt := h.past_lt
        owned := fun row hrow => ?_
        apart := fun a ha b hb => h.apart a (AppStore.mem_delete_apps.mp ha).1 b
          (AppStore.mem_delete_apps.mp hb).1
        numbered := fun row hrow => ?_
        files_owned := fun path hpath => ?_ }
    · obtain ⟨hmem, hne⟩ := AppStore.mem_delete_apps.mp ha
      refine (h.intact a hmem).congr (fun row hid => ?_) (fun _ _ => Iff.rfl) fun path hpath => ?_
      · rw [AppStore.mem_delete_versions, and_iff_left (hid ▸ hne)]
      · refine FileTree.removeDir_of_outside ?_
        rw [← hslug]
        exact (h.apart app happ a hmem (Ne.symm hne)).outside hpath
    · exact h.ids_nodup.sublist ((filter_sublist).map _)
    · obtain ⟨hmem, hne⟩ := AppStore.mem_delete_versions.mp hrow
      obtain ⟨a, ha, hid⟩ := h.owned row hmem
      exact ⟨a, AppStore.mem_delete_apps.mpr ⟨ha, hid ▸ hne⟩, hid⟩
    · obtain ⟨hmem, hne⟩ := AppStore.mem_delete_versions.mp hrow
      refine ⟨(h.numbered row hmem).1, fun v hv hlt => ?_⟩
      obtain ⟨earlier, hearlier, hkey⟩ := (h.numbered row hmem).2 v hv hlt
      have hid : earlier.appId = row.appId := congrArg Prod.fst hkey
      exact ⟨earlier, AppStore.mem_delete_versions.mpr ⟨hearlier, hid ▸ hne⟩, hkey⟩
    · by_cases hin : appDir slug <+: path
      · simp [FileTree.removeDir, hin] at hpath
      · change (s.files.removeDir (appDir slug) path).isSome at hpath
        rw [FileTree.removeDir_of_outside hin] at hpath
        obtain ⟨a, ha, hinside⟩ := h.files_owned path hpath
        refine ⟨a, AppStore.mem_delete_apps.mpr ⟨ha, fun hid => hin ?_⟩, hinside⟩
        rw [← hslug, ← Table.eq_of_key h.ids_nodup ha happ hid]
        exact hinside

/-- A deploy gets past its checks into a directory of its own, under a number that is free
unless it writes nothing new there and fails, and over no other files unless it fails. -/
structure Orderly (s : AppRegistry) (call : DeployCall) : Prop where
  apart : s.store.getBySlug call.appSlug = none →
    ∀ app ∈ s.store.apps, Apart (appDir call.appSlug) (appDir app.slug)
  free : ∀ app, s.store.getBySlug call.appSlug = some app →
    (s.store.getVersion app.id (app.currentVersion + 1)).isSome →
    (∃ stop, call.place.2 = .error stop) ∧
      ∀ path content, FileTree.ofFiles call.written path = some content →
        s.files.below (versionDir call.appSlug (app.currentVersion + 1)) path = some content
  clean : ∀ app, s.store.getBySlug call.appSlug = some app →
    s.store.getVersion app.id (app.currentVersion + 1) = none →
    (∃ hasBackend, call.place.2 = .ok hasBackend) →
    ∀ path, (s.files.below (versionDir call.appSlug (app.currentVersion + 1)) path).isSome →
      path ∈ call.written.map Prod.fst

/-- Calls that keep to the versions. -/
def Permitted (s : AppRegistry) : Call → Prop
  | .deploy call => (∃ commit, preflight call = .ok commit) → Orderly s call
  | _ => True

/-- All commands of a deploy do their work. -/
def DeployCall.Succeeds (call : DeployCall) : Prop :=
  (∃ commit, preflight call = .ok commit) ∧ ∃ hasBackend, call.place.2 = .ok hasBackend

structure Opened (s s' : AppRegistry) (call : DeployCall) (app : AppRecord) : Prop where
  sound : Sound s'
  app_mem : app ∈ s'.store.apps
  slug_eq : app.slug = call.appSlug
  files_eq : s'.files = s.files
  history_eq : s'.history = s.history
  free : (s'.store.getVersion app.id (app.currentVersion + 1)).isSome →
    (∃ stop, call.place.2 = .error stop) ∧
      ∀ path content, FileTree.ofFiles call.written path = some content →
        s.files.below (versionDir call.appSlug (app.currentVersion + 1)) path = some content
  clean : s'.store.getVersion app.id (app.currentVersion + 1) = none →
    (∃ hasBackend, call.place.2 = .ok hasBackend) →
    ∀ path, (s.files.below (versionDir call.appSlug (app.currentVersion + 1)) path).isSome →
      path ∈ call.written.map Prod.fst

variable {call : DeployCall}

theorem Sound.opened (h : Sound s) (horderly : Orderly s call) {store : AppStore}
    (hopen : openApp s.store call.name call.appSlug = .ok (app, store)) :
    Opened s { s with store } call app := by
  rcases openApp_cases hopen with ⟨hfound, rfl⟩ | ⟨hmissing, rfl, rfl⟩
  · obtain ⟨happ, hslug⟩ := AppStore.mem_of_getBySlug hfound
    exact ⟨h, happ, hslug, rfl, rfl, horderly.free app hfound, horderly.clean app hfound⟩
  · have hapart := horderly.apart hmissing
    have hnone : s.store.getVersion s.store.nextId (0 + 1) = none := by
      rw [AppStore.getVersion_eq_none]
      intro row hrow hid
      exact absurd hid (h.appId_lt hrow).ne
    refine ⟨h.create call.name hapart, mem_append_right _ (mem_singleton_self _), rfl,
      rfl, rfl, fun hsome => ?_, fun _ _ path hpath => ?_⟩
    · change (s.store.getVersion s.store.nextId (0 + 1)).isSome at hsome
      rw [hnone] at hsome
      exact absurd hsome (by decide)
    · have hin : appDir call.appSlug <+: versionDir call.appSlug (0 + 1) ++ path := by
        rw [versionDir, append_assoc]
        exact prefix_append _ _
      change (s.files (versionDir call.appSlug (0 + 1) ++ path)).isSome at hpath
      rw [h.files_eq_none hapart hin] at hpath
      exact absurd hpath (by decide)

theorem openApp_ok (store : AppStore) (name slug : String) :
    ∃ app opened, openApp store name slug = .ok (app, opened) := by
  unfold openApp
  cases hfound : store.getBySlug slug with
  | some app => exact ⟨app, store, rfl⟩
  | none =>
    have hcreate : ∃ created, store.create name slug = .ok created := by
      rw [AppStore.create, hfound]
      exact ⟨_, rfl⟩
    obtain ⟨⟨app, opened⟩, hcreated⟩ := hcreate
    exact ⟨app, opened, by simp only [hcreated]⟩

def DeployCall.row (call : DeployCall) (commit : Commit) (app : AppRecord) (hasBackend : Bool) :
    AppVersion :=
  { deployId := call.deployId
    commitHash := commit.hash
    message := commit.message
    files := commit.files
    hasBackend
    appId := app.id
    version := app.currentVersion + 1 }

theorem publish_of_free (call : DeployCall) (commit : Commit)
    (hasBackend : Bool) (hn : (s.store.apps.map AppRecord.id).Nodup) (happ : app ∈ s.store.apps)
    (hfree : s.store.getVersion app.id (app.currentVersion + 1) = none) :
    (publish s call commit app hasBackend).1 =
      { store := { s.store with
          versions := s.store.versions ++ [call.row commit app hasBackend] }.update app.id none
            (some (app.currentVersion + 1)) (some hasBackend)
        files := s.files.put (currentPath call.appSlug) (pointer (app.currentVersion + 1))
        history := s.history ++
          [⟨call.row commit app hasBackend, FileTree.ofFiles call.written⟩] } ∧
    ∃ reply, (publish s call commit app hasBackend).2 = .ok reply := by
  have hget : s.store.get app.id = some app := (Table.lookup_eq_some hn).mpr ⟨happ, rfl⟩
  simp only [publish, AppStore.addVersion, hget, hfree, Option.isSome_none, Bool.false_eq_true,
    if_false]
  exact ⟨rfl, _, rfl⟩

/-- A deploy is recorded with its files as the newest version of its app, which is now current. -/
structure Recorded (s s' : AppRegistry) (call : DeployCall) (d : Deployed) : Prop where
  history_eq : s'.history = s.history ++ [d]
  row_mem : d.row ∈ s'.store.versions
  contents_eq : d.contents = FileTree.ofFiles call.written
  current : ∃ app ∈ s'.store.apps, app.id = d.row.appId ∧ app.slug = call.appSlug ∧
    app.currentVersion = d.row.version
  newest : ∀ earlier ∈ s.history, earlier.row.appId = d.row.appId →
    earlier.row.version < d.row.version

theorem Opened.publish {s' : AppRegistry} (h : Opened s s' call app) (commit : Commit)
    (hplace : call.place.2 = .ok hasBackend) :
    let placed := { s' with
      files := s'.files.putAll (versionDir call.appSlug (app.currentVersion + 1)) call.written }
    Sound (Apps.publish placed call commit app hasBackend).1 ∧
      Recorded s (Apps.publish placed call commit app hasBackend).1 call
        ⟨call.row commit app hasBackend, FileTree.ofFiles call.written⟩ ∧
      ∃ reply, (Apps.publish placed call commit app hasBackend).2 = .ok reply := by
  intro placed
  have hfree : s'.store.getVersion app.id (app.currentVersion + 1) = none := by
    cases hfound : s'.store.getVersion app.id (app.currentVersion + 1) with
    | none => rfl
    | some _ =>
      obtain ⟨stop, hstop⟩ := (h.free (by rw [hfound]; rfl)).1
      rw [hplace] at hstop
      cases hstop
  have hunused : ∀ row ∈ s'.store.versions, row.key ≠ (app.id, app.currentVersion + 1) := by
    intro row hrow hkey
    exact AppStore.getVersion_eq_none.mp hfree row hrow (congrArg Prod.fst hkey)
      (congrArg Prod.snd hkey)
  have hplaced : Sound placed := by
    change Sound { s' with files := s'.files.putAll (versionDir call.appSlug _) call.written }
    rw [← h.slug_eq]
    exact h.sound.place h.app_mem fun ⟨row, hrow, hkey⟩ => absurd hkey (hunused row hrow)
  have hintact := hplaced.intact app h.app_mem
  obtain ⟨hstate, hreply⟩ :=
    publish_of_free call commit hasBackend hplaced.ids_nodup h.app_mem hfree
  set row := call.row commit app hasBackend with hrow_eq
  have hnew : row.key = (app.id, app.currentVersion + 1) := rfl
  rw [hstate]
  refine ⟨?_, ⟨?_, mem_append_right _ (mem_singleton_self _), rfl, ?_, ?_⟩, hreply⟩
  · rw [← h.slug_eq]
    refine hplaced.repoint h.app_mem (fun other hother => ?_) (fun d hd => ?_) ?_
      (fun other hother hid => ?_) (fun other hother hid => ?_) (fun d hd hid => ?_)
      (fun d hd hid => ?_) ⟨row, mem_append_right _ (mem_singleton_self _), hnew, rfl⟩
    · rw [mem_append, mem_singleton]
      exact or_iff_left fun heq => hother (heq ▸ rfl)
    · rw [mem_append, mem_singleton]
      exact or_iff_left fun heq => hd (heq ▸ rfl)
    · rw [map_append, map_singleton]
      refine Nodup.append hplaced.unique (nodup_singleton _) ?_
      intro key hkey hmem
      obtain rfl := mem_singleton.mp hmem
      obtain ⟨d, hd, heq⟩ := mem_map.mp hkey
      have hid : d.row.appId = app.id := congrArg Prod.fst heq
      exact hunused d.row (hintact.recorded d hd hid) heq
    · rcases mem_append.mp hother with hold | hrow
      · obtain ⟨d, hd, heq⟩ := hplaced.deployed other hold
        exact ⟨d, mem_append_left _ hd, heq⟩
      · exact ⟨_, mem_append_right _ (mem_singleton_self _), (mem_singleton.mp hrow).symm⟩
    · rcases mem_append.mp hother with hold | hrow
      · refine ⟨(hplaced.numbered other hold).1, fun v hv hlt => ?_⟩
        obtain ⟨earlier, hearlier, hkey⟩ := (hplaced.numbered other hold).2 v hv hlt
        exact ⟨earlier, mem_append_left _ hearlier, hkey⟩
      · obtain rfl := mem_singleton.mp hrow
        refine ⟨Nat.succ_pos _, fun v hv hlt => ?_⟩
        obtain ⟨earlier, hearlier, hkey⟩ :=
          hplaced.exists_version h.app_mem hv (Nat.lt_succ_iff.mp hlt)
        exact ⟨earlier, mem_append_left _ hearlier, hkey⟩
    · rcases mem_append.mp hd with hold | hlast
      · exact mem_append_left _ (hintact.recorded d hold hid)
      · obtain rfl := mem_singleton.mp hlast
        exact mem_append_right _ (mem_singleton_self _)
    · rcases mem_append.mp hd with hold | hlast
      · exact hintact.contents d hold hid
      · obtain rfl := mem_singleton.mp hlast
        change (s'.files.putAll (versionDir call.appSlug _) call.written).below
          (versionDir app.slug (app.currentVersion + 1)) = _
        rw [h.slug_eq, FileTree.below_putAll]
        refine FileTree.putAll_eq_ofFiles ?_
        rw [h.files_eq]
        exact h.clean hfree ⟨hasBackend, hplace⟩
  · rw [← h.history_eq]
  · refine ⟨_, AppStore.mem_update.mpr ⟨app, h.app_mem, if_pos rfl⟩, rfl, h.slug_eq, rfl⟩
  · intro d hd hid
    have hrow := hintact.recorded d (h.history_eq ▸ hd) hid
    exact Nat.lt_succ_of_le (hplaced.version_le hfree hrow hid)

theorem Sound.deploy (h : Sound s) (hpermitted : Permitted s (.deploy call)) :
    Sound (deployApp s call).1 ∧
      (call.Succeeds → (∃ d, Recorded s (deployApp s call).1 call d) ∧
        ∃ reply, (deployApp s call).2 = .ok reply) := by
  unfold deployApp
  cases hcommit : preflight call with
  | error stop =>
    refine ⟨h, fun hsucceeds => ?_⟩
    obtain ⟨commit, hok⟩ := hsucceeds.1
    rw [hcommit] at hok
    cases hok
  | ok commit =>
    obtain ⟨app, store, hopen⟩ := openApp_ok s.store call.name call.appSlug
    have hopened := h.opened (hpermitted ⟨commit, hcommit⟩) hopen
    simp only [hopen]
    cases hplace : call.place.2 with
    | ok hasBackend =>
      obtain ⟨hsound, hrecorded, hreply⟩ := hopened.publish commit hplace
      exact ⟨hsound, fun _ => ⟨⟨_, hrecorded⟩, hreply⟩⟩
    | error stop =>
      refine ⟨?_, fun hsucceeds => ?_⟩
      · simp only
        rw [← hopened.slug_eq]
        refine hopened.sound.place hopened.app_mem fun ⟨row, hrow, hkey⟩ => ?_
        rw [hopened.slug_eq]
        refine (hopened.free ?_).2
        rw [Option.isSome_iff_ne_none]
        intro hnone
        exact AppStore.getVersion_eq_none.mp hnone row hrow (congrArg Prod.fst hkey)
          (congrArg Prod.snd hkey)
      · obtain ⟨hasBackend, hok⟩ := hsucceeds.2
        rw [hplace] at hok
        cases hok

theorem Sound.step (h : Sound s) {call : Call} (hpermitted : Permitted s call) :
    Sound (step s call) := by
  cases call with
  | deploy call => exact (h.deploy hpermitted).1
  | rollback slug version => exact h.rollback slug version
  | delete slug => exact h.delete slug

theorem history_step (s : AppRegistry) (call : Call) : s.history <+: (step s call).history := by
  cases call with
  | deploy call =>
    change s.history <+: (deployApp s call).1.history
    unfold deployApp
    cases preflight call with
    | error stop => exact prefix_rfl
    | ok commit =>
      obtain ⟨app, store, hopen⟩ := openApp_ok s.store call.name call.appSlug
      simp only [hopen]
      cases call.place.2 with
      | error stop => exact prefix_rfl
      | ok hasBackend =>
        unfold publish
        simp only
        split
        · exact prefix_rfl
        · exact prefix_append _ _
  | rollback slug version =>
    change s.history <+: (rollbackApp s slug version).1.history
    unfold rollbackApp
    cases s.store.getBySlug slug with
    | none => exact prefix_rfl
    | some app =>
      cases version with
      | other text => exact prefix_rfl
      | version n =>
        simp only
        split
        · exact prefix_rfl
        · exact prefix_rfl
  | delete slug =>
    change s.history <+: (deleteApp s slug).1.history
    unfold deleteApp
    cases s.store.getBySlug slug with
    | none => exact prefix_rfl
    | some app => exact prefix_rfl

theorem history_run (s : AppRegistry) (calls : List Call) :
    s.history <+: (Run.run step s calls).history := by
  induction calls using List.reverseRecOn with
  | nil => exact prefix_rfl
  | append_singleton calls call ih =>
    rw [Run.run_snoc]
    exact ih.trans (history_step _ call)

/-- In a run of permitted calls every state keeps its versions, nothing recorded is forgotten,
and each deploy that succeeds is recorded as the newest version of its app. -/
theorem versions_kept {calls : List Call} (h : Run.Allowed Permitted step {} calls) :
    (∀ before after, calls = before ++ after →
      Kept (Run.run step {} before) ∧
        (Run.run step {} before).history <+: (Run.run step {} calls).history) ∧
    ∀ before call after, calls = before ++ .deploy call :: after → call.Succeeds →
      (∃ reply, (execute (Run.run step {} before) (.deploy call)).2 = .ok reply) ∧
        ∃ d, Recorded (Run.run step {} before) (Run.run step {} (before ++ [.deploy call]))
          call d := by
  have hsound := Run.invariant_of_allowed (I := Sound) sound_empty (fun s call hs => hs.step) h
  refine ⟨fun before after hsplit => ⟨(hsound before after hsplit).toKept, ?_⟩, ?_⟩
  · rw [hsplit, Run.run, Run.run, foldl_append]
    exact history_run _ after
  · intro before call after hsplit hsucceeds
    have hdeploy := (hsound before _ hsplit).deploy (h before _ after hsplit)
    rw [Run.run_snoc]
    exact (hdeploy.2 hsucceeds).symm

theorem orderly_of_empty (hfound : s.store.getBySlug call.appSlug = some app)
    (hfree : s.store.getVersion app.id (app.currentVersion + 1) = none)
    (hempty : ∀ path,
      s.files.below (versionDir call.appSlug (app.currentVersion + 1)) path = none) :
    Orderly s call where
  apart hmissing := by
    rw [hfound] at hmissing
    cases hmissing
  free app' happ hsome := by
    obtain rfl : app = app' := Option.some.inj (hfound.symm.trans happ)
    rw [hfree] at hsome
    cases hsome
  clean app' happ _ _ path hpath := by
    obtain rfl : app = app' := Option.some.inj (hfound.symm.trans happ)
    rw [hempty path] at hpath
    cases hpath

def deployOf (page : String) : DeployCall :=
  { name := "Todo App"
    buildDir := "/workspace/todo/dist"
    head := .ok { stdout := "abc1234567\nAdd todos\n" }
    list := .ok { stdout := "index.html\n" }
    copied := [(["index.html"], page)] }

def firstCalls : List Call := [.deploy (deployOf "first"), .rollback "todo-app" (.version 1)]

theorem deployOf_succeeds (page : String) : (deployOf page).Succeeds := ⟨⟨_, rfl⟩, _, rfl⟩

theorem firstCalls_files : (Run.run step {} firstCalls).files =
    ((FileTree.putAll (fun _ => none) (versionDir "todo-app" 1) (deployOf "first").written).put
      (currentPath "todo-app") (pointer 1)).put (currentPath "todo-app") (pointer 1) := rfl

theorem redeploy_permitted :
    Run.Allowed Permitted step {} (firstCalls ++ [.deploy (deployOf "second")]) := by
  refine Run.allowed_cons (e := Call.deploy (deployOf "first")) (fun _ => ?_) (Run.allowed_cons
    (e := Call.rollback "todo-app" (.version 1)) trivial (Run.allowed_cons
    (e := Call.deploy (deployOf "second")) (fun _ => ?_) (Run.allowed_nil _ _ _)))
  · refine ⟨fun _ app happ => absurd happ not_mem_nil, ?_, ?_⟩
    · intro app happ
      cases happ
    · intro app happ
      cases happ
  · have hfound : (Run.run step {} firstCalls).store.getBySlug "todo-app" =
        some { id := 0, name := "Todo App", slug := "todo-app", currentVersion := 1 } := by decide
    refine orderly_of_empty hfound (by decide) fun path => ?_
    change (Run.run step {} firstCalls).files.below (versionDir "todo-app" 2) path = none
    have hpointer := versionDir_not_prefix_currentPath "todo-app" 2
    rw [firstCalls_files, FileTree.below_put_of_outside hpointer,
      FileTree.below_put_of_outside hpointer,
      FileTree.below_putAll_of_apart _ (versionDir_apart "todo-app" (by decide))]
    rfl

theorem versions_kept_redeployed :
    ∃ d, Recorded (Run.run step {} firstCalls)
      (Run.run step {} (firstCalls ++ [.deploy (deployOf "second")])) (deployOf "second") d :=
  ((versions_kept redeploy_permitted).2 firstCalls (deployOf "second") [] rfl
    (deployOf_succeeds _)).2

/-- Two deploys, of which the first is rolled back to. -/
def rolledBack : List Call :=
  [.deploy (deployOf "first"), .deploy (deployOf "second"), .rollback "todo-app" (.version 1)]

/-- The next deploy turns the pointer to the second version, which is not the current one, and is
itself recorded nowhere. -/
theorem rolledBack_redeploy_lost :
    (¬ ∀ calls, Kept (Run.run step {} calls)) ∧
      ¬ ∀ calls (call : DeployCall), call.Succeeds → ∃ d,
        Recorded (Run.run step {} calls) (Run.run step {} (calls ++ [.deploy call])) call d := by
  refine ⟨fun h => ?_, fun h => ?_⟩
  · let s := Run.run step {} (rolledBack ++ [.deploy (deployOf "third")])
    have hpointed := ((h (rolledBack ++ [.deploy (deployOf "third")])).intact
      { id := 0, name := "Todo App", slug := "todo-app", currentVersion := 1 } (by decide)).pointed
    have hcurrent : s.files (currentPath "todo-app") = some (pointer 2) := by decide
    rcases hpointed with ⟨hzero, -, -⟩ | ⟨row, -, -, -, hfile⟩
    · cases hzero
    · have heq : some (pointer 2) = some (pointer 1) := hcurrent.symm.trans hfile
      revert heq
      decide
  · obtain ⟨d, hd⟩ := h rolledBack (deployOf "third") (deployOf_succeeds _)
    have hlength := congrArg List.length hd.history_eq
    have hsame : (Run.run step {} (rolledBack ++ [.deploy (deployOf "third")])).history.length =
        (Run.run step {} rolledBack).history.length := by decide
    rw [hsame, length_append, length_singleton] at hlength
    omega

end CrabbyKit.Apps
