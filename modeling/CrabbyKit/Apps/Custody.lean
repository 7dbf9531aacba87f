import CrabbyKit.Apps.Store
import CrabbyKit.Core.Run

/-!
# Versions of deployed apps

An app is intact while its pointer, its row and a version agree and every version that was
recorded of it still has the files of its deploy. The tools work in the directory of one app at
a time, which leaves the others intact as long as their directories lie apart.
-/

namespace CrabbyKit.Apps

open List

open FileTree (Apart)

theorem versionName_injective : Function.Injective versionName := by
  intro a b h
  have hrepr : (Nat.repr a).toList = (Nat.repr b).toList := by
    have hlist := congrArg String.toList h
    simpa [versionName] using hlist
  rw [Nat.toList_repr, Nat.toList_repr] at hrepr
  have hread := congrArg (Nat.ofDigitChars 10 · 0) hrepr
  simpa only [Nat.ofDigitChars_ten_toDigits] using hread

theorem versionDir_apart (slug : String) {v w : Nat} (h : v ≠ w) :
    Apart (versionDir slug v) (versionDir slug w) := by
  rw [versionDir, versionDir, FileTree.apart_append_left]
  change Apart ([".deploys"] ++ [versionName v]) ([".deploys"] ++ [versionName w])
  rw [FileTree.apart_append_left]
  exact FileTree.apart_cons_of_ne (fun he => h (versionName_injective he)) _ _

theorem versionDir_not_prefix_currentPath (slug : String) (v : Nat) :
    ¬ versionDir slug v <+: currentPath slug := by
  rw [versionDir, currentPath, prefix_append_right_inj]
  intro h
  have hname : versionName v = "CURRENT" := by
    simpa using h
  have hhead := congrArg (fun name => name.toList.head?) hname
  simp [versionName] at hhead

/-- The pointer of an app, its row and one of its versions agree, or nothing is deployed. -/
def Pointed (s : AppRegistry) (app : AppRecord) : Prop :=
  (app.currentVersion = 0 ∧ (∀ row ∈ s.store.versions, row.appId ≠ app.id) ∧
    s.files (currentPath app.slug) = none) ∨
  ∃ row ∈ s.store.versions, row.key = (app.id, app.currentVersion) ∧
    row.hasBackend = app.hasBackend ∧
    s.files (currentPath app.slug) = some (pointer app.currentVersion)

/-- An app points at one of its versions, and each of these still has the files of the deploy
that recorded it. -/
structure Intact (s : AppRegistry) (app : AppRecord) : Prop where
  pointed : Pointed s app
  recorded : ∀ d ∈ s.history, d.row.appId = app.id → d.row ∈ s.store.versions
  contents : ∀ d ∈ s.history, d.row.appId = app.id →
    s.files.below (versionDir app.slug d.row.version) = d.contents

/-- No number was given twice, every row is one that a deploy recorded, and all apps are
intact. -/
structure Kept (s : AppRegistry) : Prop where
  unique : (s.history.map fun d => d.row.key).Nodup
  deployed : ∀ row ∈ s.store.versions, ∃ d ∈ s.history, d.row = row
  intact : ∀ app ∈ s.store.apps, Intact s app

/-- What the tools rely on besides. -/
structure Sound (s : AppRegistry) : Prop extends Kept s where
  ids_nodup : (s.store.apps.map AppRecord.id).Nodup
  ids_lt : ∀ app ∈ s.store.apps, app.id < s.store.nextId
  past_lt : ∀ d ∈ s.history, d.row.appId < s.store.nextId
  owned : ∀ row ∈ s.store.versions, ∃ app ∈ s.store.apps, app.id = row.appId
  apart : ∀ a ∈ s.store.apps, ∀ b ∈ s.store.apps, a.id ≠ b.id →
    Apart (appDir a.slug) (appDir b.slug)
  /-- Versions are numbered from one without a gap. -/
  numbered : ∀ row ∈ s.store.versions, 0 < row.version ∧ ∀ v, 0 < v → v < row.version →
    ∃ earlier ∈ s.store.versions, earlier.key = (row.appId, v)
  files_owned : ∀ path, (s.files path).isSome → ∃ app ∈ s.store.apps, appDir app.slug <+: path

theorem sound_empty : Sound {} where
  unique := nodup_nil
  deployed := by simp
  intact := by simp
  ids_nodup := nodup_nil
  ids_lt := by simp
  past_lt := by simp
  owned := by simp
  apart := by simp
  numbered := by simp
  files_owned := by simp

/-- A step in the directory of one app. -/
structure Touches (s s' : AppRegistry) (app : AppRecord) : Prop where
  ids : s'.store.apps.map AppRecord.id = s.store.apps.map AppRecord.id
  apps : ∀ a ∈ s'.store.apps, (a.id = app.id ∧ a.slug = app.slug) ∨
    (a ∈ s.store.apps ∧ a.id ≠ app.id)
  nextId : s'.store.nextId = s.store.nextId
  rows : ∀ row, row.appId ≠ app.id → (row ∈ s'.store.versions ↔ row ∈ s.store.versions)
  past : ∀ d, d.row.appId ≠ app.id → (d ∈ s'.history ↔ d ∈ s.history)
  files : ∀ path, ¬ appDir app.slug <+: path → s'.files path = s.files path

variable {s : AppRegistry}

variable {s' : AppRegistry}

theorem Pointed.congr {a : AppRecord} (h : Pointed s a)
    (hrows : ∀ row, row.appId = a.id → (row ∈ s'.store.versions ↔ row ∈ s.store.versions))
    (hfile : s'.files (currentPath a.slug) = s.files (currentPath a.slug)) : Pointed s' a := by
  rcases h with ⟨hzero, hnone, hcurrent⟩ | ⟨row, hrow, hkey, hbackend, hcurrent⟩
  · refine .inl ⟨hzero, fun row hrow hid => ?_, hfile.trans hcurrent⟩
    exact hnone row ((hrows row hid).mp hrow) hid
  · refine .inr ⟨row, ?_, hkey, hbackend, hfile.trans hcurrent⟩
    exact (hrows row (congrArg Prod.fst hkey)).mpr hrow

theorem Intact.congr {a : AppRecord} (h : Intact s a)
    (hrows : ∀ row, row.appId = a.id → (row ∈ s'.store.versions ↔ row ∈ s.store.versions))
    (hpast : ∀ d, d.row.appId = a.id → (d ∈ s'.history ↔ d ∈ s.history))
    (hfiles : ∀ path, appDir a.slug <+: path → s'.files path = s.files path) : Intact s' a where
  pointed := h.pointed.congr hrows (hfiles _ (prefix_append _ _))
  recorded d hd hid := (hrows d.row hid).mpr (h.recorded d ((hpast d hid).mp hd) hid)
  contents d hd hid := by
    rw [← h.contents d ((hpast d hid).mp hd) hid]
    funext path
    apply hfiles
    rw [versionDir, append_assoc]
    exact prefix_append _ _

variable {app : AppRecord}

theorem Sound.touch (h : Sound s) (happ : app ∈ s.store.apps)
    (ht : Touches s s' app) (unique : (s'.history.map fun d => d.row.key).Nodup)
    (deployed : ∀ row ∈ s'.store.versions, row.appId = app.id → ∃ d ∈ s'.history, d.row = row)
    (numbered : ∀ row ∈ s'.store.versions, row.appId = app.id →
      0 < row.version ∧ ∀ v, 0 < v → v < row.version →
        ∃ earlier ∈ s'.store.versions, earlier.key = (row.appId, v))
    (intact : ∀ a ∈ s'.store.apps, a.id = app.id → Intact s' a) : Sound s' where
  unique := unique
  deployed row hrow := by
    by_cases hid : row.appId = app.id
    · exact deployed row hrow hid
    · obtain ⟨d, hd, heq⟩ := h.deployed row ((ht.rows row hid).mp hrow)
      exact ⟨d, (ht.past d (heq ▸ hid)).mpr hd, heq⟩
  intact a ha := by
    rcases ht.apps a ha with ⟨hid, -⟩ | ⟨hold, hid⟩
    · exact intact a ha hid
    · refine (h.intact a hold).congr (fun row hrow => ht.rows row (hrow ▸ hid))
        (fun d hd => ht.past d (hd ▸ hid)) fun path hpath => ht.files path ?_
      exact (h.apart app happ a hold (Ne.symm hid)).outside hpath
  ids_nodup := ht.ids ▸ h.ids_nodup
  ids_lt a ha := by
    have hmem : a.id ∈ s.store.apps.map AppRecord.id := ht.ids ▸ mem_map_of_mem ha
    obtain ⟨old, hold, hid⟩ := mem_map.mp hmem
    rw [← hid, ht.nextId]
    exact h.ids_lt old hold
  past_lt d hd := by
    rw [ht.nextId]
    by_cases hid : d.row.appId = app.id
    · rw [hid]
      exact h.ids_lt app happ
    · exact h.past_lt d ((ht.past d hid).mp hd)
  owned row hrow := by
    have hmem : row.appId ∈ s'.store.apps.map AppRecord.id := by
      rw [ht.ids]
      by_cases hid : row.appId = app.id
      · exact hid ▸ mem_map_of_mem happ
      · obtain ⟨a, ha, heq⟩ := h.owned row ((ht.rows row hid).mp hrow)
        exact heq ▸ mem_map_of_mem ha
    exact mem_map.mp hmem
  apart a ha b hb hne := by
    rcases ht.apps a ha with ⟨hida, hsluga⟩ | ⟨holda, hida⟩ <;>
      rcases ht.apps b hb with ⟨hidb, hslugb⟩ | ⟨holdb, hidb⟩
    · exact absurd (hida.trans hidb.symm) hne
    · rw [hsluga]
      exact h.apart app happ b holdb (Ne.symm hidb)
    · rw [hslugb]
      exact h.apart a holda app happ hida
    · exact h.apart a holda b holdb hne
  numbered row hrow := by
    by_cases hid : row.appId = app.id
    · exact numbered row hrow hid
    · obtain ⟨hpos, hgap⟩ := h.numbered row ((ht.rows row hid).mp hrow)
      refine ⟨hpos, fun v hv hlt => ?_⟩
      obtain ⟨earlier, hearlier, hkey⟩ := hgap v hv hlt
      have hother : earlier.appId ≠ app.id := by
        rw [show earlier.appId = row.appId from congrArg Prod.fst hkey]
        exact hid
      exact ⟨earlier, (ht.rows earlier hother).mpr hearlier, hkey⟩
  files_owned path hpath := by
    have hslug : ∀ a ∈ s.store.apps, appDir a.slug <+: path →
        ∃ a' ∈ s'.store.apps, appDir a'.slug <+: path := by
      intro a ha hinside
      have hmem : a.id ∈ s'.store.apps.map AppRecord.id := ht.ids ▸ mem_map_of_mem ha
      obtain ⟨a', ha', hid⟩ := mem_map.mp hmem
      refine ⟨a', ha', ?_⟩
      rcases ht.apps a' ha' with ⟨hid', hslug'⟩ | ⟨hold, -⟩
      · have heq : a = app := Table.eq_of_key h.ids_nodup ha happ (hid.symm.trans hid')
        rw [hslug', ← heq]
        exact hinside
      · have heq : a' = a := Table.eq_of_key h.ids_nodup hold ha hid
        rw [heq]
        exact hinside
    by_cases hin : appDir app.slug <+: path
    · exact hslug app happ hin
    · rw [ht.files path hin] at hpath
      obtain ⟨a, ha, hinside⟩ := h.files_owned path hpath
      exact hslug a ha hinside

theorem openApp_cases {store opened : AppStore} {name slug : String}
    (h : openApp store name slug = .ok (app, opened)) :
    (store.getBySlug slug = some app ∧ opened = store) ∨
      (store.getBySlug slug = none ∧ app = { id := store.nextId, name, slug } ∧
        opened = { store with apps := store.apps ++ [app], nextId := store.nextId + 1 }) := by
  unfold openApp at h
  cases hfound : store.getBySlug slug with
  | some found =>
    simp only [hfound, Except.ok.injEq, Prod.mk.injEq] at h
    exact .inl ⟨congrArg some h.1, h.2.symm⟩
  | none =>
    have hcreate : store.create name slug =
        .ok ({ id := store.nextId, name, slug }, { store with
          apps := store.apps ++ [{ id := store.nextId, name, slug }]
          nextId := store.nextId + 1 }) := by
      rw [AppStore.create, hfound]
      rfl
    simp only [hfound, hcreate, Except.ok.injEq, Prod.mk.injEq] at h
    obtain ⟨rfl, rfl⟩ := h
    exact .inr ⟨rfl, rfl, rfl⟩

theorem Sound.appId_lt (h : Sound s) {row : AppVersion}
    (hrow : row ∈ s.store.versions) : row.appId < s.store.nextId := by
  obtain ⟨d, hd, rfl⟩ := h.deployed row hrow
  exact h.past_lt d hd

theorem Sound.files_eq_none (h : Sound s) {dir path : List String}
    (hapart : ∀ a ∈ s.store.apps, Apart dir (appDir a.slug)) (hpath : dir <+: path) :
    s.files path = none := by
  cases hfile : s.files path with
  | none => rfl
  | some content =>
    obtain ⟨a, ha, hinside⟩ := h.files_owned path (by rw [hfile]; rfl)
    exact absurd hpath ((hapart a ha).outside hinside)

theorem Sound.create (h : Sound s) (name : String) {slug : String}
    (hapart : ∀ a ∈ s.store.apps, Apart (appDir slug) (appDir a.slug)) :
    Sound { s with store := { s.store with
      apps := s.store.apps ++ [{ id := s.store.nextId, name, slug }]
      nextId := s.store.nextId + 1 } } where
  unique := h.unique
  deployed := h.deployed
  intact a ha := by
    rcases mem_append.mp ha with hold | hnew
    · exact (h.intact a hold).congr (fun _ _ => Iff.rfl) (fun _ _ => Iff.rfl) fun _ _ => rfl
    · obtain rfl := mem_singleton.mp hnew
      refine ⟨.inl ⟨rfl, fun row hrow => (h.appId_lt hrow).ne, ?_⟩, fun d hd hid => ?_,
        fun d hd hid => ?_⟩
      · exact h.files_eq_none hapart (prefix_append _ _)
      · exact absurd hid (h.past_lt d hd).ne
      · exact absurd hid (h.past_lt d hd).ne
  ids_nodup := by
    rw [map_append, map_singleton]
    refine Nodup.append h.ids_nodup (nodup_singleton _) ?_
    intro id hid hnew
    obtain rfl := mem_singleton.mp hnew
    obtain ⟨a, ha, heq⟩ := mem_map.mp hid
    exact (h.ids_lt a ha).ne heq
  ids_lt a ha := by
    rcases mem_append.mp ha with hold | hnew
    · exact (h.ids_lt a hold).trans (Nat.lt_succ_self _)
    · obtain rfl := mem_singleton.mp hnew
      exact Nat.lt_succ_self _
  past_lt d hd := (h.past_lt d hd).trans (Nat.lt_succ_self _)
  owned row hrow := by
    obtain ⟨a, ha, hid⟩ := h.owned row hrow
    exact ⟨a, mem_append_left _ ha, hid⟩
  apart a ha b hb hne := by
    rcases mem_append.mp ha with holda | hnewa <;>
      rcases mem_append.mp hb with holdb | hnewb
    · exact h.apart a holda b holdb hne
    · obtain rfl := mem_singleton.mp hnewb
      exact (hapart a holda).symm
    · obtain rfl := mem_singleton.mp hnewa
      exact hapart b holdb
    · rw [mem_singleton.mp hnewa, mem_singleton.mp hnewb] at hne
      exact absurd rfl hne
  numbered := h.numbered
  files_owned path hpath := by
    obtain ⟨a, ha, hinside⟩ := h.files_owned path hpath
    exact ⟨a, mem_append_left _ ha, hinside⟩

theorem Sound.place (h : Sound s) (happ : app ∈ s.store.apps)
    {version : Nat} {files : List (List String × String)}
    (hsame : (∃ row ∈ s.store.versions, row.key = (app.id, version)) → ∀ path content,
      FileTree.ofFiles files path = some content →
        s.files.below (versionDir app.slug version) path = some content) :
    Sound { s with files := s.files.putAll (versionDir app.slug version) files } := by
  have hdir : appDir app.slug <+: versionDir app.slug version := prefix_append _ _
  have htouch : Touches s
      { s with files := s.files.putAll (versionDir app.slug version) files } app :=
    { ids := rfl
      apps := fun a ha => by
        by_cases hid : a.id = app.id
        · rw [Table.eq_of_key h.ids_nodup ha happ hid]
          exact .inl ⟨rfl, rfl⟩
        · exact .inr ⟨ha, hid⟩
      nextId := rfl
      rows := fun _ _ => Iff.rfl
      past := fun _ _ => Iff.rfl
      files := fun path hpath =>
        FileTree.putAll_of_outside files fun hin => hpath (hdir.trans hin) }
  refine h.touch happ htouch h.unique (fun row hrow _ => h.deployed row hrow)
    (fun row hrow _ => h.numbered row hrow) fun a ha hid => ?_
  obtain rfl : a = app := Table.eq_of_key h.ids_nodup ha happ hid
  refine ⟨(h.intact a happ).pointed.congr (fun _ _ => Iff.rfl) ?_, (h.intact a happ).recorded,
    fun d hd hid => ?_⟩
  · exact FileTree.putAll_of_outside files (versionDir_not_prefix_currentPath a.slug version)
  · rw [← (h.intact a happ).contents d hd hid]
    by_cases hv : d.row.version = version
    · have hrow := (h.intact a happ).recorded d hd hid
      rw [hv, FileTree.below_putAll]
      exact FileTree.putAll_eq_self (hsame ⟨d.row, hrow, by rw [AppVersion.key, hid, hv]⟩)
    · exact FileTree.below_putAll_of_apart files (versionDir_apart a.slug (Ne.symm hv))

theorem Sound.version_le (h : Sound s)
    (hfree : s.store.getVersion app.id (app.currentVersion + 1) = none) {row : AppVersion}
    (hrow : row ∈ s.store.versions) (hid : row.appId = app.id) :
    row.version ≤ app.currentVersion := by
  by_contra hlt
  rw [AppStore.getVersion_eq_none] at hfree
  by_cases hnext : row.version = app.currentVersion + 1
  · exact hfree row hrow hid hnext
  · obtain ⟨earlier, hearlier, hkey⟩ := (h.numbered row hrow).2 (app.currentVersion + 1)
      (Nat.succ_pos _) (by omega)
    exact hfree earlier hearlier ((congrArg Prod.fst hkey).trans hid) (congrArg Prod.snd hkey)

theorem Sound.exists_version (h : Sound s)
    (happ : app ∈ s.store.apps) {v : Nat} (hpos : 0 < v) (hle : v ≤ app.currentVersion) :
    ∃ row ∈ s.store.versions, row.key = (app.id, v) := by
  rcases (h.intact app happ).pointed with ⟨hzero, -, -⟩ | ⟨row, hrow, hkey, -, -⟩
  · omega
  · have hversion : row.version = app.currentVersion := congrArg Prod.snd hkey
    by_cases hv : v = app.currentVersion
    · exact ⟨row, hrow, hv ▸ hkey⟩
    · obtain ⟨earlier, hearlier, heq⟩ := (h.numbered row hrow).2 v hpos (by omega)
      exact ⟨earlier, hearlier, by rw [heq, show row.appId = app.id from congrArg Prod.fst hkey]⟩

end CrabbyKit.Apps
