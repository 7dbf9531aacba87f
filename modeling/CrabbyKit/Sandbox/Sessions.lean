import CrabbyKit.Capabilities.Storage
import CrabbyKit.Session.Types

/-!
# Elevation state of the sandbox

`session-state.ts` over the storage of the sandbox capability.
-/

namespace CrabbyKit.Sandbox

open List

open Capabilities (Key KvStore)

inductive Stored
  | flag (value : Bool)
  | text (value : String)
  | time (value : Stamp)
  deriving DecidableEq, Repr

abbrev Storage := KvStore Stored

def sessionPrefix : Key := "session:".toList

def procPrefix : Key := "proc:".toList

def elevatedSuffix : Key := ":elevated".toList

def elevatedKey (sessionId : String) : Key := sessionPrefix ++ sessionId.toList ++ elevatedSuffix

def reasonKey (sessionId : String) : Key := sessionPrefix ++ sessionId.toList ++ ":reason".toList

def elevatedAtKey (sessionId : String) : Key :=
  sessionPrefix ++ sessionId.toList ++ ":elevatedAt".toList

def procOwnerKey (containerSessionId : String) : Key := procPrefix ++ containerSessionId.toList

/-- What is stored of an elevated session. -/
inductive Field
  | elevated
  | reason
  | elevatedAt
  deriving DecidableEq, Repr

def Field.key (sessionId : String) : Field → Key
  | .elevated => elevatedKey sessionId
  | .reason => reasonKey sessionId
  | .elevatedAt => elevatedAtKey sessionId

/-- The keys that `setSessionElevated` puts and `clearSessionElevation` deletes, in their order. -/
def fields : List Field := [.elevated, .reason, .elevatedAt]

namespace Storage

variable (storage : Storage)

def isSessionElevated (sessionId : String) : Bool :=
  storage.get (elevatedKey sessionId) = some (.flag true)

def isElevation (row : Key × Stored) : Bool :=
  sessionPrefix.isPrefixOf row.1 && elevatedSuffix.isSuffixOf row.1 && row.2 = .flag true

def getElevatedSessionIds : List String :=
  (storage.list sessionPrefix).filterMap fun row =>
    if elevatedSuffix.isSuffixOf row.1 && row.2 = .flag true then
      some (String.ofList ((row.1.take (row.1.length - elevatedSuffix.length)).drop
        sessionPrefix.length))
    else none

def isAnySessionElevated : Bool := storage.getElevatedSessionIds.length > 0

/-- The put of a field by `setSessionElevated`. -/
def setField (sessionId reason : String) (elevatedAt : Stamp) : Field → Storage
  | .elevated => storage.put (elevatedKey sessionId) (.flag true)
  | .reason => storage.put (reasonKey sessionId) (.text reason)
  | .elevatedAt => storage.put (elevatedAtKey sessionId) (.time elevatedAt)

def setProcessOwner (containerSessionId agentSessionId : String) : Storage :=
  storage.put (procOwnerKey containerSessionId) (.text agentSessionId)

def getProcessOwner (containerSessionId : String) : Option Stored :=
  storage.get (procOwnerKey containerSessionId)

def removeProcessOwner (containerSessionId : String) : Storage :=
  (storage.delete (procOwnerKey containerSessionId)).1

/-- The keys that `clearAllElevation` goes through. -/
def elevationKeys : List Key := (storage.list sessionPrefix).map Prod.fst

/-- The keys that `clearAllProcessOwners` goes through. -/
def ownerKeys : List Key := (storage.list procPrefix).map Prod.fst

variable {storage} {key : Key} {value : Stored}

theorem isAnySessionElevated_iff :
    storage.isAnySessionElevated = true ↔ ∃ row ∈ storage.rows, isElevation row = true := by
  have hmem : ∀ id, id ∈ storage.getElevatedSessionIds ↔
      ∃ row ∈ storage.rows, isElevation row = true ∧
        String.ofList ((row.1.take (row.1.length - elevatedSuffix.length)).drop
          sessionPrefix.length) = id := by
    intro id
    simp only [getElevatedSessionIds, KvStore.list, SortedMap.entries, mem_filterMap, mem_filter,
      Option.ite_none_right_eq_some, Option.some.injEq, isElevation, Bool.and_eq_true, and_assoc]
  unfold isAnySessionElevated
  rw [decide_eq_true_iff, gt_iff_lt, length_pos_iff_exists_mem]
  constructor
  · rintro ⟨id, hid⟩
    obtain ⟨row, hrow, helevation, -⟩ := (hmem id).mp hid
    exact ⟨row, hrow, helevation⟩
  · rintro ⟨row, hrow, helevation⟩
    exact ⟨_, (hmem _).mpr ⟨row, hrow, helevation, rfl⟩⟩

variable (sessionId : String)

theorem isElevation_elevatedKey : isElevation (elevatedKey sessionId, .flag true) = true := by
  have hstart : sessionPrefix.isPrefixOf (elevatedKey sessionId) = true := by
    rw [ isPrefixOf_iff_prefix, elevatedKey, append_assoc]
    exact prefix_append _ _
  have hend : elevatedSuffix.isSuffixOf (elevatedKey sessionId) = true := by
    rw [isSuffixOf_iff_suffix]
    exact suffix_append _ _
  simp only [isElevation, hstart, hend, decide_true, Bool.and_self]

theorem isAny_of_isSessionElevated {sessionId : String}
    (h : storage.isSessionElevated sessionId = true) : storage.isAnySessionElevated = true :=
  isAnySessionElevated_iff.mpr ⟨_, (SortedMap.get_eq_some_iff _).mp (of_decide_eq_true h),
    isElevation_elevatedKey sessionId⟩

theorem isSessionElevated_put :
    isSessionElevated (storage.put (elevatedKey sessionId) (.flag true)) sessionId = true :=
  decide_eq_true (SortedMap.get_put _ _ _)

theorem isAny_of_delete (h : isAnySessionElevated (storage.delete key).1 = true) :
    storage.isAnySessionElevated = true := by
  obtain ⟨row, hrow, helevation⟩ := isAnySessionElevated_iff.mp h
  exact isAnySessionElevated_iff.mpr ⟨row, mem_of_mem_filter hrow, helevation⟩

def Apart (key : Key) : Prop := ∀ value, isElevation (key, value) = false

theorem isAny_delete (hkey : Apart key) (h : storage.isAnySessionElevated = true) :
    isAnySessionElevated (storage.delete key).1 = true := by
  obtain ⟨row, hrow, helevation⟩ := isAnySessionElevated_iff.mp h
  have hne : row.1 ≠ key := by
    intro heq
    rw [← Prod.eta row, heq, hkey] at helevation
    cases helevation
  exact isAnySessionElevated_iff.mpr ⟨row, mem_filter.mpr ⟨hrow, by simpa using hne⟩, helevation⟩

theorem isAny_put_iff (hkey : Apart key) :
    isAnySessionElevated (storage.put key value) = true ↔ storage.isAnySessionElevated = true := by
  have hrows : ∀ row, row ∈ (storage.put key value).rows ↔
      (row ∈ storage.rows ∧ row.1 ≠ key) ∨ row = (key, value) := by
    intro row
    simp only [SortedMap.put, mem_append, mem_cons, mem_filter, decide_eq_true_eq]
    constructor
    · rintro (⟨hrow, hlt⟩ | rfl | ⟨hrow, hlt⟩)
      · exact .inl ⟨hrow, hlt.ne⟩
      · exact .inr rfl
      · exact .inl ⟨hrow, hlt.ne'⟩
    · rintro (⟨hrow, hne⟩ | rfl)
      · rcases lt_or_gt_of_ne hne with hlt | hgt
        · exact .inl ⟨hrow, hlt⟩
        · exact .inr (.inr ⟨hrow, hgt⟩)
      · exact .inr (.inl rfl)
  rw [isAnySessionElevated_iff, isAnySessionElevated_iff]
  constructor
  · rintro ⟨row, hrow, helevation⟩
    rcases (hrows row).mp hrow with ⟨hold, -⟩ | rfl
    · exact ⟨row, hold, helevation⟩
    · rw [hkey] at helevation
      cases helevation
  · rintro ⟨row, hrow, helevation⟩
    refine ⟨row, (hrows row).mpr (.inl ⟨hrow, fun heq => ?_⟩), helevation⟩
    rw [← Prod.eta row, heq, hkey] at helevation
    cases helevation

theorem apart_of_getLast? {front back : Key} {c : Char} (hback : back.getLast? = some c)
    (hc : c ≠ 'd') : Apart (front ++ back) := by
  intro value
  have hend : elevatedSuffix.isSuffixOf (front ++ back) = false := by
    rw [← Bool.not_eq_true, isSuffixOf_iff_suffix]
    rintro ⟨start, hsplit⟩
    have hlast := congrArg List.getLast? hsplit
    have helevated : elevatedSuffix.getLast? = some 'd' := by decide
    rw [getLast?_append, getLast?_append, hback, helevated, Option.some_or, Option.some_or] at hlast
    exact hc (Option.some.inj hlast).symm
  simp only [isElevation, hend, Bool.and_false, Bool.false_and]

theorem apart_reasonKey : Apart (reasonKey sessionId) := by
  have hlast : ":reason".toList.getLast? = some 'n' := by decide
  exact apart_of_getLast? hlast (by decide)

theorem apart_elevatedAtKey : Apart (elevatedAtKey sessionId) := by
  have hlast : ":elevatedAt".toList.getLast? = some 't' := by decide
  exact apart_of_getLast? hlast (by decide)

theorem apart_of_procPrefix (hkey : procPrefix <+: key) : Apart key := by
  intro value
  have hstart : sessionPrefix.isPrefixOf key = false := by
    rw [← Bool.not_eq_true, isPrefixOf_iff_prefix]
    intro hsession
    have hlen : sessionPrefix.take 1 <+: key := ( take_prefix 1 _).trans hsession
    have hproc : procPrefix.take 1 <+: key := ( take_prefix 1 _).trans hkey
    have heq := prefix_of_prefix_length_le hlen hproc (by decide)
    revert heq
    decide
  simp only [isElevation, hstart, Bool.false_and]

theorem apart_procOwnerKey (containerSessionId : String) :
    Apart (procOwnerKey containerSessionId) := apart_of_procPrefix (prefix_append _ _)

theorem apart_of_ownerKeys (hkey : key ∈ storage.ownerKeys) : Apart key := by
  obtain ⟨row, hrow, rfl⟩ := mem_map.mp hkey
  have hstart : procPrefix.isPrefixOf row.1 = true := (mem_filter.mp hrow).2
  exact apart_of_procPrefix ( isPrefixOf_iff_prefix.mp hstart)

end Storage

end CrabbyKit.Sandbox
