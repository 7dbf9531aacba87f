import CrabbyKit.DoomLoop.StableStringify
import Mathlib.Data.List.Induction

/-!
# Doom loops

`capability.ts` of the doom-loop detection. The calls of a session are kept in the storage of the
capability as JSON, trimmed to a window, and the length of a run is read off their end.
-/

namespace CrabbyKit.DoomLoop

open List

/-- `DoomLoopConfig`, as its schema admits it. -/
structure DoomLoopConfig where
  threshold : Nat
  lookbackWindow : Nat
  allowRepeatTools : List String
  minimum : 1 ≤ threshold

structure ToolCallRecord where
  toolName : String
  argsSignature : String
  deriving DecidableEq, Repr

def ToolCallRecord.toJson (record : ToolCallRecord) : JsonValue :=
  .obj [("toolName", .str record.toolName), ("argsSignature", .str record.argsSignature)]

def ToolCallRecord.ofJson (value : JsonValue) : Option ToolCallRecord :=
  match value.field "toolName", value.field "argsSignature" with
  | some (.str toolName), some (.str argsSignature) => some ⟨toolName, argsSignature⟩
  | _, _ => none

/-- `CapabilityStorage`, which holds texts here. -/
abbrev CapabilityStorage := String → Option String

def storageKeyPrefix : String := "recent-tool-calls"

def storageKey (sessionId : String) : String := storageKeyPrefix ++ ":" ++ sessionId

/-- `getRecentCalls`; nothing but `recordToolCall` writes what it reads. -/
def getRecentCalls (storage : CapabilityStorage) (key : String) : List ToolCallRecord :=
  match storage key with
  | none => []
  | some raw =>
    if raw = "" then []
    else
      match JsonValue.parse raw with
      | some (.arr items) => items.filterMap ToolCallRecord.ofJson
      | _ => []

/-- `while (recent.length > lookbackWindow) recent.shift()` -/
def trim (lookbackWindow : Nat) : List ToolCallRecord → List ToolCallRecord
  | [] => []
  | record :: recent =>
    if lookbackWindow < (record :: recent).length then trim lookbackWindow recent
    else record :: recent

def recordToolCall (storage : CapabilityStorage) (key toolName : String) (args : Args)
    (lookbackWindow : Nat) : CapabilityStorage :=
  let recent := trim lookbackWindow
    (getRecentCalls storage key ++ [⟨toolName, stableStringify args⟩])
  Function.update storage key
    (some (JsonValue.stringify (.arr (recent.map ToolCallRecord.toJson))))

/-- The event of `beforeToolExecution`, with the session of its context. -/
structure Call where
  sessionId : String
  toolName : String
  args : Args

/-- What the hook returns and broadcasts when it blocks. -/
structure Block where
  count : Nat
  reason : String
  deriving DecidableEq, Repr

def countIdentical (toolName argsSignature : String) : List ToolCallRecord → Nat
  | [] => 0
  | record :: earlier =>
    if record.toolName = toolName ∧ record.argsSignature = argsSignature then
      countIdentical toolName argsSignature earlier + 1
    else 0

def blockReason (toolName : String) (count : Nat) : String :=
  "Doom loop detected: you have called '" ++ toolName ++ "' with identical arguments " ++
    toString count ++ " times. Try a different approach."

def beforeToolExecution (config : DoomLoopConfig) (storage : CapabilityStorage) (call : Call) :
    CapabilityStorage × Option Block :=
  let key := storageKey call.sessionId
  let recorded := recordToolCall storage key call.toolName call.args config.lookbackWindow
  if call.toolName ∈ config.allowRepeatTools then (recorded, none)
  else
    let argsSignature := stableStringify call.args
    let recentCalls := getRecentCalls storage key
    let consecutiveCount := countIdentical call.toolName argsSignature recentCalls.reverse
    if config.threshold ≤ consecutiveCount + 1 then
      (recorded, some ⟨consecutiveCount + 1, blockReason call.toolName (consecutiveCount + 1)⟩)
    else (recorded, none)

def afterCalls (config : DoomLoopConfig) (calls : List Call) : CapabilityStorage :=
  calls.foldl (fun storage call => (beforeToolExecution config storage call).1) fun _ => none

def Blocked (config : DoomLoopConfig) (before : List Call) (call : Call) : Prop :=
  (beforeToolExecution config (afterCalls config before) call).2.isSome = true

def ownCalls (sessionId : String) (calls : List Call) : List Call :=
  calls.filter fun call => call.sessionId = sessionId

/-- One tool with equal arguments. -/
def Identical (a b : Call) : Prop := a.toolName = b.toolName ∧ SameArgs a.args b.args

/-- A call is at least the `n`-th in an unbroken run of its session. -/
def AtLeastNth (n : Nat) (before : List Call) (call : Call) : Prop :=
  ∃ earlier run, ownCalls call.sessionId before = earlier ++ run ∧
    (∀ c ∈ run, Identical c call) ∧ n ≤ run.length + 1

def Call.record (call : Call) : ToolCallRecord := ⟨call.toolName, stableStringify call.args⟩

theorem trim_eq_drop (w : Nat) (records : List ToolCallRecord) :
    trim w records = records.drop (records.length - w) := by
  induction records with
  | nil => simp [trim]
  | cons record recent ih =>
    rw [trim]
    split
    · next long =>
      rw [length_cons] at long ⊢
      rw [ih, show recent.length + 1 - w = recent.length - w + 1 by omega, drop_succ_cons]
    · next short =>
      rw [Nat.sub_eq_zero_of_le (by omega), drop_zero]

theorem trim_append (w : Nat) (records : List ToolCallRecord) (record : ToolCallRecord) :
    trim w (trim w records ++ [record]) = trim w (records ++ [record]) := by
  simp only [trim_eq_drop]
  rw [← drop_append_of_le_length (by omega), drop_drop]
  congr 1
  simp only [length_append, length_drop, length_singleton]
  omega

theorem storageKey_injective {a b : String} (h : storageKey a = storageKey b) : a = b := by
  have chars := congrArg String.toList h
  simp only [storageKey, String.toList_append] at chars
  exact String.toList_inj.mp (append_cancel_left chars)

theorem ofJson_toJson (record : ToolCallRecord) :
    ToolCallRecord.ofJson record.toJson = some record := rfl

variable {storage : CapabilityStorage}

theorem getRecentCalls_of_stored {key : String}
    {records : List ToolCallRecord} (h : storage key =
      some (JsonValue.stringify (.arr (records.map ToolCallRecord.toJson)))) :
    getRecentCalls storage key = records := by
  have filled : JsonValue.stringify (.arr (records.map ToolCallRecord.toJson)) ≠ "" := by
    intro empty
    have chars := congrArg String.toList empty
    rw [JsonValue.stringify, String.toList_ofList, JsonValue.write_arr] at chars
    cases chars
  rw [getRecentCalls, h]
  simp only [if_neg filled, JsonValue.parse_stringify, filterMap_map]
  exact (filterMap_congr fun record _ => ofJson_toJson record).trans filterMap_some

theorem getRecentCalls_recordToolCall (storage : CapabilityStorage) (key toolName : String)
    (args : Args) (w : Nat) : getRecentCalls (recordToolCall storage key toolName args w) key =
      trim w (getRecentCalls storage key ++ [⟨toolName, stableStringify args⟩]) :=
  getRecentCalls_of_stored (Function.update_self _ _ _)

theorem getRecentCalls_other (storage : CapabilityStorage) {key other : String}
    (h : other ≠ key) (toolName : String) (args : Args) (w : Nat) :
    getRecentCalls (recordToolCall storage key toolName args w) other =
      getRecentCalls storage other := by
  rw [getRecentCalls, recordToolCall, Function.update_of_ne h, getRecentCalls]

variable (config : DoomLoopConfig)

theorem beforeToolExecution_storage (storage : CapabilityStorage)
    (call : Call) : (beforeToolExecution config storage call).1 =
      recordToolCall storage (storageKey call.sessionId) call.toolName call.args
        config.lookbackWindow := by
  unfold beforeToolExecution
  split
  · rfl
  · simp only
    split <;> rfl

/-- The storage holds the last calls of every session. -/
def Recorded (w : Nat) (storage : CapabilityStorage) (calls : List Call) : Prop :=
  ∀ sessionId, getRecentCalls storage (storageKey sessionId) =
    trim w ((ownCalls sessionId calls).map Call.record)

theorem Recorded.step {w : Nat} {calls : List Call} (h : Recorded w storage calls) (call : Call) :
    Recorded w (recordToolCall storage (storageKey call.sessionId) call.toolName call.args w)
      (calls ++ [call]) := by
  intro sessionId
  rw [ownCalls, filter_append, map_append]
  by_cases own : call.sessionId = sessionId
  · subst own
    rw [getRecentCalls_recordToolCall, h, filter_cons_of_pos (by simp), filter_nil,
      map_singleton]
    exact trim_append w _ _
  · have other : storageKey sessionId ≠ storageKey call.sessionId :=
      fun same => own (storageKey_injective same).symm
    rw [getRecentCalls_other _ other, filter_cons_of_neg (by simpa using own),
      filter_nil, map_nil, append_nil]
    exact h sessionId

theorem recorded_afterCalls (calls : List Call) :
    Recorded config.lookbackWindow (afterCalls config calls) calls := by
  induction calls using List.reverseRecOn with
  | nil => exact fun _ => rfl
  | append_singleton calls call ih =>
    rw [afterCalls, foldl_append, foldl_cons, foldl_nil, beforeToolExecution_storage]
    exact ih.step call

theorem countIdentical_take (toolName argsSignature : String) (w : Nat)
    (records : List ToolCallRecord) :
    countIdentical toolName argsSignature (records.take w) =
      min w (countIdentical toolName argsSignature records) := by
  induction records generalizing w with
  | nil => simp [countIdentical]
  | cons record earlier ih =>
    cases w with
    | zero => simp [countIdentical]
    | succ w =>
      rw [take_succ_cons, countIdentical, countIdentical]
      split
      · rw [ih]
        omega
      · simp

theorem record_matches (c call : Call) : (c.record.toolName = call.toolName ∧
    c.record.argsSignature = stableStringify call.args) ↔ Identical c call :=
  and_congr_right fun _ => stableStringify_eq_iff _ _

instance (c call : Call) : Decidable (Identical c call) :=
  decidable_of_iff _ (record_matches c call)

theorem le_countIdentical_iff (call : Call) (calls : List Call) (n : Nat) :
    n ≤ countIdentical call.toolName (stableStringify call.args) (calls.map Call.record) ↔
      ∃ run earlier, calls = run ++ earlier ∧ (∀ c ∈ run, Identical c call) ∧ n ≤ run.length := by
  induction calls generalizing n with
  | nil =>
    constructor
    · intro h
      exact ⟨[], [], rfl, forall_mem_nil _, h⟩
    · rintro ⟨run, earlier, none, -, h⟩
      rw [(append_eq_nil_iff.mp none.symm).1] at h
      exact h
  | cons c calls ih =>
    rw [map_cons, countIdentical, if_congr (record_matches c call) rfl rfl]
    split
    · next same =>
      constructor
      · intro h
        obtain ⟨run, earlier, rfl, all, long⟩ := (ih (n - 1)).mp (by omega)
        refine ⟨c :: run, earlier, rfl, forall_mem_cons.mpr ⟨same, all⟩, ?_⟩
        rw [length_cons]
        omega
      · rintro ⟨run, earlier, split, all, long⟩
        cases run with
        | nil => exact long.trans (Nat.zero_le _)
        | cons d run =>
          obtain ⟨rfl, rfl⟩ := List.cons.inj split
          rw [length_cons] at long
          have more := (ih (n - 1)).mpr ⟨run, earlier, rfl, (forall_mem_cons.mp all).2, by omega⟩
          omega
    · next other =>
      constructor
      · intro h
        exact ⟨[], c :: calls, rfl, forall_mem_nil _, h⟩
      · rintro ⟨run, earlier, split, all, long⟩
        cases run with
        | nil => exact long
        | cons d run =>
          obtain ⟨rfl, -⟩ := List.cons.inj split
          exact absurd (forall_mem_cons.mp all).1 other

theorem atLeastNth_iff (n : Nat) (before : List Call) (call : Call) :
    AtLeastNth n before call ↔ n ≤ countIdentical call.toolName (stableStringify call.args)
      ((ownCalls call.sessionId before).reverse.map Call.record) + 1 := by
  rw [← Nat.sub_le_iff_le_add, le_countIdentical_iff]
  constructor
  · rintro ⟨earlier, run, split, all, long⟩
    refine ⟨run.reverse, earlier.reverse, by rw [split, reverse_append], ?_, ?_⟩
    · exact fun c mem => all c (mem_reverse.mp mem)
    · rw [length_reverse]
      omega
  · rintro ⟨run, earlier, split, all, long⟩
    refine ⟨earlier.reverse, run.reverse, ?_, fun c mem => all c (mem_reverse.mp mem), ?_⟩
    · rw [← reverse_append, ← split, reverse_reverse]
    · rw [length_reverse]
      omega

theorem consecutiveCount_eq (before : List Call) (call : Call) :
    countIdentical call.toolName (stableStringify call.args)
        (getRecentCalls (afterCalls config before) (storageKey call.sessionId)).reverse =
      min config.lookbackWindow (countIdentical call.toolName (stableStringify call.args)
        ((ownCalls call.sessionId before).reverse.map Call.record)) := by
  rw [recorded_afterCalls, trim_eq_drop, reverse_drop, ← map_reverse, ← countIdentical_take]
  congr 1
  rw [take_eq_take_iff]
  simp only [length_map, length_reverse]
  omega

theorem blocked_exactly (before : List Call) (call : Call) :
    Blocked config before call ↔ call.toolName ∉ config.allowRepeatTools ∧
      config.threshold ≤ config.lookbackWindow + 1 ∧ AtLeastNth config.threshold before call := by
  unfold Blocked beforeToolExecution
  rw [atLeastNth_iff]
  split
  · next exempt =>
    refine iff_of_false (by simp) fun blocked => blocked.1 exempt
  · next checked =>
    simp only [consecutiveCount_eq]
    split
    · next reached => exact iff_of_true rfl ⟨checked, by omega, by omega⟩
    · next short =>
      refine iff_of_false (by simp) fun blocked => short ?_
      omega

theorem atLeastNth_broken {n : Nat} {before : List Call} {other call : Call}
    (own : other.sessionId = call.sessionId) (different : other.toolName ≠ call.toolName)
    (h : AtLeastNth n (before ++ [other]) call) : n ≤ 1 := by
  obtain ⟨earlier, run, split, all, long⟩ := h
  rw [ownCalls, filter_append, filter_cons_of_pos (by simpa using own),
    filter_nil] at split
  rcases eq_nil_or_concat run with rfl | ⟨first, last, rfl⟩
  · exact long
  · rw [concat_eq_append, ← append_assoc] at split
    obtain ⟨-, same⟩ := append_inj' split rfl
    cases same
    exact absurd (all other (by simp)).1 different

/-- A call is blocked exactly when its tool is not exempt, its run reaches the threshold, and the
window can show a run of this length; a call of an exempt tool breaks a run. Calls have equal
signatures exactly when their arguments are the same up to the order of keys. -/
theorem blocked_iff :
    (∀ config before call, Blocked config before call ↔
      call.toolName ∉ config.allowRepeatTools ∧ config.threshold ≤ config.lookbackWindow + 1 ∧
        AtLeastNth config.threshold before call) ∧
    (∀ (config : DoomLoopConfig) (before : List Call) (exempt call : Call),
      exempt.toolName ∈ config.allowRepeatTools → call.toolName ∉ config.allowRepeatTools →
        exempt.sessionId = call.sessionId →
          ∀ n, AtLeastNth n (before ++ [exempt]) call → n ≤ 1) ∧
    ∀ a b, stableStringify a = stableStringify b ↔ SameArgs a b := by
  refine ⟨blocked_exactly, ?_, stableStringify_eq_iff⟩
  intro config before exempt call listed checked own n h
  refine atLeastNth_broken own (fun same => checked ?_) h
  rw [← same]
  exact listed

/-- Without a lookback the second of two identical calls passes a threshold of two. -/
theorem no_lookback_never_blocks :
    let config : DoomLoopConfig := ⟨2, 0, [], by decide⟩
    let call : Call := ⟨"s", "search", none⟩
    call.toolName ∉ config.allowRepeatTools ∧ AtLeastNth config.threshold [call] call ∧
      ¬ Blocked config [call] call := by
  refine ⟨not_mem_nil, ⟨[], [_], rfl, ?_, le_rfl⟩, ?_⟩
  · rintro c mem
    rw [mem_singleton.mp mem]
    exact ⟨rfl, trivial⟩
  · rw [blocked_exactly]
    exact fun blocked => absurd blocked.2.1 (by decide)

end CrabbyKit.DoomLoop
