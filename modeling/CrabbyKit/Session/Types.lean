import Mathlib.Data.Int.Basic
import Mathlib.Data.List.Basic

/-!
# Sessions, session entries and messages

The record types of `session/types.ts` and the message shapes that the stores and
the agent loop exchange. Values the code passes through unread (tool details,
custom payloads, tool-call arguments) are kept as their JSON text.
-/

namespace CrabbyKit

/-- `Date.now()`: milliseconds since the epoch. -/
abbrev Instant := Int

/-- The text of a SQL timestamp column. SQLite's `datetime('now')` writes
`YYYY-MM-DD HH:MM:SS`, `toISOString` writes `YYYY-MM-DDTHH:MM:SS.mmmZ`. -/
structure Stamp where
  /-- Days since the epoch: the first ten characters. -/
  day : Int
  /-- Whether the separator is the `T` of `toISOString` or the blank of SQLite. -/
  iso : Bool
  /-- Milliseconds since midnight, whole seconds in the SQLite form. -/
  milli : Int
  deriving DecidableEq, Repr

def dayMillis : Int := 86400000

/-- `datetime('now')`. -/
def datetimeNow (now : Instant) : Stamp :=
  ⟨now / dayMillis, false, now % dayMillis / 1000 * 1000⟩

/-- `new Date().toISOString()`. -/
def toISOString (now : Instant) : Stamp := ⟨now / dayMillis, true, now % dayMillis⟩

/-- Text comparison of two timestamps: the date, then the separator (a blank sorts
before `T`), then the time of day. -/
def Stamp.le (a b : Stamp) : Bool :=
  if a.day = b.day then
    if a.iso = b.iso then decide (a.milli ≤ b.milli) else !a.iso
  else decide (a.day < b.day)

theorem Stamp.le_total (a b : Stamp) : (a.le b || b.le a) = true := by
  simp only [Stamp.le, Bool.or_eq_true]
  by_cases hd : a.day = b.day
  · by_cases hi : a.iso = b.iso
    · simp only [hd, hi, if_true, decide_eq_true_eq]
      omega
    · simp only [hd, hi, Ne.symm hi, if_true, if_false]
      cases ha : a.iso <;> cases hb : b.iso <;> simp_all
  · simp only [hd, Ne.symm hd, if_false, decide_eq_true_eq]
    omega

theorem Stamp.le_trans {a b c : Stamp} (hab : a.le b = true) (hbc : b.le c = true) :
    a.le c = true := by
  simp only [Stamp.le] at hab hbc ⊢
  split_ifs at hab hbc ⊢ <;> simp_all <;> omega

/-- Where a session's messages come from, as the LLM sees them. -/
inductive Role
  | user | assistant | toolResult
  deriving DecidableEq, Repr

inductive ContentBlock
  | text (text : String)
  | image (data mimeType : String)
  | thinking (thinking : String)
  | toolCall (id name arguments : String)
  deriving DecidableEq, Repr

/-- Message content is a plain string or a list of blocks. -/
inductive Content
  | plain (text : String)
  | blocks (blocks : List ContentBlock)
  deriving DecidableEq, Repr

structure MessageMetadata where
  /-- Hidden from the chat UI but still sent to the LLM. -/
  hidden : Option Bool := none
  deriving DecidableEq, Repr

/-- Why an assistant reply ended. -/
inductive StopReason
  | stop | length | toolUse | error | aborted
  deriving DecidableEq, Repr

/-- A message of the in-memory agent context. Fields a role does not carry are absent. -/
structure AgentMessage where
  role : Role
  content : Content
  timestamp : Instant
  toolCallId : Option String := none
  toolName : Option String := none
  isError : Option Bool := none
  details : Option String := none
  metadata : Option MessageMetadata := none
  stopReason : Option StopReason := none
  errorMessage : Option String := none
  /-- The cost payload of an assistant message whose usage cost is positive. -/
  cost : Option String := none
  deriving DecidableEq, Repr

structure MessageEntryData where
  role : Role
  content : Content
  details : Option String := none
  toolCallId : Option String := none
  toolName : Option String := none
  isError : Option Bool := none
  timestamp : Option Instant := none
  metadata : Option MessageMetadata := none
  deriving DecidableEq, Repr

/-- The payload of a compaction entry. `firstKeptEntryId` is absent when the
compaction engine indexed past the end of the id list it was given. -/
structure CompactionEntryData where
  summary : String
  firstKeptEntryId : Option String
  tokensBefore : Nat
  deriving DecidableEq, Repr

inductive ModeChangeEntryData
  | enter (modeId : String)
  | exit (modeId : String)
  deriving DecidableEq, Repr

/-- The `type` and `data` columns of a session entry. -/
inductive EntryData
  | message (data : MessageEntryData)
  | compaction (data : CompactionEntryData)
  | modelChange (provider modelId : String)
  | modeChange (data : ModeChangeEntryData)
  | custom (customType payload : String)
  deriving DecidableEq, Repr

/-- A row of `session_entries`. -/
structure SessionEntry where
  id : String
  parentId : Option String
  sessionId : String
  seq : Nat
  data : EntryData
  createdAt : Stamp
  deriving DecidableEq, Repr

/-- A row of `sessions`. -/
structure Session where
  id : String
  name : String
  source : String
  sender : Option String
  leafId : Option String
  activeModeId : Option String
  createdAt : Stamp
  updatedAt : Stamp
  deriving DecidableEq, Repr

def SessionEntry.isMessage (e : SessionEntry) : Bool :=
  match e.data with
  | .message _ => true
  | _ => false

end CrabbyKit
