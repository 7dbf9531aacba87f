import CrabbyKit.Core.Erase
import Mathlib.Data.List.Induction
import Mathlib.Data.List.TakeWhile

/-!
# What a session of the container puts out

`sessions.ts`, `stripAnsi` of `helpers.ts`, and the routes `/session-exec` and `/session-poll`: the
terminal delivers the text of a process in chunks, each is cleaned on its own and goes to a buffer,
to the in-memory output, to the log and to the stream. Texts are lists of code units.
-/

namespace CrabbyKit.Sandbox.SessionOutput

open List

/-- A text as its code units. -/
abbrev Text := List UInt16

def esc : UInt16 := 0x1B

/-- `[0-9;]`. -/
def isParameter (c : UInt16) : Bool := (0x30 ≤ c && c ≤ 0x39) || c == 0x3B

/-- `[a-zA-Z]`. -/
def isLetter (c : UInt16) : Bool := (0x41 ≤ c && c ≤ 0x5A) || (0x61 ≤ c && c ≤ 0x7A)

/-- The length of the match of `\x1B`, `intro`, `body*`, `final` at the front of a text. -/
def sequenceLength (intro : UInt16) (body final : UInt16 → Bool) : Text → Option Nat
  | e :: i :: rest =>
    if e = esc ∧ i = intro then
      match rest.dropWhile body with
      | c :: _ => if final c then some ((rest.takeWhile body).length + 3) else none
      | [] => none
    else none
  | _ => none

/-- `/\x1B\[[0-9;]*[a-zA-Z]/g`. -/
def csiLength : Text → Option Nat := sequenceLength 0x5B isParameter isLetter

/-- `/\x1B\][^\x07]*\x07/g`. -/
def oscLength : Text → Option Nat := sequenceLength 0x5D (· != 0x07) (· == 0x07)

def stripAnsi (text : Text) : Text := eraseMatches oscLength 0 (eraseMatches csiLength 0 text)

def maxOutputChars : Nat := 204800

def pollBackoffSchedule : List Nat :=
  [5000, 5000, 5000, 10000, 10000, 10000, 30000, 30000, 30000, 60000]

def getBackoffMs (consecutiveEmptyPolls : Nat) : Nat :=
  (pollBackoffSchedule[min consecutiveEmptyPolls (pollBackoffSchedule.length - 1)]?).getD 60000

/-- `Session`, with the text of its log file. -/
structure Session where
  running : Bool := true
  exitCode : Option Int := none
  output : Text := []
  pendingBuffer : Text := []
  outputBytes : Nat := 0
  truncated : Bool := false
  log : Text := []
  consecutiveEmptyPolls : Nat := 0
  deriving DecidableEq, Repr

def appendSessionOutput (session : Session) (data : Text) : Session :=
  let output := session.output ++ data
  { session with
    pendingBuffer := session.pendingBuffer ++ data
    output :=
      if maxOutputChars < output.length then output.drop (output.length - maxOutputChars / 2)
      else output
    outputBytes := session.outputBytes + data.length
    truncated := session.truncated || decide (maxOutputChars < output.length)
    log := session.log ++ data }

def sessionTail (session : Session) (chars : Nat) : Text :=
  session.output.drop (session.output.length - chars)

structure PollReply where
  running : Bool
  exitCode : Option Int
  pending : Text
  tail : Text
  retryAfterMs : Nat
  outputBytes : Nat
  truncated : Bool
  deriving DecidableEq, Repr

/-- The events of the stream behind the first one, without the heartbeats. -/
inductive StreamEvent where
  | stdout (data : Text) (seq : Nat)
  | stderr (data : String) (seq : Nat)
  | exit (code : Int)
  deriving DecidableEq, Repr

/-- One session of `/session-exec`, with its stream and the answers to its polls. -/
structure Container where
  session : Option Session := some {}
  killed : Option Nat := none
  seq : Nat := 0
  stream : List StreamEvent := []
  polls : List PollReply := []
  deriving DecidableEq, Repr

/-- What happens to a session: a chunk of output, the timeout, the exit, a poll, and the timer that
forgets a session after its exit. -/
inductive Step where
  | data (text : Text)
  | timeout (ms : Nat)
  | exit (code : Option Int)
  | poll
  | gc
  deriving DecidableEq, Repr

/-- `/session-poll` for a session that is there. -/
def drain (session : Session) : PollReply × Session :=
  let empty := if session.pendingBuffer ≠ [] then 0 else session.consecutiveEmptyPolls + 1
  (⟨session.running, session.exitCode, session.pendingBuffer, sessionTail session 2000,
      getBackoffMs empty, session.outputBytes, session.truncated⟩,
    { session with pendingBuffer := [], consecutiveEmptyPolls := empty })

def step (s : Container) : Step → Container
  | .data text =>
    { s with
      session := s.session.map (appendSessionOutput · (stripAnsi text))
      seq := s.seq + 1
      stream := s.stream ++ [.stdout (stripAnsi text) (s.seq + 1)] }
  | .timeout ms => { s with killed := some ms }
  | .exit code =>
    { s with
      session := s.session.map fun session =>
        { session with running := false, exitCode := some (code.getD 1) }
      seq := s.seq + s.killed.toList.length
      stream := s.stream ++
        s.killed.toList.map (fun ms => .stderr
          ("\nProcess exceeded " ++ Nat.repr ms ++ "ms timeout and was killed.") (s.seq + 1)) ++
        [.exit (code.getD (if s.killed.isSome then 137 else 1))] }
  | .poll =>
    match s.session with
    | none => s
    | some session =>
      { s with session := some (drain session).2, polls := s.polls ++ [(drain session).1] }
  | .gc => { s with session := s.session.filter (·.running) }

def run (steps : List Step) : Container := steps.foldl step {}

def Step.chunk : Step → Option Text
  | .data text => some text
  | _ => none

def StreamEvent.output : StreamEvent → Text
  | .stdout data _ => data
  | _ => []

def chunks (steps : List Step) : List Text := steps.filterMap Step.chunk

/-- What the polls, the last one behind all steps, the stream and the in-memory output have of the
text. -/
structure OutputLaw (steps : List Step) : Prop where
  polled : ((run (steps ++ [.poll])).polls.map PollReply.pending).flatten =
    stripAnsi (chunks steps).flatten
  streamed : ((run steps).stream.map StreamEvent.output).flatten = stripAnsi (chunks steps).flatten
  kept : ∃ session, (run steps).session = some session ∧
    session.output <:+ stripAnsi (chunks steps).flatten ∧ session.output.length ≤ maxOutputChars ∧
      (session.truncated = true ↔ session.output ≠ stripAnsi (chunks steps).flatten)

/-- A match of a pattern: `\x1B`, `intro`, elements of `body` and one of `final`. -/
def IsSequence (intro : UInt16) (body final : UInt16 → Bool) (w : Text) : Prop :=
  ∃ inner c, w = esc :: intro :: (inner ++ [c]) ∧ (∀ x ∈ inner, body x = true) ∧ final c = true

/-- A boundary goes through a sequence of one of the two patterns, the second one looked for where
the first one is gone. -/
def Cut (a b : Text) : Prop :=
  Straddles (IsSequence 0x5B isParameter isLetter) a b ∨
    Straddles (IsSequence 0x5D (· != 0x07) (· == 0x07)) (eraseMatches csiLength 0 a)
      (eraseMatches csiLength 0 b)

/-- No boundary between chunks goes through a sequence of the text behind it. -/
def Uncut (texts : List Text) : Prop :=
  ∀ before text after, texts = before ++ text :: after → ¬Cut text after.flatten

theorem matches_sequence {intro : UInt16} {body final : UInt16 → Bool} (hesc : final esc = false)
    (hintro : final intro = false) (hbody : ∀ c, final c = true → body c = false) :
    Matches (IsSequence intro body final) (sequenceLength intro body final) where
  eq_some_iff text n := by
    constructor
    · intro h
      unfold sequenceLength at h
      split at h
      · rename_i e i rest
        split_ifs at h with hstart
        obtain ⟨rfl, rfl⟩ := hstart
        split at h
        · rename_i c tail hdrop
          split_ifs at h with hfinal
          cases h
          refine ⟨esc :: i :: (rest.takeWhile body ++ [c]), tail, ?_,
            ⟨_, c, rfl, fun x hx => mem_takeWhile_imp hx, hfinal⟩, by simp⟩
          have hrest := takeWhile_append_dropWhile (p := body) (l := rest)
          rw [hdrop] at hrest
          rw [cons_append, cons_append, append_assoc, singleton_append, hrest]
        · cases h
      · cases h
    · rintro ⟨w, rest, rfl, ⟨inner, c, rfl, hinner, hfinal⟩, rfl⟩
      have hsplit : ∀ x ∈ inner, body x = true := hinner
      have hc := hbody c hfinal
      simp only [cons_append, append_assoc, sequenceLength, and_self, if_true]
      rw [dropWhile_append_of_pos hsplit, takeWhile_append_of_pos hsplit,
        dropWhile_cons_of_neg (by simp [hc]), takeWhile_cons_of_neg (by simp [hc])]
      simp [hfinal]
  solid u v v' := by
    rintro ⟨inner, c, huv, hinner, hfinal⟩ hv ⟨inner', c', hvv, hinner', -⟩
    obtain ⟨v, d, rfl⟩ := (eq_nil_or_concat' v).resolve_left hv
    have hd : d = c := by
      rw [← cons_append, ← cons_append, ← append_assoc] at huv
      exact (append_inj' huv rfl).2 |> singleton_inj.mp
    by_contra hne
    obtain ⟨v', d', rfl⟩ := (eq_nil_or_concat' v').resolve_left hne
    rw [← cons_append, ← cons_append, ← append_assoc] at hvv
    have hmem : c ∈ esc :: intro :: inner' := by
      rw [← (append_inj' hvv rfl).1, hd]
      simp
    rcases mem_cons.mp hmem with rfl | hmem
    · exact Bool.false_ne_true (hesc.symm.trans hfinal)
    · rcases mem_cons.mp hmem with rfl | hmem
      · exact Bool.false_ne_true (hintro.symm.trans hfinal)
      · exact Bool.false_ne_true ((hbody c hfinal).symm.trans (hinner' c hmem))
  nonempty := by
    rintro ⟨inner, c, h, -⟩
    cases h

theorem matches_csi : Matches (IsSequence 0x5B isParameter isLetter) csiLength := by
  refine matches_sequence (by decide) (by decide) fun c hc => ?_
  simp only [isLetter, isParameter, Bool.or_eq_true, Bool.and_eq_true, decide_eq_true_eq,
    Bool.or_eq_false_iff, Bool.and_eq_false_iff, decide_eq_false_iff_not, beq_eq_false_iff_ne,
    UInt16.le_iff_toNat_le, ne_eq, ← UInt16.toNat_inj] at hc ⊢
  simp only [UInt16.toNat_ofNat] at hc ⊢
  omega

theorem matches_osc : Matches (IsSequence 0x5D (· != 0x07) (· == 0x07)) oscLength :=
  matches_sequence (by decide) (by decide) fun c hc => by simpa using hc

theorem length_stripAnsi_lt {a b : Text} (hcut : Cut a b) :
    (stripAnsi (a ++ b)).length < (stripAnsi a).length + (stripAnsi b).length := by
  unfold stripAnsi
  by_cases hcsi : Straddles (IsSequence 0x5B isParameter isLetter) a b
  · obtain ⟨front, p, x, back, hp, hx, ⟨inner, c, hpx, hinner, hfinal⟩, ha, hb, hab⟩ :=
      matches_csi.erase_straddles hcsi
    obtain ⟨e, p, rfl⟩ := exists_cons_of_ne_nil hp
    obtain ⟨x, d, rfl⟩ := (eq_nil_or_concat' x).resolve_left hx
    rw [cons_append] at hpx
    obtain ⟨rfl, htail⟩ := cons_eq_cons.mp hpx
    have hnobell : 0x07 ∉ eraseMatches csiLength 0 (esc :: p) := by
      intro hmem
      rw [← append_assoc, ← cons_append] at htail
      have hp : p ++ x = 0x5B :: inner := (append_inj' htail rfl).1
      rcases mem_cons.mp ((eraseMatches_sublist 0 _).subset hmem) with hesc | hmem
      · exact absurd hesc (by decide)
      · rcases mem_cons.mp (hp ▸ mem_append_left x hmem) with hintro | hmem
        · exact absurd hintro (by decide)
        · exact absurd (hinner _ hmem) (by decide)
    have hnoesc : esc ∉ eraseMatches csiLength 0 (x ++ [d]) := by
      intro hmem
      have hmem := mem_append_right p ((eraseMatches_sublist 0 _).subset hmem)
      rw [htail, mem_cons, mem_append, mem_singleton] at hmem
      rcases hmem with hintro | hmem | rfl
      · exact absurd hintro (by decide)
      · exact absurd (hinner _ hmem) (by decide)
      · exact absurd hfinal (by decide)
    have hosc : ∀ q y, IsSequence 0x5D (· != 0x07) (· == 0x07) (q ++ y) →
        (q ≠ [] → esc ∈ q) ∧ (y ≠ [] → 0x07 ∈ y) := by
      rintro q y ⟨inner, c, hqy, -, hc⟩
      refine ⟨fun hq => ?_, fun hy => ?_⟩
      · obtain ⟨e, q, rfl⟩ := exists_cons_of_ne_nil hq
        rw [(cons_eq_cons.mp hqy).1]
        exact mem_cons_self
      · obtain ⟨y, e, rfl⟩ := (eq_nil_or_concat' y).resolve_left hy
        rw [← append_assoc, ← cons_append, ← cons_append] at hqy
        rw [singleton_inj.mp (append_inj' hqy rfl).2, beq_iff_eq.mp hc]
        exact mem_append_right _ mem_cons_self
    have hfront : ¬Straddles (IsSequence 0x5D (· != 0x07) (· == 0x07)) front
        (eraseMatches csiLength 0 (esc :: p)) := by
      rintro ⟨q, y, -, hy, -, hfront, hqy⟩
      exact hnobell (hfront.subset ((hosc q y hqy).2 hy))
    have hback : ¬Straddles (IsSequence 0x5D (· != 0x07) (· == 0x07))
        (eraseMatches csiLength 0 (x ++ [d])) back := by
      rintro ⟨q, y, hq, -, hsuffix, -, hqy⟩
      exact hnoesc (hsuffix.subset ((hosc q y hqy).1 hq))
    have hpos := length_pos_iff.mpr (matches_osc.erase_ne_nil
      (matches_csi.erase_start_ne_nil hp hx ⟨inner, c, hpx, hinner, hfinal⟩) fun w hw hin =>
        hnobell (hin.subset ((hosc [] w hw).2 fun hnil => matches_osc.nonempty (hnil ▸ hw))))
    have hle := matches_osc.length_erase_append_le front back
    rw [hab, ha, hb, matches_osc.erase_append hfront, matches_osc.erase_append hback,
      length_append, length_append]
    omega
  · rw [matches_csi.erase_append hcsi]
    exact matches_osc.erase_append_lt (hcut.resolve_left hcsi)

theorem stripAnsi_append {a b : Text} (hcut : ¬Cut a b) :
    stripAnsi (a ++ b) = stripAnsi a ++ stripAnsi b := by
  unfold stripAnsi
  rw [matches_csi.erase_append fun h => hcut (.inl h),
    matches_osc.erase_append fun h => hcut (.inr h)]

theorem flatten_stripAnsi (texts : List Text) :
    (stripAnsi texts.flatten).length ≤ (texts.map stripAnsi).flatten.length ∧
      ((texts.map stripAnsi).flatten = stripAnsi texts.flatten ↔ Uncut texts) := by
  induction texts with
  | nil =>
    refine ⟨le_rfl, iff_of_true rfl fun before text after h => ?_⟩
    exact absurd h.symm (append_ne_nil_of_right_ne_nil _ (cons_ne_nil _ _))
  | cons text rest ih =>
    have hcons : Uncut (text :: rest) ↔ ¬Cut text rest.flatten ∧ Uncut rest := by
      refine ⟨fun h => ⟨h [] text rest rfl, fun before t after heq => ?_⟩,
        fun h before t after heq => ?_⟩
      · exact h (text :: before) t after (by rw [heq, cons_append])
      · cases before with
        | nil =>
          obtain ⟨rfl, rfl⟩ := cons_eq_cons.mp heq
          exact h.1
        | cons u before => exact h.2 before t after (cons_eq_cons.mp heq).2
    rw [hcons, map_cons, flatten_cons, flatten_cons, length_append]
    by_cases hcut : Cut text rest.flatten
    · have hlt := length_stripAnsi_lt hcut
      refine ⟨by omega, iff_of_false (fun heq => ?_) fun h => h.1 hcut⟩
      have hlen := congrArg List.length heq
      rw [length_append] at hlen
      omega
    · rw [stripAnsi_append hcut, length_append]
      refine ⟨by omega, ?_⟩
      rw [append_right_inj, ih.2, and_iff_right hcut]

/-- What the buffers of a session hold of the cleaned chunks. -/
structure Holds (s : Container) (cleaned : Text) : Prop where
  streamed : (s.stream.map StreamEvent.output).flatten = cleaned
  session : ∃ session, s.session = some session ∧
    (s.polls.map PollReply.pending).flatten ++ session.pendingBuffer = cleaned ∧
    session.log = cleaned ∧ session.output <:+ cleaned ∧ session.output.length ≤ maxOutputChars ∧
    (session.truncated = true ↔ session.output.length < cleaned.length)

theorem Holds.step {s : Container} {cleaned : Text} (h : Holds s cleaned) {action : Step}
    (hgc : action ≠ .gc) :
    Holds (step s action) (cleaned ++ (action.chunk.toList.map stripAnsi).flatten) := by
  obtain ⟨hstream, session, hsession, hpolls, hlog, hsuffix, hle, htruncated⟩ := h
  cases action with
  | data text =>
    have hadd : ([text].map stripAnsi).flatten = stripAnsi text := append_nil _
    refine ⟨?_, _, congrArg (Option.map _) hsession, ?_, ?_, ?_⟩ <;>
      simp only [Step.chunk, Option.toList_some, hadd, appendSessionOutput]
    · simp [SessionOutput.step, StreamEvent.output, hstream]
    · rw [← hpolls, append_assoc]
      rfl
    · rw [hlog]
    · have hboth : session.output ++ stripAnsi text <:+ cleaned ++ stripAnsi text := by
        obtain ⟨front, rfl⟩ := hsuffix
        exact ⟨front, (append_assoc _ _ _).symm⟩
      have hlen := hsuffix.length_le
      simp only [Bool.or_eq_true, htruncated, decide_eq_true_eq, length_append]
      split_ifs with hlong
      · rw [length_drop, length_append]
        refine ⟨(drop_suffix _ _).trans hboth, ?_, ?_⟩
        · unfold maxOutputChars
          omega
        · unfold maxOutputChars at hlong ⊢
          omega
      · rw [length_append]
        exact ⟨hboth, Nat.le_of_not_lt hlong, by omega⟩
  | timeout ms =>
    change Holds _ (cleaned ++ [])
    rw [append_nil]
    exact ⟨hstream, session, hsession, hpolls, hlog, hsuffix, hle, htruncated⟩
  | exit code =>
    change Holds _ (cleaned ++ [])
    rw [append_nil]
    refine ⟨?_, _, congrArg (Option.map _) hsession, hpolls, hlog, hsuffix, hle, htruncated⟩
    cases hkilled : s.killed <;> simp [SessionOutput.step, StreamEvent.output, hstream, hkilled]
  | poll =>
    change Holds _ (cleaned ++ [])
    rw [append_nil]
    simp only [SessionOutput.step, hsession]
    refine ⟨hstream, _, rfl, ?_, hlog, hsuffix, hle, htruncated⟩
    rw [map_append, flatten_append, ← hpolls]
    simp [drain]
  | gc => exact absurd rfl hgc

theorem run_holds {steps : List Step} (h : Step.gc ∉ steps) :
    Holds (run steps) ((chunks steps).map stripAnsi).flatten := by
  induction steps using List.reverseRecOn with
  | nil => exact ⟨rfl, {}, rfl, rfl, rfl, suffix_refl _, Nat.zero_le _, by decide⟩
  | append_singleton steps action ih =>
    have hrun : run (steps ++ [action]) = step (run steps) action := foldl_concat ..
    have hchunks : chunks (steps ++ [action]) = chunks steps ++ action.chunk.toList := by
      unfold chunks
      rw [filterMap_append]
      cases action <;> rfl
    rw [hrun, hchunks, map_append, flatten_append]
    refine (ih fun hmem => h (mem_append_left _ hmem)).step fun hgc => h ?_
    exact hgc ▸ mem_append_right _ mem_cons_self

theorem outputLaw_iff (steps : List Step) (h : Step.gc ∉ steps) :
    OutputLaw steps ↔ Uncut (chunks steps) := by
  obtain ⟨hstream, session, hsession, hpolls, -, hsuffix, hle, htruncated⟩ := run_holds h
  have hpolled : ((run (steps ++ [.poll])).polls.map PollReply.pending).flatten =
      ((chunks steps).map stripAnsi).flatten := by
    have hrun : run (steps ++ [.poll]) = step (run steps) .poll := foldl_concat ..
    rw [hrun, ← hpolls]
    simp only [step, hsession]
    simp [drain]
  rw [← (flatten_stripAnsi (chunks steps)).2]
  refine ⟨fun hlaw => hpolled.symm.trans hlaw.polled, fun heq => ?_⟩
  rw [heq] at hpolled hstream hsuffix htruncated
  refine ⟨hpolled, hstream, session, hsession, hsuffix, hle, htruncated.trans ?_⟩
  exact ⟨fun hlt hsame => by rw [hsame] at hlt; exact lt_irrefl _ hlt,
    fun hne => lt_of_le_of_ne hsuffix.length_le fun hlen => hne (hsuffix.eq_of_length hlen)⟩

theorem outputLaw_colored :
    OutputLaw [.data [0x1B, 0x5B, 0x33, 0x32, 0x6D, 0x6F], .poll, .data [0x6B], .exit (some 0)] ↔
      Uncut [[0x1B, 0x5B, 0x33, 0x32, 0x6D, 0x6F], [0x6B]] :=
  outputLaw_iff [.data [0x1B, 0x5B, 0x33, 0x32, 0x6D, 0x6F], .poll, .data [0x6B], .exit (some 0)]
    (by decide)

theorem split_not_outputLaw :
    ¬OutputLaw [.data [0x6F, 0x1B], .data [0x5B, 0x6D, 0x6B], .exit (some 0)] :=
  fun hlaw => absurd hlaw.polled (by decide)

end CrabbyKit.Sandbox.SessionOutput
