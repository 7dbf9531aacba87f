import CrabbyKit.Channels.Define
import CrabbyKit.Session.Invariant

/-!
# Replies go back where the message came from

A delivery is early until it passes both limits, pending until its reply, and answered after it.
While it is pending the stash of its session holds its own account and payload, as long as no other
message is stashed over it.
-/

namespace CrabbyKit.Channels

open List Function

variable {Account Inbound : Type} (d : ChannelDefinition Account)

/-- A delivery that has not passed both limits. -/
def Task.Early : Task Account Inbound → Prop
  | .lookup => True
  | .verifying _ => True
  | .parsing _ => True
  | .sender .. => True
  | .limited .. => True
  | _ => False

/-- The session whose stash a delivery has written and `afterTurn` will read for it. -/
def Task.awaits : Task Account Inbound → Option String
  | .stashed _ _ sessionId => some sessionId
  | .ensuring _ _ sessionId => some sessionId
  | .ready _ _ sessionId => some sessionId
  | .running _ sessionId => some sessionId
  | .dispatching sessionId _ => some sessionId
  | _ => none

/-- How many awaits a delivery has before it at most. -/
def Task.rank : Task Account Inbound → Nat
  | .lookup => 11
  | .verifying _ => 10
  | .parsing _ => 9
  | .sender .. => 8
  | .limited .. => 7
  | .stashing .. => 6
  | .stashed .. => 5
  | .ensuring .. => 4
  | .ready .. => 3
  | .running .. => 2
  | .failed .. => 1
  | .dispatching .. => 1
  | .resolving .. => 0

def address (account : Account) (parsed : ParsedInbound Inbound) : ChannelInboundStash Inbound :=
  ⟨d.accountId account, parsed.inbound⟩

/-- What a pending delivery knows of its message and of the final text of its turn. -/
def Task.Carries (account : Account) (parsed : ParsedInbound Inbound) (turn : Option String) :
    Task Account Inbound → Prop
  | .stashing a p _ => a = account ∧ p = parsed ∧ turn = none
  | .stashed a p _ => a = account ∧ p = parsed ∧ turn = none
  | .ensuring a p _ => a = account ∧ p = parsed ∧ turn = none
  | .ready a p _ => a = account ∧ p = parsed ∧ turn = none
  | .running _ _ => turn = none
  | .failed a p => a = account ∧ p = parsed ∧ turn = none
  | .dispatching _ finalText => turn = some finalText
  | .resolving stash finalText => stash = address d account parsed ∧ turn = some finalText
  | _ => False

/-- A reply goes to the account and the payload of the message, with the final text of the turn of
the message or, when there was no turn, with the error text. -/
structure Reply.Answers (reply : Reply Account Inbound) (account : Account)
    (parsed : ParsedInbound Inbound) (turn : Option String) : Prop where
  account : d.accountId reply.account = d.accountId account
  inbound : reply.inbound = parsed.inbound
  text : turn = some reply.text ∨ turn = none ∧ reply.text = errorReplyText

namespace Channel

variable (s : Channel Account Inbound)

def repliesTo (i : Nat) : List (Reply Account Inbound) := s.replies.filter fun r => r.delivery = i

/-- Every accepted message is answered once, where it came from. -/
structure Lawful : Prop where
  addressed : ∀ reply ∈ s.replies, ∃ account parsed,
    s.accepted reply.delivery = some (account, parsed) ∧
      reply.Answers d account parsed (s.turns reply.delivery)
  once : ∀ i, (s.repliesTo i).length ≤ 1
  answered : ∀ i, s.accepted i ≠ none → s.tasks i = none → (s.repliesTo i).length = 1

/-- A step is serial when a message is stashed only while every message of the session that has not
been answered out of the stash has the same address, an id is drawn that no session has, and the
account of a stash is found. -/
def Serial : Label Account Inbound → Prop
  | .deliver => True
  | .advance i answer =>
    (∀ account parsed, s.tasks i = some (.limited account parsed true) →
      s.sessionStore.findBySourceAndSender d.id parsed.senderId = none →
        s.sessionStore.get answer.nanoid = none) ∧
    (∀ account parsed sessionId, s.tasks i = some (.stashing account parsed sessionId) →
      ∀ j task other otherParsed, s.tasks j = some task → task.awaits = some sessionId →
        s.accepted j = some (other, otherParsed) →
          address d other otherParsed = address d account parsed) ∧
    ∀ stash finalText, s.tasks i = some (.resolving stash finalText) →
      ∃ account, answer.account = .ok (some account) ∧ d.accountId account = stash.accountId
  | .turnEnd _ _ => True

/-- Where a delivery stands. -/
inductive Phase (i : Nat) : Prop
  | early (haccepted : s.accepted i = none) (hturn : s.turns i = none)
      (hreplies : s.repliesTo i = []) (htask : ∀ task, s.tasks i = some task → task.Early)
  | pending (account : Account) (parsed : ParsedInbound Inbound) (task : Task Account Inbound)
      (haccepted : s.accepted i = some (account, parsed)) (hreplies : s.repliesTo i = [])
      (htask : s.tasks i = some task) (hcarries : task.Carries d account parsed (s.turns i))
      (hstash : ∀ sessionId, task.awaits = some sessionId →
        s.stashes.get (stashKey sessionId) = some (address d account parsed))
  | answered (account : Account) (parsed : ParsedInbound Inbound) (reply : Reply Account Inbound)
      (haccepted : s.accepted i = some (account, parsed)) (hreplies : s.repliesTo i = [reply])
      (htask : s.tasks i = none) (hanswers : reply.Answers d account parsed (s.turns i))

/-- Every delivery stands somewhere, and none is ahead of the counter. -/
structure Coherent : Prop where
  phase : ∀ i, s.Phase d i
  free : ∀ i, s.deliveries ≤ i → s.tasks i = none ∧ s.accepted i = none

variable {s} {d} {s' : Channel Account Inbound} {i : Nat}

theorem Phase.frame (h : s.Phase d i) (htasks : s'.tasks i = s.tasks i)
    (haccepted : s'.accepted i = s.accepted i) (hturns : s'.turns i = s.turns i)
    (hreplies : s'.repliesTo i = s.repliesTo i)
    (hstashes : ∀ task account parsed sessionId, s.tasks i = some task →
      s.accepted i = some (account, parsed) → task.awaits = some sessionId →
        s.stashes.get (stashKey sessionId) = some (address d account parsed) →
          s'.stashes.get (stashKey sessionId) = some (address d account parsed)) :
    s'.Phase d i := by
  cases h with
  | early haccepted₀ hturn₀ hreplies₀ htask₀ =>
    exact .early (haccepted.trans haccepted₀) (hturns.trans hturn₀) (hreplies.trans hreplies₀)
      fun task htask => htask₀ task (htasks.symm.trans htask)
  | pending account parsed task haccepted₀ hreplies₀ htask₀ hcarries hstash =>
    refine .pending account parsed task (haccepted.trans haccepted₀) (hreplies.trans hreplies₀)
      (htasks.trans htask₀) (hturns ▸ hcarries) fun sessionId hawaits => ?_
    exact hstashes task account parsed sessionId htask₀ haccepted₀ hawaits
      (hstash sessionId hawaits)
  | answered account parsed reply haccepted₀ hreplies₀ htask₀ hanswers =>
    exact .answered account parsed reply (haccepted.trans haccepted₀) (hreplies.trans hreplies₀)
      (htasks.trans htask₀) (hturns ▸ hanswers)

theorem Coherent.settle (h : s.Coherent d) (hi : i < s'.deliveries)
    (hdeliveries : s.deliveries ≤ s'.deliveries) (htasks : ∀ j, j ≠ i → s'.tasks j = s.tasks j)
    (haccepted : ∀ j, j ≠ i → s'.accepted j = s.accepted j)
    (hturns : ∀ j, j ≠ i → s'.turns j = s.turns j)
    (hreplies : ∀ j, j ≠ i → s'.repliesTo j = s.repliesTo j)
    (hstashes : ∀ j task account parsed sessionId, j ≠ i → s.tasks j = some task →
      s.accepted j = some (account, parsed) → task.awaits = some sessionId →
        s.stashes.get (stashKey sessionId) = some (address d account parsed) →
          s'.stashes.get (stashKey sessionId) = some (address d account parsed))
    (hphase : s'.Phase d i) : s'.Coherent d where
  phase j := by
    by_cases hj : j = i
    · exact hj ▸ hphase
    · exact (h.phase j).frame (htasks j hj) (haccepted j hj) (hturns j hj) (hreplies j hj)
        fun task account parsed sessionId => hstashes j task account parsed sessionId hj
  free j hle := by
    have hj : j ≠ i := by omega
    have hfree := h.free j (hdeliveries.trans hle)
    exact ⟨(htasks j hj).trans hfree.1, (haccepted j hj).trans hfree.2⟩

variable {task : Task Account Inbound}

theorem Coherent.lt_deliveries (h : s.Coherent d)
    (htask : s.tasks i = some task) : i < s.deliveries := by
  by_contra hle
  have hnone := (h.free i (by omega)).1
  rw [htask] at hnone
  cases hnone

theorem Phase.early_of (h : s.Phase d i) (htask : s.tasks i = some task) (hearly : task.Early) :
    s.accepted i = none ∧ s.turns i = none ∧ s.repliesTo i = [] := by
  cases h with
  | early haccepted hturn hreplies _ => exact ⟨haccepted, hturn, hreplies⟩
  | pending account parsed task' _ _ htask' hcarries _ =>
    obtain rfl := Option.some.inj (htask.symm.trans htask')
    cases task <;> first | exact hearly.elim | exact hcarries.elim
  | answered _ _ _ _ _ htask' _ => cases htask.symm.trans htask'

theorem Phase.pending_of (h : s.Phase d i) (htask : s.tasks i = some task) (hlate : ¬ task.Early) :
    ∃ account parsed, s.accepted i = some (account, parsed) ∧ s.repliesTo i = [] ∧
      task.Carries d account parsed (s.turns i) ∧
      ∀ sessionId, task.awaits = some sessionId →
        s.stashes.get (stashKey sessionId) = some (address d account parsed) := by
  cases h with
  | early _ _ _ hall => exact absurd (hall task htask) hlate
  | pending account parsed task' haccepted hreplies htask' hcarries hstash =>
    obtain rfl := Option.some.inj (htask.symm.trans htask')
    exact ⟨account, parsed, haccepted, hreplies, hcarries, hstash⟩
  | answered _ _ _ _ _ htask' _ => cases htask.symm.trans htask'

/-- Everything but the tasks, the agents, the buckets and the sessions stays. -/
structure Kept (s s' : Channel Account Inbound) : Prop where
  accepted : s'.accepted = s.accepted
  turns : s'.turns = s.turns
  replies : s'.replies = s.replies
  stashes : s'.stashes = s.stashes
  deliveries : s'.deliveries = s.deliveries

theorem Kept.repliesTo (h : Kept s s') (j : Nat) : s'.repliesTo j = s.repliesTo j := by
  unfold Channel.repliesTo
  rw [h.replies]

theorem Coherent.move (h : s.Coherent d) (hkept : Kept s s')
    {next : Option (Task Account Inbound)} (htask : s.tasks i = some task)
    (htasks : s'.tasks = Function.update s.tasks i next) (hphase : s'.Phase d i) :
    s'.Coherent d := by
  refine h.settle (hkept.deliveries ▸ h.lt_deliveries htask) hkept.deliveries.ge (fun j hj => ?_)
    (fun j _ => congrFun hkept.accepted j) (fun j _ => congrFun hkept.turns j)
    (fun j _ => hkept.repliesTo j) (fun j task account parsed sessionId _ _ _ _ hget => ?_) hphase
  · rw [htasks, update_of_ne hj]
  · rw [hkept.stashes]
    exact hget

theorem Coherent.move_early (h : s.Coherent d) (hkept : Kept s s')
    {next : Option (Task Account Inbound)} (htask : s.tasks i = some task) (hearly : task.Early)
    (htasks : s'.tasks = Function.update s.tasks i next)
    (hnext : ∀ task', next = some task' → task'.Early) : s'.Coherent d := by
  obtain ⟨haccepted, hturn, hreplies⟩ := (h.phase i).early_of htask hearly
  refine h.move hkept htask htasks (.early ?_ ?_ ?_ fun task' htask' => ?_)
  · rw [hkept.accepted, haccepted]
  · rw [hkept.turns, hturn]
  · rw [hkept.repliesTo, hreplies]
  · rw [htasks, update_self] at htask'
    exact hnext task' htask'

variable {next : Task Account Inbound}

theorem Coherent.move_pending (h : s.Coherent d) (hkept : Kept s s') (htask : s.tasks i = some task)
    (hlate : ¬ task.Early) (htasks : s'.tasks = Function.update s.tasks i (some next))
    (hcarries : ∀ account parsed, (∀ sessionId, task.awaits = some sessionId →
      s.stashes.get (stashKey sessionId) = some (address d account parsed)) →
        task.Carries d account parsed (s.turns i) → next.Carries d account parsed (s.turns i))
    (hawaits : ∀ sessionId, next.awaits = some sessionId → task.awaits = some sessionId) :
    s'.Coherent d := by
  obtain ⟨account, parsed, haccepted, hreplies, hcarried, hstash⟩ :=
    (h.phase i).pending_of htask hlate
  refine h.move hkept htask htasks
    (.pending account parsed next ?_ ?_ ?_ ?_ fun sessionId hnext => ?_)
  · rw [hkept.accepted, haccepted]
  · rw [hkept.repliesTo, hreplies]
  · rw [htasks, update_self]
  · rw [hkept.turns]
    exact hcarries account parsed hstash hcarried
  · rw [hkept.stashes]
    exact hstash sessionId (hawaits sessionId hnext)

theorem repliesTo_sendReply (s : Channel Account Inbound) (i j : Nat) (account : Account)
    (inbound : Inbound) (text : String) :
    ((s.finish i).sendReply i account inbound text).repliesTo j =
      if j = i then s.repliesTo j ++ [⟨i, account, inbound, text⟩] else s.repliesTo j := by
  unfold repliesTo sendReply finish
  rw [filter_append]
  by_cases hj : j = i
  · subst hj
    simp
  · simp [hj, Ne.symm hj]

variable {account : Account}

theorem Coherent.answer (h : s.Coherent d)
    (htask : s.tasks i = some task) (hlate : ¬ task.Early) {inbound : Inbound} {text : String}
    (hanswers : ∀ own parsed, task.Carries d own parsed (s.turns i) →
      (⟨i, account, inbound, text⟩ : Reply Account Inbound).Answers d own parsed (s.turns i)) :
    ((s.finish i).sendReply i account inbound text).Coherent d := by
  obtain ⟨own, parsed, haccepted, hreplies, hcarried, -⟩ := (h.phase i).pending_of htask hlate
  refine h.settle (h.lt_deliveries htask) le_rfl (fun j hj => update_of_ne hj _ _)
    (fun _ _ => rfl) (fun _ _ => rfl) (fun j hj => ?_) (fun _ _ _ _ _ _ _ _ _ hget => hget)
    (.answered own parsed ⟨i, account, inbound, text⟩ haccepted ?_ (update_self _ _ _)
      (hanswers own parsed hcarried))
  · rw [repliesTo_sendReply, if_neg hj]
  · rw [repliesTo_sendReply, if_pos rfl, hreplies, nil_append]

theorem stashKey_injective : Injective stashKey := by
  intro a b h
  have hlist := congrArg String.toList h
  unfold stashKey at hlist
  rw [String.toList_append, String.toList_append] at hlist
  exact String.toList_injective (append_cancel_left hlist)

variable {parsed : ParsedInbound Inbound}

theorem Coherent.stash (h : s.Coherent d)
    {sessionId : String} (htask : s.tasks i = some (.stashing account parsed sessionId))
    (hserial : ∀ j task other otherParsed, s.tasks j = some task →
      task.awaits = some sessionId → s.accepted j = some (other, otherParsed) →
        address d other otherParsed = address d account parsed)
    (answer : HostAnswer Account Inbound) :
    (s.advance d i answer (.stashing account parsed sessionId)).Coherent d := by
  obtain ⟨own, ownParsed, haccepted, hreplies, hcarried, -⟩ :=
    (h.phase i).pending_of htask (fun hearly => hearly)
  obtain ⟨rfl, rfl, hturn⟩ := hcarried
  refine h.settle (h.lt_deliveries htask) le_rfl (fun j hj => update_of_ne hj _ _)
    (fun _ _ => rfl) (fun _ _ => rfl) (fun _ _ => rfl)
    (fun j task other otherParsed sessionId' _ htask' haccepted' hawaits hget => ?_)
    (.pending account parsed (.stashed account parsed sessionId) haccepted hreplies
      (update_self _ _ _) ⟨rfl, rfl, hturn⟩ fun sessionId' hawaits => ?_)
  · by_cases hsession : sessionId' = sessionId
    · subst hsession
      rw [hserial j task other otherParsed htask' hawaits haccepted']
      exact SortedMap.get_put _ _ _
    · exact (SortedMap.get_put_of_ne _ (fun heq => hsession (stashKey_injective heq)) _).trans hget
  · obtain rfl := Option.some.inj hawaits
    exact SortedMap.get_put _ _ _

theorem Coherent.accept (h : s.Coherent d)
    (htask : s.tasks i = some (.limited account parsed true)) (answer : HostAnswer Account Inbound)
    (hfresh : s.sessionStore.findBySourceAndSender d.id parsed.senderId = none →
      s.sessionStore.get answer.nanoid = none) :
    (s.advance d i answer (.limited account parsed true)).Coherent d := by
  obtain ⟨haccepted, hturn, hreplies⟩ := (h.phase i).early_of htask trivial
  obtain ⟨sessionStore, sessionId, hsession⟩ :
      ∃ sessionStore sessionId, s.resolveSession d parsed.senderId answer.nanoid answer.now =
        .ok (sessionStore, sessionId) := by
    unfold resolveSession
    cases hfind : s.sessionStore.findBySourceAndSender d.id parsed.senderId with
    | some existing => exact ⟨_, _, rfl⟩
    | none =>
      have hcreate := SessionStore.create_of_none (hfresh hfind)
        { source := some d.id, sender := some parsed.senderId } answer.now
      simp only [hcreate]
      exact ⟨_, _, rfl⟩
  have hstep : s.advance d i answer (.limited account parsed true) =
      { ({ s with accepted := Function.update s.accepted i (some (account, parsed)) } :
          Channel Account Inbound).goOn i (.stashing account parsed sessionId) with
        sessionStore } := by
    have hresolve : ({ s with accepted := Function.update s.accepted i (some (account, parsed)) } :
        Channel Account Inbound).resolveSession d parsed.senderId answer.nanoid answer.now =
          .ok (sessionStore, sessionId) := hsession
    simp only [advance, if_true, hresolve]
  rw [hstep]
  refine h.settle (h.lt_deliveries htask) le_rfl (fun j hj => update_of_ne hj _ _)
    (fun j hj => update_of_ne hj _ _) (fun _ _ => rfl) (fun _ _ => rfl)
    (fun _ _ _ _ _ _ _ _ _ hget => hget)
    (.pending account parsed (.stashing account parsed sessionId) (update_self _ _ _)
      hreplies (update_self _ _ _) ⟨rfl, rfl, hturn⟩ fun _ hawaits => by cases hawaits)

theorem coherent_turnEnd (h : s.Coherent d) (i : Nat) (messages : List AgentMessage) :
    (s.turnEnd i messages).Coherent d := by
  unfold turnEnd
  cases htask : s.tasks i with
  | none => exact h
  | some task =>
    cases task with
    | running agent sessionId =>
      obtain ⟨own, parsed, haccepted, hreplies, -, hstash⟩ :=
        (h.phase i).pending_of htask (fun hearly => hearly)
      refine h.settle (h.lt_deliveries htask) le_rfl (fun j hj => update_of_ne hj _ _)
        (fun _ _ => rfl) (fun j hj => update_of_ne hj _ _) (fun _ _ => rfl)
        (fun _ _ _ _ _ _ _ _ _ hget => hget)
        (.pending own parsed (.dispatching sessionId (extractFinalAssistantText messages)) haccepted
          hreplies (update_self _ _ _) (update_self _ _ _) hstash)
    | _ => exact h

theorem coherent_deliver (h : s.Coherent d) : s.deliver.Coherent d := by
  obtain ⟨htask, haccepted⟩ := h.free s.deliveries le_rfl
  refine h.settle (i := s.deliveries) (Nat.lt_succ_self _) (Nat.le_succ _)
    (fun j hj => update_of_ne hj _ _) (fun _ _ => rfl) (fun _ _ => rfl) (fun _ _ => rfl)
    (fun _ _ _ _ _ _ _ _ _ hget => hget) ?_
  cases h.phase s.deliveries with
  | early _ hturn hreplies _ =>
    refine .early haccepted hturn hreplies fun task hnew => ?_
    change Function.update s.tasks s.deliveries (some .lookup) s.deliveries = some task at hnew
    rw [update_self] at hnew
    cases hnew
    trivial
  | pending _ _ _ haccepted' _ _ _ _ => cases haccepted.symm.trans haccepted'
  | answered _ _ _ haccepted' _ _ _ => cases haccepted.symm.trans haccepted'

theorem coherent_advance (h : s.Coherent d) {answer : HostAnswer Account Inbound}
    (htask : s.tasks i = some task)
    (hserial : s.Serial d (.advance i answer)) : (s.advance d i answer task).Coherent d := by
  obtain ⟨hfresh, hstash, hfound⟩ := hserial
  have hgoOn : ∀ next, Kept s (s.goOn i next) := fun next => ⟨rfl, rfl, rfl, rfl, rfl⟩
  have hdrop : task.Early → (s.finish i).Coherent d := fun hearly =>
    h.move_early ⟨rfl, rfl, rfl, rfl, rfl⟩ htask hearly
      (show (s.finish i).tasks = Function.update s.tasks i none from rfl)
      (fun task' hnext => by cases hnext)
  cases task with
  | lookup =>
    simp only [advance]
    split
    · exact h.move_early (hgoOn _) htask trivial rfl (fun _ hnext => by cases hnext; trivial)
    · exact hdrop trivial
  | verifying account =>
    simp only [advance]
    split
    · exact h.move_early (hgoOn _) htask trivial rfl (fun _ hnext => by cases hnext; trivial)
    · exact hdrop trivial
  | parsing account =>
    simp only [advance]
    split
    · exact h.move_early ⟨rfl, rfl, rfl, rfl, rfl⟩ htask trivial rfl
        (fun _ hnext => by cases hnext; trivial)
    · exact hdrop trivial
  | sender account parsed limits allowed =>
    simp only [advance]
    split
    · exact h.move_early ⟨rfl, rfl, rfl, rfl, rfl⟩ htask trivial rfl
        (fun _ hnext => by cases hnext; trivial)
    · exact hdrop trivial
  | limited account parsed allowed =>
    cases allowed with
    | true => exact h.accept htask answer (hfresh account parsed htask)
    | false => exact hdrop trivial
  | stashing account parsed sessionId =>
    exact h.stash htask (hstash account parsed sessionId htask) answer
  | stashed account parsed sessionId =>
    simp only [advance]
    split
    · exact h.move_pending (hgoOn _) htask (fun hearly => hearly) rfl
        (fun _ _ _ hcarries => hcarries) (fun _ hawaits => by cases hawaits)
    · exact h.move_pending (hgoOn _) htask (fun hearly => hearly) rfl
        (fun _ _ _ hcarries => hcarries) (fun _ hawaits => hawaits)
  | ensuring account parsed sessionId =>
    simp only [advance]
    split
    · exact h.move_pending (hgoOn _) htask (fun hearly => hearly) rfl
        (fun _ _ _ hcarries => hcarries) (fun _ hawaits => by cases hawaits)
    · exact h.move_pending ⟨rfl, rfl, rfl, rfl, rfl⟩ htask (fun hearly => hearly) rfl
        (fun _ _ _ hcarries => hcarries) (fun _ hawaits => hawaits)
  | ready account parsed sessionId =>
    have hfailed : (s.goOn i (.failed account parsed)).Coherent d :=
      h.move_pending (hgoOn _) htask (fun hearly => hearly) rfl (fun _ _ _ hcarries => hcarries)
        (fun _ hawaits => by cases hawaits)
    simp only [advance]
    split
    · exact hfailed
    · split
      · exact hfailed
      · exact h.move_pending ⟨rfl, rfl, rfl, rfl, rfl⟩ htask (fun hearly => hearly) rfl
          (fun _ _ _ hcarries => hcarries.2.2) (fun _ hawaits => hawaits)
  | running agent sessionId => exact h
  | failed account parsed =>
    refine h.answer htask (fun hearly => hearly) fun own ownParsed hcarries => ?_
    obtain ⟨rfl, rfl, hturn⟩ := hcarries
    exact ⟨rfl, rfl, .inr ⟨hturn, rfl⟩⟩
  | dispatching sessionId finalText =>
    obtain ⟨own, ownParsed, -, -, -, hget⟩ := (h.phase i).pending_of htask (fun hearly => hearly)
    have hget := hget sessionId rfl
    simp only [advance, hget]
    refine h.move_pending (hgoOn _) htask (fun hearly => hearly) rfl
      (fun account parsed hstashed hcarries => ⟨?_, hcarries⟩) (fun _ hawaits => by cases hawaits)
    exact Option.some.inj (hget.symm.trans (hstashed sessionId rfl))
  | resolving stash finalText =>
    obtain ⟨account, hanswer, haccount⟩ := hfound stash finalText htask
    simp only [advance, hanswer]
    refine h.answer htask (fun hearly => hearly) fun own ownParsed hcarries => ?_
    obtain ⟨rfl, hturn⟩ := hcarries
    exact ⟨haccount, rfl, .inl hturn⟩

theorem coherent_step (h : s.Coherent d) {label : Label Account Inbound}
    (hserial : s.Serial d label) : (step d s label).Coherent d := by
  cases label with
  | deliver => exact coherent_deliver h
  | turnEnd i messages => exact coherent_turnEnd h i messages
  | advance i answer =>
    cases htask : s.tasks i with
    | none =>
      simp only [step, htask]
      exact h
    | some task =>
      simp only [step, htask]
      exact coherent_advance h htask hserial

theorem coherent_initial : ({} : Channel Account Inbound).Coherent d where
  phase _ := .early rfl rfl rfl fun _ htask => by cases htask
  free _ _ := ⟨rfl, rfl⟩

theorem Coherent.lawful (h : s.Coherent d) : s.Lawful d where
  addressed reply hreply := by
    have hmem : reply ∈ s.repliesTo reply.delivery :=
      mem_filter.mpr ⟨hreply, decide_eq_true rfl⟩
    cases h.phase reply.delivery with
    | early _ _ hreplies _ => exact absurd (hreplies ▸ hmem) not_mem_nil
    | pending _ _ _ _ hreplies _ _ _ => exact absurd (hreplies ▸ hmem) not_mem_nil
    | answered account parsed reply' haccepted hreplies _ hanswers =>
      obtain rfl := mem_singleton.mp (hreplies ▸ hmem)
      exact ⟨account, parsed, haccepted, hanswers⟩
  once i := by
    cases h.phase i with
    | early _ _ hreplies _ => simp [hreplies]
    | pending _ _ _ _ hreplies _ _ _ => simp [hreplies]
    | answered _ _ _ _ hreplies _ _ => simp [hreplies]
  answered i haccepted htask := by
    cases h.phase i with
    | early hnone _ _ _ => exact absurd hnone haccepted
    | pending _ _ _ _ _ hsome _ _ => cases htask.symm.trans hsome
    | answered _ _ _ _ hreplies _ _ => simp [hreplies]

/-- Whatever an await brings, a delivery has fewer of them before it, and a running turn waits for
its end only. -/
structure Progressing (d : ChannelDefinition Account) (s : Channel Account Inbound) : Prop where
  await : ∀ i task answer next, s.tasks i = some task →
    (∀ agent sessionId, task ≠ .running agent sessionId) →
      (step d s (.advance i answer)).tasks i = some next → next.rank < task.rank
  turn : ∀ i agent sessionId messages next, s.tasks i = some (.running agent sessionId) →
    (step d s (.turnEnd i messages)).tasks i = some next →
      next.rank < (Task.running agent sessionId : Task Account Inbound).rank

variable {tasks : Nat → Option (Task Account Inbound)}

theorem rank_lt_of_update {next' : Task Account Inbound} (hrank : next'.rank < task.rank)
    (hnext : Function.update tasks i (some next') i = some next) : next.rank < task.rank := by
  rw [update_self] at hnext
  cases hnext
  exact hrank

theorem rank_lt_of_finish (hnext : Function.update tasks i none i = some next) :
    next.rank < task.rank := by
  rw [update_self] at hnext
  cases hnext

theorem progressing (s : Channel Account Inbound) : s.Progressing d where
  await i task answer next htask hrunning hnext := by
    simp only [step, htask] at hnext
    cases task with
    | running agent sessionId => exact absurd rfl (hrunning agent sessionId)
    | stashing account parsed sessionId => exact rank_lt_of_update (Nat.lt_succ_self _) hnext
    | failed account parsed => exact rank_lt_of_finish hnext
    | _ =>
      simp only [advance] at hnext
      split at hnext
      all_goals first
        | exact rank_lt_of_finish hnext
        | exact rank_lt_of_update (by simp [Task.rank]) hnext
        | split at hnext
          all_goals first
            | exact rank_lt_of_finish hnext
            | exact rank_lt_of_update (by simp [Task.rank]) hnext
  turn i agent sessionId messages next htask hnext := by
    simp only [step, turnEnd, htask] at hnext
    exact rank_lt_of_update (by simp [Task.rank]) hnext

def telegram : ChannelDefinition String := ⟨"telegram", fun account => account⟩

/-- One sender writes to an account, and the message comes to the call of `handleAgentPrompt`. -/
def arrives (i : Nat) (account : String) (messageId : Nat) : List (Label String Nat) :=
  [.deliver, .advance i { account := .ok (some account) }, .advance i {},
    .advance i { parsed := .ok (some ⟨"@alice", "hi", messageId⟩)
                 limits := ⟨⟨10, none⟩, ⟨100, none⟩⟩ },
    .advance i {}, .advance i { nanoid := "chat" }, .advance i {}, .advance i {}]

/-- The turn of a message runs to its end. -/
def ends (i : Nat) (text : String) : List (Label String Nat) :=
  [.turnEnd i [{ role := .assistant, content := .plain text, timestamp := 0 }], .advance i {}]

/-- One message, answered. -/
def quietRun : List (Label String Nat) :=
  arrives 0 "support" 1 ++ [.advance 0 {}, .advance 0 {}] ++ ends 0 "hello" ++
    [.advance 0 { account := .ok (some "support") }]

/-- A task at which a step is serial whatever else is under way. -/
def calm : Task String Nat → Bool
  | .limited _ _ true => false
  | .stashing .. => false
  | .resolving .. => false
  | _ => true

theorem serial_of_calm {s : Channel String Nat} {i : Nat} {answer : HostAnswer String Nat}
    {task : Task String Nat} (htask : s.tasks i = some task) (hcalm : calm task = true) :
    s.Serial telegram (.advance i answer) := by
  refine ⟨fun account parsed h => ?_, fun account parsed sessionId h => ?_, fun stash text h => ?_⟩
  all_goals
    obtain rfl := Option.some.inj (htask.symm.trans h)
    cases hcalm

theorem quietRun_serial :
    Run.Allowed (fun s label => Serial telegram s label) (step telegram) {} quietRun := by
  refine Run.allowed_cons trivial <| Run.allowed_cons (serial_of_calm rfl rfl) <|
    Run.allowed_cons (serial_of_calm rfl rfl) <| Run.allowed_cons (serial_of_calm rfl rfl) <|
    Run.allowed_cons (serial_of_calm rfl rfl) <| Run.allowed_cons ?_ <| Run.allowed_cons ?_ <|
    Run.allowed_cons (serial_of_calm rfl rfl) <| Run.allowed_cons (serial_of_calm rfl rfl) <|
    Run.allowed_cons (serial_of_calm rfl rfl) <| Run.allowed_cons trivial <|
    Run.allowed_cons (serial_of_calm rfl rfl) <| Run.allowed_cons ?_ <| Run.allowed_nil _ _ _
  · refine ⟨fun _ _ _ _ => rfl, fun _ _ _ h => ?_, fun _ _ h => ?_⟩ <;> cases h
  · refine ⟨fun _ _ h => ?_, fun _ _ _ _ j task _ _ hj hawaits _ => ?_, fun _ _ h => ?_⟩
    · cases h
    rotate_left
    · cases h
    cases j
    · cases hj
      cases hawaits
    · cases hj
  · refine ⟨fun _ _ h => ?_, fun _ _ _ h => ?_, fun stash text h => ?_⟩ <;> cases h
    exact ⟨"support", rfl, rfl⟩

/-- The sender writes to a second account while the turn of the first message runs. -/
def overlappingRun : List (Label String Nat) :=
  arrives 0 "support" 1 ++ [.advance 0 {}, .advance 0 {}] ++ arrives 1 "sales" 2 ++
    [.advance 1 {}] ++ ends 0 "hello" ++ [.advance 0 { account := .ok (some "sales") }]

end Channel

end CrabbyKit.Channels
