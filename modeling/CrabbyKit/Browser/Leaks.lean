import CrabbyKit.Browser.Custody

/-!
# No browser session is leaked or doubled

Every serial step keeps the custody of the live sessions, so each state of a serial run has it.
-/

namespace CrabbyKit.Browser.Manager

open List Function

variable {s s' : Manager} {i : Nat} {task : Task}

theorem Coherent.lawful (h : s.Coherent) : s.Lawful := by
  -- Two sessions of one chat session, or with the context, are in the same custody.
  have hrecord : ∀ id remote active, s.live id = some remote →
      s.active.get remote.chat = some active → active.browserbaseId = id ∧
        active.usedContext = remote.usesContext := by
    intro id remote active hlive hget
    rcases h.live id remote hlive with ⟨active', hget', hrest⟩ | ⟨i, t, session, ht, hcarries, -, -⟩
    · obtain rfl := Option.some.inj (hget.symm.trans hget')
      exact hrest
    · have hopens : t.opens = some remote.chat := by
        cases t <;> cases hcarries
        rfl
      cases (h.exclusive i t remote.chat ht hopens).1.symm.trans hget
  have hcarried : ∀ {t : Task} {chat : String} {session : ActiveSession},
      t.carries = some (chat, session) → t.opens = some chat ∧
        t.takesContext = session.usedContext := by
    intro t chat session hcarries
    cases t <;> cases hcarries
    exact ⟨rfl, rfl⟩
  refine ⟨fun id id' remote remote' hlive hlive' hchat => ?_, fun id remote hlive => ?_,
    fun id id' remote remote' hlive hlive' hused hused' => ?_, h.reopens⟩
  · rcases h.live id remote hlive with
      ⟨active, hget, hid, -⟩ | ⟨i, t, session, ht, hcarries, hid, -⟩
    · exact hid.symm.trans (hrecord id' remote' active hlive' (hchat ▸ hget)).1
    · rcases h.live id' remote' hlive' with
        ⟨active', hget', hid', -⟩ | ⟨j, t', session', ht', hcarries', hid', -⟩
      · have hnone := (h.exclusive i t remote.chat ht (hcarried hcarries).1).1
        rw [hchat, hget'] at hnone
        cases hnone
      · have hij := h.opener i j t t' remote.chat ht ht' (hcarried hcarries).1
          (hchat ▸ (hcarried hcarries').1)
        subst hij
        obtain rfl := Option.some.inj (ht.symm.trans ht')
        have heq := Option.some.inj (hcarries.symm.trans hcarries')
        rw [← hid, ← hid', (Prod.mk.inj heq).2]
  · rcases h.live id remote hlive with
      ⟨active, hget, hid, -⟩ | ⟨i, t, session, ht, hcarries, hid, -⟩
    · exact .inl ⟨active, hget, hid⟩
    · exact .inr ⟨i, t, session, ht, hcarries, hid⟩
  · rcases h.live id remote hlive with
      ⟨active, hget, hid, hcontext⟩ | ⟨i, t, session, ht, hcarries, hid, hcontext⟩
    · rcases h.live id' remote' hlive' with
        ⟨active', hget', hid', hcontext'⟩ | ⟨j, t', session', ht', hcarries', hid', hcontext'⟩
      · have hchat := h.contextRecords _ _ active active' hget hget' (hcontext.trans hused)
          (hcontext'.trans hused')
        rw [hchat] at hget
        obtain rfl := Option.some.inj (hget.symm.trans hget')
        exact hid.symm.trans hid'
      · have htakes := (hcarried hcarries').2.trans (hcontext'.trans hused')
        have hfalse := h.contextRecord j t' _ active ht' htakes hget
        rw [hcontext.trans hused] at hfalse
        cases hfalse
    · have htakes := (hcarried hcarries).2.trans (hcontext.trans hused)
      rcases h.live id' remote' hlive' with
        ⟨active', hget', hid', hcontext'⟩ | ⟨j, t', session', ht', hcarries', hid', hcontext'⟩
      · have hfalse := h.contextRecord i t _ active' ht htakes hget'
        rw [hcontext'.trans hused'] at hfalse
        cases hfalse
      · have hij := h.contextOpen i j t t' ht ht' htakes
          ((hcarried hcarries').2.trans (hcontext'.trans hused'))
        subst hij
        obtain rfl := Option.some.inj (ht.symm.trans ht')
        have heq := Option.some.inj (hcarries.symm.trans hcarries')
        rw [← hid, ← hid', (Prod.mk.inj heq).2]

variable {chat : String}

variable {outcome : Outcome}

theorem Coherent.told (h : s.Coherent)
    (hnone : outcome.reopens = true → s.active.get chat = none) (c : String) (o : Outcome)
    (ho : Function.update s.outcome chat (some outcome) c = some o) (hreopens : o.reopens = true) :
    s.active.get c = none := by
  by_cases hc : c = chat
  · subst hc
    rw [update_self] at ho
    cases ho
    exact hnone hreopens
  · rw [update_of_ne hc] at ho
    exact h.reopens c o ho hreopens

theorem Coherent.finishWith (h : s.Coherent) (htask : s.tasks i = some task)
    (hkept : ∀ chat session, task.carries = some (chat, session) →
      s.live session.browserbaseId = none)
    (hnone : outcome.reopens = true → s.active.get chat = none) :
    (s.finishWith i chat outcome).Coherent :=
  h.move htask (follows_none hkept) (h.told hnone)

theorem Coherent.finish (h : s.Coherent) (htask : s.tasks i = some task)
    (hkept : task.carries = none) : (s.finish i).Coherent := by
  refine h.move htask (follows_none fun chat session hcarries => ?_) h.reopens
  rw [hkept] at hcarries
  cases hcarries

theorem Coherent.goOn (h : s.Coherent) (htask : s.tasks i = some task) {next : Task}
    (hfollows : s.Follows task (some next)) : (s.goOn i next).Coherent :=
  h.move htask hfollows h.reopens

/-- `recoverOrphans` ends, or takes up an entry that is left. -/
theorem recoverNext_cases (s : Manager) (i : Nat) (rest : List (String × ActiveSession)) :
    s.recoverNext i rest = s.finish i ∨
      ∃ chat active more, s.recoverNext i rest = s.goOn i (.recovering chat active more) ∧
        (chat, active) :: more <:+ rest := by
  induction rest with
  | nil => exact .inl rfl
  | cons entry rest ih =>
    obtain ⟨chat, active⟩ := entry
    unfold recoverNext
    split_ifs
    · rcases ih with hend | ⟨chat', active', more, hnext, hsuffix⟩
      · exact .inl hend
      · exact .inr ⟨chat', active', more, hnext, hsuffix.trans (suffix_cons _ _)⟩
    · exact .inr ⟨chat, active, rest, rfl, suffix_rfl⟩

theorem Coherent.recoverNext (h : s.Coherent) (htask : s.tasks i = some task)
    (hkept : task.carries = none) {rest : List (String × ActiveSession)}
    (hrest : ∀ entry ∈ rest, entry ∈ task.drops ∨ s.active.get entry.1 = some entry.2) :
    (s.recoverNext i rest).Coherent := by
  rcases recoverNext_cases s i rest with hend | ⟨chat, active, more, hnext, hsuffix⟩
  · rw [hend]
    exact h.finish htask hkept
  · rw [hnext]
    refine h.goOn htask (follows_plain rfl rfl rfl rfl hkept fun entry hentry => ?_)
    exact hrest entry (hsuffix.subset hentry)

theorem Coherent.releaseSession (h : s.Coherent) {browserbaseId : Nat} {failed : Bool}
    (hfailed : failed = true → s.live browserbaseId = none) :
    (s.releaseSession browserbaseId failed).Coherent ∧
      (s.releaseSession browserbaseId failed).live browserbaseId = none ∧
      (s.releaseSession browserbaseId failed).tasks = s.tasks := by
  unfold Manager.releaseSession
  split_ifs with hcase
  · exact ⟨h, hfailed hcase, rfl⟩
  · exact ⟨h.release browserbaseId, update_self _ _ _, rfl⟩

variable {active : ActiveSession}

theorem Coherent.released_next (h : s.Coherent) (htask : s.tasks i = some task) (next : Task)
    (hopens : next.opens = none) (hcarries : next.carries = none)
    (htakes : next.takesContext = false) (hreleased : next.released = some active)
    (hkept : task.carries = none) (hdrops : next.drops = task.drops) {failed : Bool}
    (hfailed : failed = true → s.live active.browserbaseId = none) :
    ((s.releaseSession active.browserbaseId failed).goOn i next).Coherent := by
  obtain ⟨hcoherent, hdead, htasks⟩ := h.releaseSession hfailed
  refine hcoherent.goOn (htasks ▸ htask) ⟨fun t chat hnext hchat => ?_,
    fun t chat session hnext hsession => ?_, fun chat session hsession => ?_,
    fun t hnext ht => ?_, fun t entry hnext hentry => ?_, fun t active' hnext hactive => ?_⟩
  · cases hnext
    rw [hopens] at hchat
    cases hchat
  · cases hnext
    rw [hcarries] at hsession
    cases hsession
  · rw [hkept] at hsession
    cases hsession
  · cases hnext
    rw [htakes] at ht
    cases ht
  · cases hnext
    exact .inl (hdrops ▸ hentry)
  · cases hnext
    rw [hreleased] at hactive
    cases hactive
    exact hdead

theorem Coherent.drop (h : s.Coherent) (htask : s.tasks i = some task)
    (hreleased : task.released = some active) (hdrops : (chat, active) ∈ task.drops) :
    Coherent { s with active := (s.active.delete chat).1 } := by
  refine h.delete fun active' hget => ?_
  rw [h.drops i task chat active htask hdrops active' hget]
  exact h.released i task active htask hreleased

variable {todo : List Await}

/-- An `open` goes on to its next await. -/
theorem Coherent.openStep (h : s.Coherent) {session : ActiveSession}
    (htask : s.tasks i = some (.opening chat session todo)) (answer : HostAnswer)
    (hfailed : ∀ await rest, todo = await :: rest → answer.failed = true → await.fallible = true →
      s.live session.browserbaseId = none) : (s.openStep i chat session answer todo).Coherent := by
  have hnone := (h.exclusive i _ chat htask rfl).1
  cases todo with
  | nil => exact h.record htask rfl rfl
  | cons await rest =>
    have hnext : ∀ clients : String → Option CDPClient,
        (({ s with cdpClients := clients } : Manager).goOn i
          (.opening chat session (afterAwait await rest answer))).Coherent := by
      intro clients
      refine (h.clients clients).goOn htask (follows_open (fun c hchat => .inl hchat)
        (fun c owned howned => ?_) (fun c owned howned => howned) .inl rfl rfl)
      cases howned
      exact h.givenTask i _ session htask ⟨chat, .inl rfl⟩
    simp only [Manager.openStep]
    split_ifs with hcase
    · obtain ⟨hfail, hfallible⟩ := Bool.and_eq_true_iff.mp hcase
      refine h.finishWith htask (fun c owned howned => ?_) fun _ => hnone
      cases howned
      exact hfailed await rest rfl hfail hfallible
    · exact hnext _
    · exact hnext s.cdpClients

/-- The provider creates a session for an `open`. -/
theorem Coherent.create (h : s.Coherent) {url : Option String} {useContext : Bool}
    (htask : s.tasks i = some (.creating chat url useContext)) (now : Instant) :
    Coherent { s.goOn i (.opening chat ⟨s.created, useContext, now⟩ (setup url useContext)) with
      live := Function.update s.live s.created (some ⟨chat, useContext⟩)
      created := s.created + 1 } := by
  have hfollows : Follows { s with created := s.created + 1 } (.creating chat url useContext)
      (some (.opening chat ⟨s.created, useContext, now⟩ (setup url useContext))) := by
    refine follows_open (fun c hchat => .inl hchat) (fun c owned howned => ?_)
      (fun c owned howned => ?_) .inl rfl rfl
    · cases howned
      exact Nat.lt_succ_self _
    · cases howned
  have hmoved := h.number.goOn htask hfollows
  refine hmoved.born (update_self _ _ _) rfl fun j t active ht hreleased => ?_
  rcases Table.update_eq_some ht with ⟨-, hnext⟩ | ⟨-, hold⟩
  · cases hnext
    cases hreleased
  · exact (h.givenTask j t active hold (Task.has_of_released hreleased)).ne

variable {contextId : Bool}

variable {answer : HostAnswer}

theorem Coherent.advance (h : s.Coherent)
    (htask : s.tasks i = some task) (hserial : s.Serial contextId (.advance i answer)) :
    (s.advance contextId i answer task).Coherent := by
  obtain ⟨hfree, hcontext, hopen, hrelease, hrecover⟩ := hserial
  cases task with
  | checking chat url =>
    cases hget : s.active.get chat with
    | some active =>
      simp only [Manager.advance, hget]
      exact h.finishWith htask (fun _ _ hcarries => by cases hcarries) fun hr => by cases hr
    | none =>
      simp only [Manager.advance, hget]
      refine h.goOn htask (follows_open (fun c hchat => ?_) (fun c owned howned => ?_)
        (fun c owned howned => ?_) (fun ht => ?_) rfl rfl)
      · cases hchat
        exact .inr ⟨hget, hfree chat url htask hget⟩
      · cases howned
      · cases howned
      · cases ht
  | counting chat url =>
    refine h.goOn htask (follows_open (fun c hchat => .inl hchat) (fun c owned howned => ?_)
      (fun c owned howned => ?_) (fun ht => ?_) rfl rfl)
    · cases howned
    · cases howned
    · obtain ⟨hempty, hconfigured⟩ := Bool.and_eq_true_iff.mp ht
      refine .inr ⟨fun c => ?_, hcontext chat url htask hempty hconfigured⟩
      have hrows : s.active.rows = [] := List.isEmpty_iff.mp hempty
      cases hget : s.active.get c with
      | none => rfl
      | some active =>
        have hmem := (SortedMap.get_eq_some_iff _).mp hget
        rw [hrows] at hmem
        cases hmem
  | creating chat url useContext =>
    simp only [Manager.advance]
    split_ifs
    · exact h.finishWith htask (fun _ _ hcarries => by cases hcarries)
        fun _ => (h.exclusive i _ chat htask rfl).1
    · exact h.create htask answer.now
  | opening chat session todo =>
    exact h.openStep htask answer fun await rest htodo =>
      hopen chat session await rest (htodo ▸ htask)
  | closing chat =>
    cases hget : s.active.get chat with
    | none =>
      simp only [Manager.advance, hget]
      exact h.finishWith htask (fun _ _ hcarries => by cases hcarries) fun hr => by cases hr
    | some active =>
      have hread : ∀ next : Task, next.opens = none → next.carries = none →
          next.takesContext = false → next.released = none → next.drops = [(chat, active)] →
            (s.goOn i next).Coherent := by
        intro next hopens hcarries htakes hreleased hdrops
        refine h.goOn htask (follows_plain hopens hcarries htakes hreleased rfl
          fun entry hentry => .inr ?_)
        rw [hdrops] at hentry
        rw [mem_singleton.mp hentry]
        exact hget
      simp only [Manager.advance, hget]
      split
      · exact hread _ rfl rfl rfl rfl rfl
      · exact (hread (.releasing chat active) rfl rfl rfl rfl rfl).clients _
  | saving chat active todo =>
    have hnext : ∀ next : Task, next.opens = none → next.carries = none →
        next.takesContext = false → next.released = none → next.drops = [(chat, active)] →
          (s.goOn i next).Coherent := by
      intro next hopens hcarries htakes hreleased hdrops
      refine h.goOn htask (follows_plain hopens hcarries htakes hreleased rfl
        fun entry hentry => .inl ?_)
      rw [hdrops] at hentry
      exact hentry
    cases todo with
    | nil => exact (hnext (.releasing chat active) rfl rfl rfl rfl rfl).clients _
    | cons await rest =>
      simp only [Manager.advance]
      split_ifs
      · exact (hnext (.releasing chat active) rfl rfl rfl rfl rfl).clients _
      · exact hnext _ rfl rfl rfl rfl rfl
  | releasing chat active =>
    exact h.released_next htask (.forgetting chat active) rfl rfl rfl rfl rfl rfl
      (hrelease chat active htask)
  | forgetting chat active =>
    have hdropped := h.drop htask rfl mem_cons_self
    exact hdropped.finishWith htask (fun _ _ hcarries => by cases hcarries)
      fun _ => SortedMap.get_delete _ _
  | finding chat =>
    cases hget : s.active.get chat with
    | none =>
      simp only [Manager.advance, hget]
      exact h.finish htask rfl
    | some active =>
      simp only [Manager.advance, hget]
      exact h.goOn htask (follows_plain rfl rfl rfl rfl rfl fun entry hentry => by cases hentry)
  | reconnecting chat active todo =>
    cases todo with
    | nil => exact (h.clients _).finish htask rfl
    | cons await rest =>
      simp only [Manager.advance]
      split_ifs
      · exact h.finish htask rfl
      · exact h.goOn htask (follows_plain rfl rfl rfl rfl rfl fun entry hentry => by cases hentry)
  | listing =>
    refine h.recoverNext htask rfl fun entry hentry => .inr ?_
    exact (SortedMap.get_eq_some_iff _).mpr hentry
  | recovering chat active rest =>
    exact h.released_next htask (.dropping chat active rest) rfl rfl rfl rfl rfl rfl
      (hrecover chat active rest htask)
  | dropping chat active rest =>
    have hdropped := h.drop htask rfl mem_cons_self
    have htold : Coherent
        { s with
          active := (s.active.delete chat).1
          outcome := Function.update s.outcome chat
            (some (.recovered (durationMinutes active answer.now))) } :=
      ⟨hdropped.opener, hdropped.exclusive, hdropped.drops, hdropped.released, hdropped.live,
        hdropped.contextOpen, hdropped.contextRecord, hdropped.contextRecords,
        hdropped.told fun _ => SortedMap.get_delete _ _, hdropped.given, hdropped.givenRecord,
        hdropped.givenTask, hdropped.free⟩
    exact htold.recoverNext htask rfl fun entry hentry => .inl (mem_cons_of_mem _ hentry)

theorem Coherent.spawn (h : s.Coherent) {next : Task} (hopens : next.opens = none)
    (hcarries : next.carries = none) (htakes : next.takesContext = false)
    (hdrops : next.drops = []) (hreleased : next.released = none) : (s.spawn next).Coherent := by
  have hold : ∀ {j t}, Function.update s.tasks s.started (some next) j = some t →
      t = next ∨ s.tasks j = some t := by
    intro j t ht
    rcases Table.update_eq_some ht with ⟨-, hnext⟩ | ⟨-, hbefore⟩
    · exact .inl (Option.some.inj hnext).symm
    · exact .inr hbefore
  have hkeep : ∀ {j t}, s.tasks j = some t →
      Function.update s.tasks s.started (some next) j = some t := by
    intro j t ht
    exact Table.update_of_taken (h.free _ le_rfl) ht
  refine ⟨fun j k t t' chat ht ht' hchat hchat' => ?_, fun j t chat ht hchat => ?_,
    fun j t chat active ht hmem => ?_, fun j t active ht hactive => ?_, fun id remote hlive => ?_,
    fun j k t t' ht ht' htrue htrue' => ?_, fun j t chat active ht htrue => ?_, h.contextRecords,
    h.reopens, h.given, h.givenRecord, fun j t active ht hhas => ?_, fun j hle => ?_⟩
  · rcases hold ht with rfl | hbefore
    · cases hopens.symm.trans hchat
    · rcases hold ht' with rfl | hbefore'
      · cases hopens.symm.trans hchat'
      · exact h.opener j k t t' chat hbefore hbefore' hchat hchat'
  · rcases hold ht with rfl | hbefore
    · cases hopens.symm.trans hchat
    · obtain ⟨hnone, hfree⟩ := h.exclusive j t chat hbefore hchat
      refine ⟨hnone, fun k t' ht' => ?_⟩
      rcases hold ht' with rfl | hbefore'
      · rw [hdrops]
        exact not_mem_nil
      · exact hfree k t' hbefore'
  · rcases hold ht with rfl | hbefore
    · rw [hdrops] at hmem
      cases hmem
    · exact h.drops j t chat active hbefore hmem
  · rcases hold ht with rfl | hbefore
    · cases hreleased.symm.trans hactive
    · exact h.released j t active hbefore hactive
  · rcases h.live id remote hlive with hrecord | ⟨j, t, session, ht, hrest⟩
    · exact .inl hrecord
    · exact .inr ⟨j, t, session, hkeep ht, hrest⟩
  · rcases hold ht with rfl | hbefore
    · cases htakes.symm.trans htrue
    · rcases hold ht' with rfl | hbefore'
      · cases htakes.symm.trans htrue'
      · exact h.contextOpen j k t t' hbefore hbefore' htrue htrue'
  · rcases hold ht with rfl | hbefore
    · cases htakes.symm.trans htrue
    · exact h.contextRecord j t chat active hbefore htrue
  · rcases hold ht with rfl | hbefore
    · obtain ⟨chat, hc | hd⟩ := hhas
      · cases hcarries.symm.trans hc
      · rw [hdrops] at hd
        cases hd
    · exact h.givenTask j t active hbefore hhas
  · exact Table.free_update h.free (Nat.le_succ _) (Nat.lt_succ_self _) j hle

/-- The isolate goes while no `open` has a live session in hand. -/
theorem Coherent.hibernate (h : s.Coherent)
    (hnone : ∀ i task chat session, s.tasks i = some task → task.carries = some (chat, session) →
      s.live session.browserbaseId = none) :
    Coherent { s with cdpClients := fun _ => none, tasks := fun _ => none } := by
  refine ⟨fun _ _ _ _ _ ht => ?_, fun _ _ _ ht => ?_, fun _ _ _ _ ht => ?_, fun _ _ _ ht => ?_,
    fun id remote hlive => ?_, fun _ _ _ _ ht => ?_, fun _ _ _ _ ht => ?_, h.contextRecords,
    h.reopens, h.given, h.givenRecord, fun _ _ _ ht => ?_, fun _ _ => rfl⟩
  rotate_right 4
  · rcases h.live id remote hlive with hrecord | ⟨j, t, session, ht, hcarries, hid, -⟩
    · exact .inl hrecord
    · have hdead := hnone j t _ session ht hcarries
      rw [hid, hlive] at hdead
      cases hdead
  all_goals cases ht

theorem coherent_step (h : s.Coherent) {label : Label}
    (hserial : s.Serial contextId label) : (step contextId s label).Coherent := by
  cases label with
  | «open» chat url => exact h.spawn rfl rfl rfl rfl rfl
  | close chat => exact h.spawn rfl rfl rfl rfl rfl
  | ensureCDP chat =>
    simp only [step]
    split
    · exact h
    · exact h.spawn rfl rfl rfl rfl rfl
  | recoverOrphans => exact h.spawn rfl rfl rfl rfl rfl
  | advance i answer =>
    cases htask : s.tasks i with
    | none =>
      simp only [step, htask]
      exact h
    | some task =>
      simp only [step, htask]
      exact h.advance htask hserial
  | disconnect chat => exact h.clients _
  | expire browserbaseId => exact h.release browserbaseId
  | hibernate => exact h.hibernate hserial

theorem coherent_initial : ({} : Manager).Coherent := by
  have hnone : ∀ chat, ({} : Manager).active.get chat = none := fun _ => rfl
  refine ⟨fun _ _ _ _ _ ht => ?_, fun _ _ _ ht => ?_, fun _ _ _ _ ht => ?_, fun _ _ _ ht => ?_,
    fun _ _ hlive => ?_, fun _ _ _ _ ht => ?_, fun _ _ _ _ ht => ?_, fun chat _ _ _ hget => ?_,
    fun chat _ _ _ => hnone chat, fun _ _ => rfl, fun chat _ hget => ?_, fun _ _ _ ht => ?_,
    fun _ _ => rfl⟩
  · cases ht
  · cases ht
  · cases ht
  · cases ht
  · cases hlive
  · cases ht
  · cases ht
  · cases (hnone chat).symm.trans hget
  · cases (hnone chat).symm.trans hget
  · cases ht

theorem step_advance (contextId : Bool) (htask : s.tasks i = some task) (answer : HostAnswer) :
    step contextId s (.advance i answer) = s.advance contextId i answer task := by
  simp only [step, htask]

/-- The session is not live and its chat session has no record. -/
def Gone (s : Manager) (chat : String) (browserbaseId : Nat) : Prop :=
  s.live browserbaseId = none ∧ s.active.get chat = none

/-- A `close` that has released goes on to delete the record. -/
theorem gone_releasing (htask : s.tasks i = some (.releasing chat active)) :
    Gone (Run.run (step contextId) s [.advance i {}, .advance i {}]) chat active.browserbaseId := by
  have hnext : step contextId s (.advance i {}) =
      ({ s with live := Function.update s.live active.browserbaseId none } : Manager).goOn i
        (.forgetting chat active) := step_advance contextId htask {}
  have htask' : (step contextId s (.advance i {})).tasks i = some (.forgetting chat active) := by
    rw [hnext]
    exact update_self _ _ _
  change Gone (step contextId (step contextId s (.advance i {})) (.advance i {})) chat _
  rw [step_advance contextId htask', hnext]
  exact ⟨update_self _ _ _, SortedMap.get_delete _ _⟩

/-- A `close` saves what it can and goes on. -/
theorem gone_saving (htask : s.tasks i = some (.saving chat active todo)) :
    Gone (Run.run (step contextId) s (List.replicate (todo.length + 3) (.advance i {}))) chat
      active.browserbaseId := by
  induction todo generalizing s with
  | nil =>
    have hnext : (step contextId s (.advance i {})).tasks i = some (.releasing chat active) := by
      rw [step_advance contextId htask]
      exact update_self _ _ _
    exact gone_releasing hnext
  | cons await rest ih =>
    have hnext : (step contextId s (.advance i {})).tasks i = some (.saving chat active rest) := by
      rw [step_advance contextId htask]
      exact update_self _ _ _
    exact ih hnext

theorem gone_close (hget : s.active.get chat = some active) :
    ∃ n, Gone (Run.run (step contextId) s
      (.close chat :: List.replicate n (.advance s.started {}))) chat active.browserbaseId := by
  have htask : (step contextId s (.close chat)).tasks s.started = some (.closing chat) :=
    update_self _ _ _
  have hadvance : step contextId (step contextId s (.close chat)) (.advance s.started {}) =
      (step contextId s (.close chat)).advance contextId s.started {} (.closing chat) :=
    step_advance contextId htask {}
  have hread : (step contextId s (.close chat)).active.get chat = some active := hget
  simp only [advance, hread] at hadvance
  split at hadvance
  · refine ⟨Browser.saving.length + 3 + 1, ?_⟩
    have hsaving : (step contextId (step contextId s (.close chat))
        (.advance s.started {})).tasks s.started = some (.saving chat active Browser.saving) := by
      rw [hadvance]
      exact update_self _ _ _
    exact gone_saving hsaving
  · refine ⟨2 + 1, ?_⟩
    have hreleasing : (step contextId (step contextId s (.close chat))
        (.advance s.started {})).tasks s.started = some (.releasing chat active) := by
      rw [hadvance]
      exact update_self _ _ _
    exact gone_releasing hreleasing

/-- In a run of serial steps no browser session is leaked or doubled, and what is recorded is
released by the next close. -/
theorem sessions_kept {contextId : Bool} {labels : List Label}
    (h : Run.Allowed (Serial · contextId ·) (step contextId) {} labels)
    (before after : List Label) (hsplit : labels = before ++ after) :
    (Run.run (step contextId) {} before).Lawful ∧
      ∀ chat active, (Run.run (step contextId) {} before).active.get chat = some active →
        ∃ n, Gone (Run.run (step contextId) (Run.run (step contextId) {} before)
          (.close chat :: List.replicate n
            (.advance (Run.run (step contextId) {} before).started {}))) chat
              active.browserbaseId := by
  have hcoherent := Run.invariant_of_allowed (I := Coherent) coherent_initial
    (fun s label hs hserial => coherent_step hs hserial) h before after hsplit
  exact ⟨hcoherent.lawful, fun chat active hget => gone_close hget⟩

/-- A browser is opened with the persistent context. -/
def openedRun : List Label := .open "chat" none :: List.replicate 12 (.advance 0 {})

theorem serial_of_ok (htask : s.tasks i = some task)
    (hanswer : answer.failed = false) (hchecking : ∀ chat url, task ≠ .checking chat url)
    (hcounting : ∀ chat url, task ≠ .counting chat url) :
    s.Serial contextId (.advance i answer) := by
  have hnot : ∀ {p : Prop}, answer.failed = true → p := by
    intro p hfailed
    rw [hanswer] at hfailed
    cases hfailed
  exact ⟨fun chat url h => absurd (Option.some.inj (htask.symm.trans h)) (hchecking chat url),
    fun chat url h => absurd (Option.some.inj (htask.symm.trans h)) (hcounting chat url),
    fun _ _ _ _ _ => hnot, fun _ _ _ => hnot, fun _ _ _ _ => hnot⟩

theorem openedRun_serial : Run.Allowed (Serial · true ·) (step true) {} openedRun := by
  have hok : ∀ {s : Manager} {task : Task}, s.tasks 0 = some task →
      (∀ chat url, task ≠ .checking chat url) → (∀ chat url, task ≠ .counting chat url) →
        s.Serial true (.advance 0 {}) := fun htask => serial_of_ok htask rfl
  refine Run.allowed_cons trivial (Run.allowed_cons ⟨fun chat url _ _ j task htask => ?_,
    fun _ _ h => ?_, fun _ _ _ _ h => ?_, fun _ _ h => ?_, fun _ _ _ h => ?_⟩
    (Run.allowed_cons ⟨fun _ _ h => ?_, fun _ _ _ _ _ j task htask => ?_, fun _ _ _ _ h => ?_,
      fun _ _ h => ?_, fun _ _ _ h => ?_⟩ ?_))
  · cases j
    · cases htask
      refine ⟨fun hopens => ?_, not_mem_nil⟩
      cases hopens
    · cases htask
  · cases h
  · cases h
  · cases h
  · cases h
  · cases h
  · cases j
    · cases htask
      rfl
    · cases htask
  · cases h
  · cases h
  · cases h
  · refine Run.allowed_cons (hok rfl (fun _ _ h => ?_) fun _ _ h => ?_) <|
      Run.allowed_cons (hok rfl (fun _ _ h => ?_) fun _ _ h => ?_) <|
      Run.allowed_cons (hok rfl (fun _ _ h => ?_) fun _ _ h => ?_) <|
      Run.allowed_cons (hok rfl (fun _ _ h => ?_) fun _ _ h => ?_) <|
      Run.allowed_cons (hok rfl (fun _ _ h => ?_) fun _ _ h => ?_) <|
      Run.allowed_cons (hok rfl (fun _ _ h => ?_) fun _ _ h => ?_) <|
      Run.allowed_cons (hok rfl (fun _ _ h => ?_) fun _ _ h => ?_) <|
      Run.allowed_cons (hok rfl (fun _ _ h => ?_) fun _ _ h => ?_) <|
      Run.allowed_cons (hok rfl (fun _ _ h => ?_) fun _ _ h => ?_) <|
      Run.allowed_cons (hok rfl (fun _ _ h => ?_) fun _ _ h => ?_) <| Run.allowed_nil _ _ _
    all_goals cases h

theorem sessions_kept_opened :
    (Run.run (step true) {} openedRun).Lawful ∧
      (Run.run (step true) {} openedRun).live 0 = some ⟨"chat", true⟩ ∧
      (Run.run (step true) {} openedRun).active.get "chat" = some ⟨0, true, 0⟩ :=
  ⟨(sessions_kept openedRun_serial openedRun [] (append_nil _).symm).1, by decide, by decide⟩

/-- The provider creates a session, and the connection to it is rejected. -/
def rejectedRun : List Label :=
  [.open "chat" none, .advance 0 {}, .advance 0 {}, .advance 0 {}, .advance 0 { failed := true }]

/-- The session stays live, and nothing knows of it. -/
theorem rejected_unlawful : ¬ ∀ labels, (Run.run (step true) {} labels).Lawful := by
  intro h
  have hlive : (Run.run (step true) {} rejectedRun).live 0 = some ⟨"chat", true⟩ := by decide
  have hactive : (Run.run (step true) {} rejectedRun).active.get "chat" = none := by decide
  rcases (h rejectedRun).recorded 0 _ hlive with ⟨active, hget, -⟩ | ⟨i, task, session, htask, -, -⟩
  · cases hactive.symm.trans hget
  · cases i <;> cases htask

end CrabbyKit.Browser.Manager
