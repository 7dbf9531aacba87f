import CrabbyKit.Browser.Sessions
import CrabbyKit.Core.Table
import Mathlib.Algebra.Order.Ring.Unbundled.Rat

/-!
# The cookie jar

`mergeCookies` of `cookie-merge.ts`, and the cookies that `SessionManager` saves when a session is
closed and sets when one is opened. A save reads the jar, and writes it in a step of its own.
-/

namespace CrabbyKit.Browser

open List Function

/-- `Cookie`; its other fields pass through unread. -/
structure Cookie where
  name : String
  value : String
  domain : String
  path : String
  expires : ℚ
  deriving DecidableEq, Repr

namespace Cookie

def identity (c : Cookie) : String × String × String := (c.domain, c.path, c.name)

/-- What the last filter of `mergeCookies` keeps. -/
def Live (now : Instant) (c : Cookie) : Prop := c.expires ≤ 0 ∨ (now : ℚ) / 1000 < c.expires
  deriving Decidable

end Cookie

def cookieKey (c : Cookie) : String := c.domain ++ "|" ++ c.path ++ "|" ++ c.name

/-- One round of the loop over the incoming cookies. -/
def overlay (map : List Cookie) (c : Cookie) : List Cookie :=
  match Table.lookup cookieKey map (cookieKey c) with
  | none => Table.set cookieKey c map
  | some existing => if c.expires > existing.expires then Table.set cookieKey c map else map

def mergeCookies (now : Instant) (stored incoming : List Cookie) : List Cookie :=
  let map := stored.foldl (fun map c => Table.set cookieKey c map) []
  (incoming.foldl overlay map).filter (Cookie.Live now)

def settle (key : String) (old : Option Cookie) (c : Cookie) : Option Cookie :=
  if cookieKey c = key then
    match old with
    | none => some c
    | some existing => if c.expires > existing.expires then some c else some existing
  else old

theorem lookup_overlay (map : List Cookie) (c : Cookie) (key : String) :
    Table.lookup cookieKey (overlay map c) key = settle key (Table.lookup cookieKey map key) c := by
  unfold overlay settle
  by_cases hkey : cookieKey c = key
  · subst hkey
    rw [if_pos rfl]
    cases hold : Table.lookup cookieKey map (cookieKey c) with
    | none => exact (Table.lookup_set c _).trans (if_pos rfl)
    | some existing =>
      dsimp only
      split_ifs
      · exact (Table.lookup_set c _).trans (if_pos rfl)
      · exact hold
  · have hset : Table.lookup cookieKey (Table.set cookieKey c map) key =
        Table.lookup cookieKey map key := (Table.lookup_set c key).trans (if_neg (Ne.symm hkey))
    rw [if_neg hkey]
    split
    · exact hset
    · split_ifs
      · exact hset
      · rfl

theorem nodup_overlay {map : List Cookie} (hn : (map.map cookieKey).Nodup) (c : Cookie) :
    ((overlay map c).map cookieKey).Nodup := by
  unfold overlay
  split
  · exact Table.nodup_set hn c
  · split_ifs
    · exact Table.nodup_set hn c
    · exact hn

theorem foldl_overlay {map : List Cookie} (hn : (map.map cookieKey).Nodup)
    (incoming : List Cookie) : ((incoming.foldl overlay map).map cookieKey).Nodup ∧ ∀ key,
      Table.lookup cookieKey (incoming.foldl overlay map) key =
        incoming.foldl (settle key) (Table.lookup cookieKey map key) := by
  induction incoming generalizing map with
  | nil => exact ⟨hn, fun _ => rfl⟩
  | cons c incoming ih =>
    refine ⟨(ih (nodup_overlay hn c)).1, fun key => ?_⟩
    rw [foldl_cons, (ih (nodup_overlay hn c)).2 key, lookup_overlay, foldl_cons]

theorem mergeCookies_spec {stored : List Cookie} (hn : (stored.map cookieKey).Nodup) (now : Instant)
    (incoming : List Cookie) :
    ((mergeCookies now stored incoming).map cookieKey).Nodup ∧ ∀ key,
      Table.lookup cookieKey (mergeCookies now stored incoming) key =
        (incoming.foldl (settle key) (Table.lookup cookieKey stored key)).filter
          fun c => c.Live now := by
  have hmap : stored.foldl (fun map c => Table.set cookieKey c map) [] = stored :=
    Table.foldl_set [] hn
  obtain ⟨hnodup, hlookup⟩ := foldl_overlay hn incoming
  unfold mergeCookies
  simp only [hmap]
  refine ⟨hnodup.sublist (filter_sublist.map _), fun key => ?_⟩
  rw [Table.lookup_filter hnodup, hlookup]

/-- What an operation has read: the cookies of its browser, and the jar. -/
structure Reading where
  incoming : List Cookie := []
  stored : List Cookie := []
  now : Instant := 0

/-- The cookies that a close has merged into the jar. -/
structure Save where
  now : Instant
  incoming : List Cookie
  deriving DecidableEq

/-- A cookie that a closed session held, unexpired in its save and in each since; with the cookies
saved before and after it. -/
inductive Held (c : Cookie) : List Save → List Cookie → List Cookie → Prop
  | mk (before after : List Save) (save : Save) (front back : List Cookie)
      (hsave : save.incoming = front ++ c :: back)
      (hlive : ∀ later ∈ save :: after, c.Live later.now) :
      Held c (before ++ save :: after) (before.flatMap Save.incoming ++ front)
        (back ++ after.flatMap Save.incoming)

def Save.settle (key : String) (old : Option Cookie) (save : Save) : Option Cookie :=
  (save.incoming.foldl (Browser.settle key) old).filter fun c => c.Live save.now

variable {key : String} {c d : Cookie} {old : Option Cookie}

/-- The stored cookie, if any, expires before `c`. -/
def Under (c : Cookie) (old : Option Cookie) : Prop := ∀ d, old = some d → d.expires < c.expires

theorem Under.settle (h : Under c old) (hd : cookieKey d = key → d.expires < c.expires) :
    Under c (settle key old d) := by
  intro e he
  unfold Browser.settle at he
  split_ifs at he with hkey
  · cases old with
    | none => exact Option.some.inj he ▸ hd hkey
    | some existing =>
      dsimp only at he
      split_ifs at he
      · exact Option.some.inj he ▸ hd hkey
      · exact h e he
  · exact h e he

theorem Under.foldl {incoming : List Cookie} (h : Under c old)
    (hall : ∀ d ∈ incoming, cookieKey d = key → d.expires < c.expires) :
    Under c (incoming.foldl (Browser.settle key) old) := by
  induction incoming generalizing old with
  | nil => exact h
  | cons d incoming ih =>
    exact ih (h.settle (hall d mem_cons_self)) fun e he => hall e (mem_cons_of_mem d he)

theorem Under.saves {saves : List Save} (h : Under c old)
    (hall : ∀ d ∈ saves.flatMap Save.incoming, cookieKey d = key → d.expires < c.expires) :
    Under c (saves.foldl (Save.settle key) old) := by
  induction saves generalizing old with
  | nil => exact h
  | cons save saves ih =>
    rw [flatMap_cons] at hall
    refine ih (fun e he => ?_) fun e he => hall e (mem_append_right _ he)
    exact h.foldl (fun d hd => hall d (mem_append_left _ hd)) e
      (Option.eq_some_of_filter_eq_some he)

theorem settle_under (h : Under c old) : settle (cookieKey c) old c = some c := by
  unfold settle
  rw [if_pos rfl]
  cases old with
  | none => rfl
  | some existing => exact if_pos (h existing rfl)

theorem foldl_settle_of_le {incoming : List Cookie}
    (hall : ∀ d ∈ incoming, cookieKey d = key → d.expires ≤ c.expires) :
    incoming.foldl (settle key) (some c) = some c := by
  induction incoming with
  | nil => rfl
  | cons d incoming ih =>
    have hd : settle key (some c) d = some c := by
      unfold settle
      split_ifs with hkey
      · exact if_neg (not_lt.mpr (hall d mem_cons_self hkey))
      · rfl
    rw [foldl_cons, hd]
    exact ih fun e he => hall e (mem_cons_of_mem d he)

theorem saves_of_le {saves : List Save} (hlive : ∀ save ∈ saves, c.Live save.now)
    (hall : ∀ d ∈ saves.flatMap Save.incoming, cookieKey d = key → d.expires ≤ c.expires) :
    saves.foldl (Save.settle key) (some c) = some c := by
  induction saves with
  | nil => rfl
  | cons save saves ih =>
    rw [flatMap_cons] at hall
    have hsave : save.settle key (some c) = some c := by
      rw [Save.settle, foldl_settle_of_le fun d hd => hall d (mem_append_left _ hd)]
      exact Option.filter_some_pos (decide_eq_true (hlive save mem_cons_self))
    rw [foldl_cons, hsave]
    exact ih (fun later h => hlive later (mem_cons_of_mem _ h)) fun d hd =>
      hall d (mem_append_right _ hd)

theorem Held.settled {saves : List Save} {earlier later : List Cookie}
    (h : Held c saves earlier later)
    (hearlier : ∀ d ∈ earlier, cookieKey d = cookieKey c → d.expires < c.expires)
    (hlater : ∀ d ∈ later, cookieKey d = cookieKey c → d.expires ≤ c.expires) :
    saves.foldl (Save.settle (cookieKey c)) none = some c := by
  obtain ⟨before, after, save, front, back, hsave, hlive⟩ := h
  have hbefore : Under c (before.foldl (Save.settle (cookieKey c)) none) := by
    refine Under.saves (fun d hd => ?_) fun d hd => hearlier d (mem_append_left _ hd)
    cases hd
  have hfront := hbefore.foldl fun d hd => hearlier d (mem_append_right _ hd)
  have hown :
      save.settle (cookieKey c) (before.foldl (Save.settle (cookieKey c)) none) = some c := by
    rw [Save.settle, hsave, foldl_append, foldl_cons, settle_under hfront,
      foldl_settle_of_le fun d hd => hlater d (mem_append_left _ hd)]
    exact Option.filter_some_pos (decide_eq_true (hlive save mem_cons_self))
  rw [foldl_append, foldl_cons, hown]
  exact saves_of_le (fun s hs => hlive s (mem_cons_of_mem _ hs)) fun d hd =>
    hlater d (mem_append_right _ hd)

/-- The manager with the jar under `BROWSER_STATE_KEY`, what its operations have read, the cookies
set in each remote session, and the saves in their order. -/
structure Browsers where
  manager : Manager := {}
  jar : List Cookie := []
  readings : Nat → Reading := fun _ => {}
  restored : Nat → Option (List Cookie) := fun _ => none
  saves : List Save := []

/-- A step, with the cookies that `Network.getCookies` brings in it. -/
structure Event where
  label : Label
  cookies : List Cookie := []

namespace Browsers

/-- What the await that operation `i` is at does with cookies. -/
def await (s : Browsers) (i : Nat) (answer : HostAnswer) (cookies : List Cookie) :
    Option Task → Browsers
  | some (.saving _ _ (.getCookies :: _)) =>
    if answer.failed then s
    else { s with readings := update s.readings i { s.readings i with incoming := cookies } }
  | some (.saving _ _ (.readState :: _)) =>
    { s with
      readings := update s.readings i { s.readings i with stored := s.jar, now := answer.now } }
  | some (.saving _ _ (.putState :: _)) =>
    let reading := s.readings i
    { s with
      jar := mergeCookies reading.now reading.stored reading.incoming
      saves := s.saves ++ [⟨reading.now, reading.incoming⟩] }
  | some (.opening _ _ (.readState :: _)) =>
    { s with readings := update s.readings i { s.readings i with stored := s.jar } }
  | some (.opening _ session (.setCookies :: _)) =>
    if answer.failed then s
    else
      { s with
        restored := update s.restored session.browserbaseId (some (s.readings i).stored) }
  | _ => s

/-- One step; whether cookies are stored is read off the jar. -/
def step (contextId : Bool) (s : Browsers) (e : Event) : Browsers :=
  match e.label with
  | .advance i answer =>
    { s.await i answer e.cookies (s.manager.tasks i) with
      manager := Browser.step contextId s.manager
        (.advance i { answer with cookies := !s.jar.isEmpty }) }
  | label => { s with manager := Browser.step contextId s.manager label }

variable {s : Browsers} {e : Event} {contextId : Bool}

def saved (s : Browsers) (e : Event) : Option Reading :=
  match e.label with
  | .advance i _ =>
    match s.manager.tasks i with
    | some (.saving _ _ (.putState :: _)) => some (s.readings i)
    | _ => none
  | _ => none

def Whole (s : Browsers) (e : Event) : Prop := ∀ reading ∈ s.saved e, reading.stored = s.jar

instance : Decidable (Whole s e) := inferInstanceAs (Decidable (∀ _ ∈ _, _))

theorem step_saves (contextId : Bool) (h : Whole s e) :
    ((step contextId s e).jar = s.jar ∧ (step contextId s e).saves = s.saves) ∨
      ∃ save : Save, (step contextId s e).jar = mergeCookies save.now s.jar save.incoming ∧
        (step contextId s e).saves = s.saves ++ [save] := by
  obtain ⟨label, cookies⟩ := e
  cases label with
  | advance i answer =>
    simp only [Whole, saved] at h
    simp only [step]
    generalize s.manager.tasks i = task at h ⊢
    unfold await
    split
    · split_ifs
      · exact .inl ⟨rfl, rfl⟩
      · exact .inl ⟨rfl, rfl⟩
    · exact .inl ⟨rfl, rfl⟩
    · refine .inr ⟨⟨(s.readings i).now, (s.readings i).incoming⟩, ?_, rfl⟩
      exact congrArg (mergeCookies _ · _) (h _ rfl)
    · exact .inl ⟨rfl, rfl⟩
    · split_ifs
      · exact .inl ⟨rfl, rfl⟩
      · exact .inl ⟨rfl, rfl⟩
    · exact .inl ⟨rfl, rfl⟩
  | _ => exact .inl ⟨rfl, rfl⟩

/-- The jar is, key by key, what the saves leave. -/
structure Settled (s : Browsers) : Prop where
  nodup : (s.jar.map cookieKey).Nodup
  lookup : ∀ key, Table.lookup cookieKey s.jar key = s.saves.foldl (Save.settle key) none

theorem settled_step (hs : s.Settled) (h : Whole s e) : (step contextId s e).Settled := by
  rcases step_saves contextId h with ⟨hjar, hsaves⟩ | ⟨save, hjar, hsaves⟩
  · refine ⟨hjar ▸ hs.nodup, fun key => ?_⟩
    rw [hjar, hsaves, hs.lookup]
  · obtain ⟨hnodup, hlookup⟩ := mergeCookies_spec hs.nodup save.now save.incoming
    refine ⟨hjar ▸ hnodup, fun key => ?_⟩
    rw [hjar, hsaves, hlookup, hs.lookup, foldl_append, foldl_cons, foldl_nil, Save.settle]

/-- Operation `i`, an open that has just read this jar, sets its cookies, whatever happens until it
does. -/
def Restores (contextId : Bool) (i : Nat) (chat : String) (session : ActiveSession)
    (rest : List Await) (jar : List Cookie) (read : Browsers) : Prop :=
  (jar ≠ [] → read.manager.tasks i = some (.opening chat session (.setCookies :: rest))) ∧
  ∀ others, (∀ e ∈ others, ∀ answer, e.label ≠ .advance i answer) →
    (Run.run (step contextId) read others).manager.tasks i =
      some (.opening chat session (.setCookies :: rest)) →
    ∀ answer, answer.failed = false →
      (step contextId (Run.run (step contextId) read others)
        ⟨.advance i answer, []⟩).restored session.browserbaseId = some jar

/-- What the jar holds, and what an open that does not use the context sets. -/
structure Keeps (contextId : Bool) (s : Browsers) : Prop where
  nodup : (s.jar.map cookieKey).Nodup
  /-- One cookie of each identity, the first of those that expire last. -/
  held : ∀ c earlier later, Held c s.saves earlier later →
    (∀ d ∈ earlier ++ later, cookieKey d = cookieKey c → d.identity = c.identity) →
    (∀ d ∈ earlier, d.identity = c.identity → d.expires < c.expires) →
    (∀ d ∈ later, d.identity = c.identity → d.expires ≤ c.expires) →
    (s.jar.filter fun d => d.identity = c.identity) = [c]
  reads : ∀ url useContext, .readState ∈ setup url useContext ↔ useContext = false
  restored : ∀ i chat session rest,
    s.manager.tasks i = some (.opening chat session (.readState :: rest)) → ∀ answer cookies,
      Restores contextId i chat session rest s.jar (step contextId s ⟨.advance i answer, cookies⟩)

theorem step_readings {i : Nat} (h : ∀ answer, e.label ≠ .advance i answer) :
    (step contextId s e).readings i = s.readings i := by
  obtain ⟨label, cookies⟩ := e
  cases label with
  | advance j answer =>
    have hij : i ≠ j := by
      rintro rfl
      exact h answer rfl
    simp only [step]
    generalize s.manager.tasks j = task
    unfold await
    split
    · split_ifs
      · rfl
      · exact update_of_ne hij _ _
    · exact update_of_ne hij _ _
    · rfl
    · exact update_of_ne hij _ _
    · split_ifs
      · rfl
      · rfl
    · rfl
  | _ => rfl

theorem run_readings {i : Nat} {events : List Event}
    (h : ∀ e ∈ events, ∀ answer, e.label ≠ .advance i answer) :
    (Run.run (step contextId) s events).readings i = s.readings i := by
  induction events generalizing s with
  | nil => rfl
  | cons e events ih =>
    exact (ih fun d hd => h d (mem_cons_of_mem e hd)).trans (step_readings (h e mem_cons_self))

theorem opening_restores {i : Nat} {chat : String} {session : ActiveSession} {rest : List Await}
    (htask : s.manager.tasks i = some (.opening chat session (.readState :: rest)))
    (answer : HostAnswer) (cookies : List Cookie) :
    Restores contextId i chat session rest s.jar
      (step contextId s ⟨.advance i answer, cookies⟩) := by
  refine ⟨fun hjar => ?_, fun others hothers hset answer' hanswer => ?_⟩
  · obtain ⟨c, jar, hcons⟩ := exists_cons_of_ne_nil hjar
    simp [step, Browser.step, htask, Manager.advance, Manager.openStep, Await.fallible,
      Manager.afterAwait, Manager.goOn, hcons]
  · have hread : ((Run.run (step contextId) (step contextId s ⟨.advance i answer, cookies⟩)
        others).readings i).stored = s.jar := by
      rw [run_readings hothers]
      simp [step, htask, await]
    generalize Run.run (step contextId) _ others = t at hset hread ⊢
    simp [step, hset, await, hanswer, hread]

theorem readState_mem_setup (url : Option String) (useContext : Bool) :
    .readState ∈ setup url useContext ↔ useContext = false := by
  have hnavigating : ∀ target, Await.readState ∉ navigating target := by
    intro target
    unfold navigating
    split_ifs <;> simp
  cases useContext <;> cases url <;> simp [setup, connecting, hnavigating]

theorem Settled.keeps (h : s.Settled) : s.Keeps contextId where
  nodup := h.nodup
  held := by
    intro c earlier later hheld hkey hearlier hlater
    have hlookup : Table.lookup cookieKey s.jar (cookieKey c) = some c := by
      rw [h.lookup]
      refine hheld.settled (fun d hd hdc => hearlier d hd (hkey d ?_ hdc))
        fun d hd hdc => hlater d hd (hkey d ?_ hdc)
      · exact mem_append_left _ hd
      · exact mem_append_right _ hd
    refine Table.filter_eq_singleton h.nodup (Table.mem_of_lookup hlookup).1 (decide_eq_true rfl) ?_
    intro d _ hd
    simp only [Cookie.identity, decide_eq_true_eq, Prod.mk.injEq] at hd
    rw [cookieKey, cookieKey, hd.1, hd.2.1, hd.2.2]
  reads := readState_mem_setup
  restored := fun _ _ _ _ htask answer cookies => opening_restores htask answer cookies

/-- In every run whose saves are whole, the jar keeps the cookie of each identity that expires last,
and an open without the context sets the jar. -/
theorem jar_keeps {contextId : Bool} {events : List Event}
    (h : Run.Allowed Whole (step contextId) {} events) :
    (Run.run (step contextId) {} events).Keeps contextId :=
  have hstart : Settled {} := ⟨nodup_nil, fun _ => rfl⟩
  (Run.invariant_of_allowed hstart (fun _ _ hs he => settled_step hs he) h events []
    (append_nil _).symm).keeps

def sid (value : String) : Cookie := ⟨"sid", value, "app.test", "/", -1⟩

def advances (i n : Nat) (cookies : List Cookie) : List Event :=
  replicate n ⟨.advance i {}, cookies⟩

def rewrittenRun : List Event :=
  ⟨.open "chat" none, []⟩ :: advances 0 13 [] ++ ⟨.close "chat", []⟩ :: advances 1 8 [sid "1"] ++
    ⟨.open "chat" none, []⟩ :: advances 2 14 [] ++ ⟨.close "chat", []⟩ :: advances 3 8 [sid "2"]

theorem jar_keeps_rewritten :
    (Run.run (step false) {} rewrittenRun).Keeps false ∧
      (Run.run (step false) {} rewrittenRun).jar = [sid "1"] ∧
      (Run.run (step false) {} rewrittenRun).restored 1 = some [sid "1"] :=
  ⟨jar_keeps (by decide +kernel), by decide +kernel, by decide +kernel⟩

/-- The jar has the cookie of each identity as the last session that had it left it. -/
def KeepsLast (s : Browsers) : Prop :=
  ∀ c earlier later, Held c s.saves earlier later → (∀ d ∈ later, d.identity ≠ c.identity) →
    (s.jar.filter fun d => d.identity = c.identity).map Cookie.value = [c.value]

/-- A site gives a session cookie a new value; the old one stays in the jar. -/
theorem rewritten_not_keepsLast :
    ¬ ∀ contextId events, (Run.run (step contextId) {} events).KeepsLast := by
  intro h
  have hsaves : (Run.run (step false) {} rewrittenRun).saves =
      [⟨0, [sid "1"]⟩] ++ ⟨0, [sid "2"]⟩ :: [] := by decide +kernel
  have hheld : Held (sid "2") (Run.run (step false) {} rewrittenRun).saves [sid "1"] [] := by
    rw [hsaves]
    refine .mk [⟨0, [sid "1"]⟩] [] ⟨0, [sid "2"]⟩ [] [] rfl fun later hlater => ?_
    rw [mem_singleton.mp hlater]
    decide +kernel
  have hjar : (Run.run (step false) {} rewrittenRun).jar = [sid "1"] := by decide +kernel
  have hvalue := h false rewrittenRun (sid "2") _ _ hheld (by simp)
  rw [hjar] at hvalue
  revert hvalue
  decide +kernel

end Browsers

end CrabbyKit.Browser
