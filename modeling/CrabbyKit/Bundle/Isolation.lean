import CrabbyKit.Bundle.Dispatch

/-!
# Whose token an isolate carries

A dispatch is served under its own token exactly when the loader calls its factory: an isolate
that was made before carries the token and the mode of the dispatch that made it.
-/

namespace CrabbyKit.Bundle

open List

theorem mintToken_spec (now : Instant) (nonce : Nat) (agentId : String) (scope : List String)
    (request : Request) :
    (∀ sessionId, request.session = some sessionId →
        (mintToken now nonce (request.mintOptions agentId scope)).sid = some sessionId) ∧
      (mintToken now nonce (request.mintOptions agentId scope)).exp = now + defaultTtlMs := by
  refine ⟨fun sessionId hsession => ?_, ?_⟩
  · cases request with
    | http session =>
      obtain rfl : session = some sessionId := hsession
      rfl
    | _ => exact hsession
  · cases request <;> rfl

theorem Env.get_append (env extras : Env) (key : String) :
    Env.get (env ++ extras) key = (Env.get extras key).or (Env.get env key) := by
  simp only [Env.get, reverse_append, find?_append]
  cases extras.reverse.find? fun entry => entry.1 = key with
  | none => rfl
  | some entry => rfl

theorem buildLoaderConfigGetter_env (host : Host) (versionId : String) (token : TokenPayload)
    (activeMode : Option Mode) (payload : BundlePayload) :
    let config := buildLoaderConfigGetter host versionId token
      (activeMode.toList.map fun mode => ("__BUNDLE_ACTIVE_MODE", .activeMode mode)) payload
    config.env.get "__BUNDLE_TOKEN" = some (.token token) ∧
      config.env.get "__BUNDLE_ACTIVE_MODE" =
        (activeMode.map EnvValue.activeMode).or (host.bundleEnv.get "__BUNDLE_ACTIVE_MODE") := by
  obtain ⟨agentId, bundleEnv, publicUrl, modes⟩ := host
  simp only [buildLoaderConfigGetter, composeWorkerLoaderConfig, Env.get_append]
  rcases publicUrl with _ | url
  · cases activeMode with
    | none => exact ⟨rfl, rfl⟩
    | some mode => exact ⟨rfl, rfl⟩
  · by_cases hurl : url.isEmpty = true
    · simp only [hurl, if_true]
      cases activeMode with
      | none => exact ⟨rfl, rfl⟩
      | some mode => exact ⟨rfl, rfl⟩
    · simp only [hurl, if_false, Bool.false_eq_true]
      cases activeMode with
      | none => exact ⟨rfl, rfl⟩
      | some mode => exact ⟨rfl, rfl⟩

theorem loaderConfig_env (host : Host) (versionId : String) (token : TokenPayload)
    (activeMode : Option Mode) (payload : BundlePayload) {request : Request}
    (hmode : activeMode ≠ none → ∃ sessionId, request = .prompt sessionId) :
    let config := request.loaderConfig host versionId token activeMode payload
    config.env.get "__BUNDLE_TOKEN" = some (.token token) ∧
      config.env.get "__BUNDLE_ACTIVE_MODE" =
        (activeMode.map EnvValue.activeMode).or (host.bundleEnv.get "__BUNDLE_ACTIVE_MODE") := by
  by_cases hprompt : ∃ sessionId, request = .prompt sessionId
  · obtain ⟨sessionId, rfl⟩ := hprompt
    exact buildLoaderConfigGetter_env host versionId token activeMode payload
  · obtain rfl : activeMode = none := by
      by_contra hne
      exact hprompt (hmode hne)
    have hplain := buildLoaderConfigGetter_env host versionId token none payload
    cases request with
    | prompt sessionId => exact absurd ⟨sessionId, rfl⟩ hprompt
    | turn sessionId => simp only [Request.loaderConfig, Env.get_append]; exact ⟨rfl, rfl⟩
    | clientEvent sessionId =>
      simp only [Request.loaderConfig, composeWorkerLoaderConfig, Env.get_append]
      exact ⟨rfl, rfl⟩
    | _ => exact hplain

def Phase.minted? : Phase → Option (TokenPayload × Instant)
  | .minted token mintedAt | .ready token mintedAt _ | .served token mintedAt _ _ =>
    some (token, mintedAt)
  | _ => none

def Phase.isServed : Phase → Bool
  | .served .. => true
  | _ => false

/-- The isolate that serves a dispatch sees the token of the dispatch, bound to its session and
with its expiry, and the mode that the dispatch has resolved. -/
def Dispatch.Isolated (d : Dispatch) : Prop :=
  match d.phase with
  | .served token mintedAt activeMode env =>
    (∀ sessionId, d.request.session = some sessionId → token.sid = some sessionId) ∧
      token.exp = mintedAt + defaultTtlMs ∧ env.get "__BUNDLE_TOKEN" = some (.token token) ∧
      env.get "__BUNDLE_ACTIVE_MODE" = activeMode.map EnvValue.activeMode
  | _ => True

def BundleAgent.Isolated (s : BundleAgent) : Prop := ∀ d ∈ s.dispatches, d.Isolated

/-- The loader calls the factory of a dispatch, and when the dispatch has no mode, the
deployment projects none. -/
def OwnIsolate (host : Host) (s : BundleAgent) : DispatchEvent → Prop
  | .load i isolate => ∀ (d : Dispatch) token mintedAt activeMode, s.dispatches[i]? = some d →
      d.phase = .ready token mintedAt activeMode →
        s.reused d.versionId isolate = none ∧
          (s.bytes d.versionId ≠ none → activeMode = none →
            host.bundleEnv.get "__BUNDLE_ACTIVE_MODE" = none)
  | _ => True

/-- Tokens have their own nonces, and every isolate carries the token of a dispatch that it
serves. -/
structure BundleAgent.Accounted (s : BundleAgent) : Prop where
  minted : ∀ i (d : Dispatch) (token : TokenPayload) mintedAt, s.dispatches[i]? = some d →
    d.phase.minted? = some (token, mintedAt) → token.nonce = i ∧
      (∀ sessionId, d.request.session = some sessionId → token.sid = some sessionId) ∧
      token.exp = mintedAt + defaultTtlMs
  modes : ∀ d ∈ s.dispatches, ∀ token mintedAt activeMode,
    d.phase = .ready token mintedAt activeMode → activeMode ≠ none →
      ∃ sessionId, d.request = .prompt sessionId
  captured : ∀ isolate ∈ s.isolates, ∃ token : TokenPayload,
    isolate.config.env.get "__BUNDLE_TOKEN" = some (.token token) ∧
      ∃ d, s.dispatches[token.nonce]? = some d ∧ d.phase.isServed = true

namespace BundleAgent

section Update

variable {s : BundleAgent} {i : Nat} {d : Dispatch} {phase : Phase}

theorem lt_of_dispatch (hd : s.dispatches[i]? = some d) : i < s.dispatches.length :=
  (List.getElem?_eq_some_iff.mp hd).1

theorem getElem?_update (hd : s.dispatches[i]? = some d) (j : Nat) :
    (s.update i d phase).dispatches[j]? =
      if i = j then some { d with phase := phase } else s.dispatches[j]? := by
  rw [update, getElem?_set']
  by_cases hij : i = j
  · subst hij
    rw [if_pos rfl, if_pos rfl, hd]
    rfl
  · rw [if_neg hij, if_neg hij]

theorem isolated_update (hd : s.dispatches[i]? = some d) (hs : s.Isolated) :
    (s.update i d phase).Isolated ↔ Dispatch.Isolated { d with phase := phase } := by
  constructor
  · intro h
    refine h _ (mem_of_getElem? (i := i) ?_)
    rw [getElem?_update hd, if_pos rfl]
  · intro h d' hd'
    obtain ⟨j, hj⟩ := mem_iff_getElem?.mp hd'
    rw [getElem?_update hd] at hj
    by_cases hij : i = j
    · rw [if_pos hij] at hj
      cases hj
      exact h
    · rw [if_neg hij] at hj
      exact hs d' (mem_of_getElem? hj)

theorem Accounted.update (hs : s.Accounted) (hd : s.dispatches[i]? = some d)
    (hopen : d.phase.isServed = false)
    (hminted : ∀ token mintedAt, phase.minted? = some (token, mintedAt) → token.nonce = i ∧
      (∀ sessionId, d.request.session = some sessionId → token.sid = some sessionId) ∧
      token.exp = mintedAt + defaultTtlMs)
    (hmode : ∀ token mintedAt activeMode, phase = .ready token mintedAt activeMode →
      activeMode ≠ none → ∃ sessionId, d.request = .prompt sessionId) :
    (s.update i d phase).Accounted where
  minted := by
    intro j d' token mintedAt hj hphase
    rw [getElem?_update hd] at hj
    by_cases hij : i = j
    · rw [if_pos hij] at hj
      cases hj
      exact hij ▸ hminted token mintedAt hphase
    · rw [if_neg hij] at hj
      exact hs.minted j d' token mintedAt hj hphase
  modes := by
    intro d' hd' token mintedAt activeMode hphase hne
    obtain ⟨j, hj⟩ := mem_iff_getElem?.mp hd'
    rw [getElem?_update hd] at hj
    by_cases hij : i = j
    · rw [if_pos hij] at hj
      cases hj
      exact hmode token mintedAt activeMode hphase hne
    · rw [if_neg hij] at hj
      exact hs.modes d' (mem_of_getElem? hj) token mintedAt activeMode hphase hne
  captured := by
    intro isolate hisolate
    obtain ⟨token, htoken, d', hd', hserved⟩ := hs.captured isolate hisolate
    refine ⟨token, htoken, d', ?_, hserved⟩
    rw [getElem?_update hd, if_neg ?_, hd']
    rintro rfl
    rw [hd] at hd'
    cases hd'
    rw [hopen] at hserved
    cases hserved

theorem Accounted.addIsolate (hs : s.Accounted) {isolate : Isolate} {token : TokenPayload}
    (htoken : isolate.config.env.get "__BUNDLE_TOKEN" = some (.token token))
    (hserved : ∃ d, s.dispatches[token.nonce]? = some d ∧ d.phase.isServed = true) :
    ({ s with isolates := s.isolates ++ [isolate] } : BundleAgent).Accounted where
  minted := hs.minted
  modes := hs.modes
  captured := by
    intro found hfound
    rcases mem_append.mp hfound with hold | hnew
    · exact hs.captured found hold
    · obtain rfl := mem_singleton.mp hnew
      exact ⟨token, htoken, hserved⟩

theorem Accounted.start (hs : s.Accounted) (request : Request) (versionId : String) :
    ({ s with dispatches := s.dispatches ++ [⟨request, versionId, .started⟩] } :
      BundleAgent).Accounted where
  minted := by
    intro j d' token mintedAt hj hphase
    rcases mem_append.mp (mem_of_getElem? hj) with hold | hnew
    · by_cases hlt : j < s.dispatches.length
      · rw [getElem?_append_left hlt] at hj
        exact hs.minted j d' token mintedAt hj hphase
      · rw [getElem?_append_right (by omega)] at hj
        obtain rfl := mem_singleton.mp (mem_of_getElem? hj)
        cases hphase
    · obtain rfl := mem_singleton.mp hnew
      cases hphase
  modes := by
    intro d' hd' token mintedAt activeMode hphase hne
    rcases mem_append.mp hd' with hold | hnew
    · exact hs.modes d' hold token mintedAt activeMode hphase hne
    · obtain rfl := mem_singleton.mp hnew
      cases hphase
  captured := by
    intro isolate hisolate
    obtain ⟨token, htoken, d', hd', hserved⟩ := hs.captured isolate hisolate
    refine ⟨token, htoken, d', ?_, hserved⟩
    rw [getElem?_append_left (lt_of_dispatch hd'), hd']

end Update

section Step

variable (host : Host) {s : BundleAgent}

variable {token : TokenPayload} {mintedAt : Instant} {activeMode : Option Mode}

theorem Accounted.ready (hs : s.Accounted) {i : Nat} {d : Dispatch} (hd : s.dispatches[i]? = some d)
    (hphase : d.phase = .ready token mintedAt activeMode) :
    token.nonce = i ∧
      (∀ sessionId, d.request.session = some sessionId → token.sid = some sessionId) ∧
      token.exp = mintedAt + defaultTtlMs :=
  hs.minted i d token mintedAt hd (by rw [hphase]; rfl)

theorem load_spec (hs : s.Accounted) {i : Nat} {d : Dispatch} (hd : s.dispatches[i]? = some d)
    (hphase : d.phase = .ready token mintedAt activeMode) (isolate : Option Nat) :
    (s.load host i d token mintedAt activeMode isolate).Accounted ∧
      (s.Isolated → ((s.load host i d token mintedAt activeMode isolate).Isolated ↔
        s.reused d.versionId isolate = none ∧ (s.bytes d.versionId ≠ none → activeMode = none →
          host.bundleEnv.get "__BUNDLE_ACTIVE_MODE" = none))) := by
  have hready := hs.ready hd hphase
  have hopen : d.phase.isServed = false := by rw [hphase]; rfl
  have hserve : ∀ env, (s.update i d (.served token mintedAt activeMode env)).Accounted := by
    intro env
    refine hs.update hd hopen ?_ fun _ _ _ h => by cases h
    intro token' mintedAt' h
    cases h
    exact hready
  unfold load
  cases hreused : s.reused d.versionId isolate with
  | some found =>
    refine ⟨hserve _, fun hisolated => ?_⟩
    simp only [reduceCtorEq, false_and, iff_false]
    rw [isolated_update hd hisolated]
    rintro ⟨-, -, htoken, -⟩
    -- the token of the isolate belongs to a dispatch that is served already
    have hmem : found ∈ s.isolates := by
      obtain ⟨hsome, -⟩ := Option.filter_eq_some_iff.mp hreused
      obtain ⟨k, -, hk⟩ := Option.bind_eq_some_iff.mp hsome
      exact mem_of_getElem? hk
    obtain ⟨token', htoken', d', hd', hserved⟩ := hs.captured found hmem
    rw [htoken'] at htoken
    cases htoken
    rw [hready.1, hd] at hd'
    cases hd'
    rw [hopen] at hserved
    cases hserved
  | none =>
    simp only
    cases hbytes : s.bytes d.versionId with
    | none =>
      refine ⟨hs.update hd hopen (fun _ _ h => by cases h) (fun _ _ _ h => by cases h), ?_⟩
      intro hisolated
      rw [isolated_update hd hisolated]
      simp [Dispatch.Isolated]
    | some payload =>
      have hmode := hs.modes d (mem_of_getElem? hd) token mintedAt activeMode hphase
      obtain ⟨htoken, henv⟩ := loaderConfig_env host d.versionId token activeMode payload hmode
      simp only
      generalize d.request.loaderConfig host d.versionId token activeMode payload = config
        at htoken henv ⊢
      constructor
      · refine (hserve _).addIsolate htoken
          ⟨⟨d.request, d.versionId, .served token mintedAt activeMode config.env⟩, ?_, rfl⟩
        rw [hready.1, getElem?_update hd, if_pos rfl]
      · intro hisolated
        refine (isolated_update hd hisolated).trans ?_
        simp only [Dispatch.Isolated, htoken, henv, ne_eq, reduceCtorEq, not_false_iff,
          forall_const, true_and]
        constructor
        · rintro ⟨-, -, hseen⟩ rfl
          simpa using hseen
        · intro hnone
          refine ⟨hready.2.1, hready.2.2, ?_⟩
          cases activeMode with
          | none => simpa using hnone rfl
          | some mode => rfl

theorem step_accounted (hs : s.Accounted) (e : DispatchEvent) : (s.step host e).Accounted := by
  cases e with
  | tick now => exact ⟨hs.minted, hs.modes, hs.captured⟩
  | setActive versionId => exact ⟨hs.minted, hs.modes, hs.captured⟩
  | putVersion versionId payload scope => exact ⟨hs.minted, hs.modes, hs.captured⟩
  | setMode sessionId modeId => exact ⟨hs.minted, hs.modes, hs.captured⟩
  | start request =>
    simp only [step]
    split
    · exact hs
    · split_ifs
      · exact hs
      · exact hs.start request _
  | mint i =>
    simp only [step]
    split
    · rename_i d hd
      split
      · rename_i hphase
        refine hs.update hd (by rw [hphase]; rfl) ?_ fun _ _ _ h => by cases h
        intro token mintedAt h
        cases h
        exact ⟨rfl, mintToken_spec s.now i host.agentId _ d.request⟩
      · exact hs
    · exact hs
  | resolveMode i =>
    simp only [step]
    split
    · rename_i d hd
      split
      · rename_i token mintedAt hphase
        refine hs.update hd (by rw [hphase]; rfl) ?_ ?_
        · intro token' mintedAt' h
          cases h
          exact hs.minted i d token mintedAt hd (by rw [hphase]; rfl)
        · intro token' mintedAt' activeMode h hne
          cases h
          cases hrequest : d.request with
          | prompt sessionId => exact ⟨sessionId, rfl⟩
          | _ =>
            rw [hrequest] at hne
            exact absurd rfl hne
      · exact hs
    · exact hs
  | load i isolate =>
    simp only [step]
    split
    · rename_i d hd
      split
      · rename_i token mintedAt activeMode hphase
        exact (load_spec host hs hd hphase isolate).1
      · exact hs
    · exact hs

theorem step_isolated_iff (hs : s.Accounted) (hisolated : s.Isolated) (e : DispatchEvent) :
    (s.step host e).Isolated ↔ OwnIsolate host s e := by
  cases e with
  | tick now => exact iff_of_true hisolated trivial
  | setActive versionId => exact iff_of_true hisolated trivial
  | putVersion versionId payload scope => exact iff_of_true hisolated trivial
  | setMode sessionId modeId => exact iff_of_true hisolated trivial
  | start request =>
    refine iff_of_true ?_ trivial
    simp only [step]
    split
    · exact hisolated
    · split_ifs
      · exact hisolated
      · intro d hd
        rcases mem_append.mp hd with hold | hnew
        · exact hisolated d hold
        · obtain rfl := mem_singleton.mp hnew
          trivial
  | mint i =>
    refine iff_of_true ?_ trivial
    simp only [step]
    split
    · rename_i d hd
      split
      · exact (isolated_update hd hisolated).mpr trivial
      · exact hisolated
    · exact hisolated
  | resolveMode i =>
    refine iff_of_true ?_ trivial
    simp only [step]
    split
    · rename_i d hd
      split
      · exact (isolated_update hd hisolated).mpr trivial
      · exact hisolated
    · exact hisolated
  | load i isolate =>
    simp only [step, OwnIsolate]
    split
    · rename_i d hd
      split
      · rename_i token mintedAt activeMode hphase
        rw [(load_spec host hs hd hphase isolate).2 hisolated]
        constructor
        · intro h d' token' mintedAt' activeMode' hd' hphase'
          rw [hd] at hd'
          cases hd'
          rw [hphase] at hphase'
          cases hphase'
          exact h
        · intro h
          exact h d token mintedAt activeMode hd hphase
      · rename_i hphase
        refine iff_of_true hisolated fun d' token mintedAt activeMode hd' hphase' => ?_
        rw [hd] at hd'
        cases hd'
        exact absurd hphase' (hphase token mintedAt activeMode)
    · rename_i hnone
      refine iff_of_true hisolated fun d' _ _ _ hd' => ?_
      rw [hnone] at hd'
      cases hd'

/-- In a run every dispatch that is served sees its own token and mode at any time exactly when
the loader calls the factory of every dispatch and the deployment projects no mode to a dispatch
without one. -/
theorem isolated_iff_ownIsolates (events : List DispatchEvent) :
    (∀ before after, events = before ++ after → (run host before).Isolated) ↔
      Run.Allowed (OwnIsolate host) (step host) {} events := by
  refine Run.always_iff_allowed (I := Accounted) ?_ ?_ ?_ ?_ events
  · exact ⟨fun _ _ _ _ h => (by cases h), fun _ h => absurd h not_mem_nil,
      fun _ h => absurd h not_mem_nil⟩
  · exact fun _ h => absurd h not_mem_nil
  · exact fun s e hs => step_accounted host hs e
  · exact fun s e hs hisolated => step_isolated_iff host hs hisolated e

end Step

end BundleAgent

/-- The session of the token that the isolate of a dispatch sees. -/
def BundleAgent.seenSid (s : BundleAgent) (i : Nat) : Option String :=
  match s.dispatches[i]? with
  | some ⟨_, _, .served _ _ _ env⟩ =>
    match env.get "__BUNDLE_TOKEN" with
    | some (.token token) => token.sid
    | _ => none
  | _ => none

/-- Two prompts of different sessions, two minutes apart; the loader answers the second one with
the isolate of the first. -/
def sharedIsolate : List DispatchEvent :=
  [.putVersion "v1" (some ⟨"bundle.js", []⟩) [], .setActive (some "v1"),
    .start (.prompt "alice"), .mint 0, .resolveMode 0, .load 0 none, .tick 120000,
    .start (.prompt "bob"), .mint 1, .resolveMode 1, .load 1 (some 0)]

/-- The prompt of one session runs under the token of the other. -/
theorem sharedIsolate_leaks :
    (BundleAgent.run ⟨"agent", [], none, []⟩ sharedIsolate).seenSid 1 = some "alice" ∧
      ¬ (BundleAgent.run ⟨"agent", [], none, []⟩ sharedIsolate).Isolated := by
  refine ⟨by decide, fun h => ?_⟩
  obtain ⟨-, -, htoken, -⟩ := h _ (mem_of_getElem? (i := 1) rfl)
  exact absurd htoken (by decide)

end CrabbyKit.Bundle
