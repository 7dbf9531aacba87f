import CrabbyKit.Token.Verify

/-!
# Tokens are accepted as they were minted

The round trip of a token through base64url, UTF-8 and JSON, and from it what the verifier makes
of a minted token. Under the assumption that a MAC is made with its key only, an accepted token
carries a payload that was minted, whatever was edited.
-/

namespace CrabbyKit.Token

open List Option

theorem splitToken_append {payloadB64 : String} (h : '.' ∉ payloadB64.toList)
    (signatureB64 : String) :
    splitToken (payloadB64 ++ "." ++ signatureB64) = some (payloadB64, signatureB64) := by
  have hall : ∀ c ∈ payloadB64.toList, decide (c ≠ '.') = true := by
    intro c hc
    rw [decide_eq_true_eq]
    rintro rfl
    exact h hc
  have htoken : (payloadB64 ++ "." ++ signatureB64).toList =
      payloadB64.toList ++ '.' :: signatureB64.toList := by
    simp
  rw [splitToken, htoken, dropWhile_append_of_pos hall, takeWhile_append_of_pos hall]
  simp

theorem decodePayload_encodePayload (payload : TokenPayload) :
    decodePayload (encodePayload payload) = some payload.toJson := by
  obtain ⟨cs, hhead⟩ := head_stringify payload
  rw [decodePayload, encodePayload, base64urlDecode_encode]
  simp only [bind_eq_bind, bind_some]
  rw [decodeText_encodeText (by simp [hhead]), Json.parse_stringify]

theorem includesScope_toJson (payload : TokenPayload) (scope : String) :
    includesScope payload.toJson scope = decide (scope ∈ payload.scope) := by
  rw [includesScope, field_scope_toJson]
  apply Bool.eq_iff_iff.mpr
  simp [Json.asString]

theorem expired_toJson (payload : TokenPayload) (now : Int) :
    expired (Json.field "exp" payload.toJson) now = decide (payload.exp ≤ now) := by
  rw [field_exp_toJson]
  rfl

theorem checkPayload_toJson (payload : TokenPayload) (now : Int) (scope : String) :
    (checkPayload now { requiredScope := some scope } payload.toJson).1 =
      if payload.exp ≤ now then .invalid .ERR_TOKEN_EXPIRED
      else if scope = "" ∨ scope ∈ payload.scope then .valid payload.toJson
      else .invalid .ERR_SCOPE_DENIED := by
  have hobject : ∃ members, payload.toJson = .obj members := ⟨_, rfl⟩
  obtain ⟨members, hmembers⟩ := hobject
  rw [checkPayload]
  · rw [expired_toJson]
    by_cases hexp : payload.exp ≤ now
    · rw [if_pos (by simpa using hexp), if_pos hexp]
    · rw [if_neg (by simpa using hexp), if_neg hexp]
      simp only [checkScope, includesScope_toJson]
      by_cases hempty : scope = ""
      · simp [hempty]
      · by_cases hmem : scope ∈ payload.scope <;> simp [hempty, hmem]
  · intro hnull
    rw [hmembers] at hnull
    cases hnull

variable {options : VerifyOptions}

theorem checkScope_valid {payload found : Json}
    (h : checkScope options found = .valid payload) : payload = found := by
  unfold checkScope at h
  split at h
  · split at h
    · cases h
    · exact (VerifyOutcome.valid.inj h).symm
  · exact (VerifyOutcome.valid.inj h).symm

theorem checkPayload_valid {now : Int} {payload found : Json}
    (h : (checkPayload now options found).1 = .valid payload) :
    payload = found ∧ expired (Json.field "exp" found) now = false := by
  unfold checkPayload at h
  split at h
  · cases h
  · split at h
    · cases h
    · rename_i hexp
      refine ⟨?_, by simpa using hexp⟩
      split at h
      · simp only at h
        split at h
        · exact checkScope_valid h
        · cases h
      · exact checkScope_valid h

section

variable {Key : Type} (hmac : Key → List UInt8 → List UInt8)

theorem verifyToken_sealPayload (key : Key) (payload : TokenPayload) (now : Int)
    (options : VerifyOptions) :
    verifyToken hmac (sealPayload hmac key payload) key now options =
      checkPayload now options payload.toJson := by
  rw [sealPayload, verifyToken, splitToken_append (dot_notMem_encodePayload payload)]
  simp only
  rw [base64urlDecode_encode]
  simp only
  rw [if_pos trivial, decodePayload_encodePayload]

variable {options : VerifyOptions}

theorem verifyToken_valid {token : String} {key : Key} {now : Int}
    {payload : Json} (h : (verifyToken hmac token key now options).1 = .valid payload) :
    ∃ payloadB64 signatureB64, splitToken token = some (payloadB64, signatureB64) ∧
      base64urlDecode signatureB64 = some (hmac key (encodeText payloadB64)) ∧
      decodePayload payloadB64 = some payload ∧
      expired (Json.field "exp" payload) now = false := by
  rw [verifyToken] at h
  split at h
  · cases h
  · rename_i payloadB64 signatureB64 hsplit
    split at h
    · cases h
    · rename_i signature hdecode
      split at h
      · rename_i hmacs
        split at h
        · cases h
        · rename_i found hpayload
          obtain ⟨rfl, hexp⟩ := checkPayload_valid h
          exact ⟨payloadB64, signatureB64, hsplit, hmacs ▸ hdecode, hpayload, hexp⟩
      · cases h

/-- A call of `mintToken`. -/
structure Mint (Key : Type) where
  key : Key
  now : Int
  randomUUID : String
  opts : MintOptions

def Mint.payload (mint : Mint Key) : TokenPayload :=
  mintPayload mint.now mint.randomUUID mint.opts

def Mint.token (mint : Mint Key) : String :=
  mintToken hmac mint.now mint.randomUUID mint.opts mint.key

def presented (token : String) : Option (List UInt8) := do
  let parts ← splitToken token
  base64urlDecode parts.2

/-- The MACs that minted tokens show to whoever reads them. -/
def seen (mints : List (Mint Key)) : Set (List UInt8) :=
  {mac | ∃ mint ∈ mints, presented (mint.token hmac) = some mac}

theorem splitToken_mint (mint : Mint Key) :
    splitToken (mint.token hmac) = some (encodePayload mint.payload,
      base64urlEncode (hmac mint.key (encodeText (encodePayload mint.payload)))) := by
  rw [Mint.token, mintToken, sealPayload, ← Mint.payload,
    splitToken_append (dot_notMem_encodePayload mint.payload)]

theorem presented_mint (mint : Mint Key) : presented (mint.token hmac) =
    some (hmac mint.key (encodeText (encodePayload mint.payload))) := by
  rw [presented, splitToken_mint, bind_eq_bind, bind_some, base64urlDecode_encode]

theorem verifyToken_minted (hinjective : ∀ k k' m m', hmac k m = hmac k' m' → k = k' ∧ m = m')
    {made : Set (List UInt8) → Set (List UInt8)}
    (hsecret : ∀ shown k m, hmac k m ∈ made shown → hmac k m ∈ shown)
    {mints : List (Mint Key)} {token : String}
    (hmade : ∀ mac ∈ presented token, mac ∈ made (seen hmac mints))
    {key : Key} {now : Int} {payload : Json}
    (h : (verifyToken hmac token key now options).1 = .valid payload) :
    ∃ mint ∈ mints, mint.key = key ∧
      (splitToken token).map Prod.fst = some (encodePayload mint.payload) ∧
      payload = mint.payload.toJson ∧ now < mint.payload.exp := by
  obtain ⟨payloadB64, signatureB64, hsplit, hdecode, hpayload, hexp⟩ := verifyToken_valid hmac h
  have htoken : presented token = some (hmac key (encodeText payloadB64)) := by
    rw [presented, hsplit, bind_eq_bind, bind_some, hdecode]
  obtain ⟨mint, hmint, hshown⟩ := hsecret _ _ _ (hmade _ htoken)
  rw [presented_mint] at hshown
  obtain ⟨hkey, htext⟩ := hinjective _ _ _ _ (Option.some.inj hshown)
  have hpart := encodeText_injective htext
  rw [← hpart, decodePayload_encodePayload] at hpayload
  obtain rfl := Option.some.inj hpayload
  rw [expired_toJson] at hexp
  refine ⟨mint, hmint, hkey, ?_, rfl, by simpa using hexp⟩
  rw [hsplit, hpart]
  rfl

end

/-- The verifier accepts the token exactly when it is in time and its scope holds the required one,
and hands out the minted payload. -/
def AcceptsWhenScoped {Key : Type} (hmac : Key → List UInt8 → List UInt8) (mint : Mint Key)
    (now : Int) (scope : String) : Prop :=
  let outcome := (verifyToken hmac (mint.token hmac) mint.key now { requiredScope := some scope }).1
  ((∃ payload, outcome = .valid payload) ↔
    now < mint.payload.exp ∧ scope ∈ mint.payload.scope) ∧
  ∀ payload, outcome = .valid payload → payload = mint.payload.toJson

theorem acceptsWhenScoped_iff {Key : Type} (hmac : Key → List UInt8 → List UInt8)
    (mint : Mint Key) (now : Int) (scope : String) :
    AcceptsWhenScoped hmac mint now scope ↔
      (scope = "" → "" ∈ mint.payload.scope ∨ mint.payload.exp ≤ now) := by
  have houtcome : (verifyToken hmac (mint.token hmac) mint.key now
      { requiredScope := some scope }).1 = _ :=
    (congrArg Prod.fst (verifyToken_sealPayload hmac mint.key mint.payload now _)).trans
      (checkPayload_toJson mint.payload now scope)
  simp only [AcceptsWhenScoped, houtcome]
  by_cases hexp : mint.payload.exp ≤ now
  · simp only [hexp, if_true, or_true, implies_true, iff_true]
    simp
    omega
  · by_cases hempty : scope = ""
    · subst hempty
      simp [hexp]
      omega
    · by_cases hmem : scope ∈ mint.payload.scope
      · simp [hexp, hempty, hmem]
        omega
      · simp [hexp, hempty, hmem]

/-- A mint at time 0 with one of two keys. -/
def turnMint : Mint Bool where
  key := true
  now := 0
  randomUUID := "00000000-0000-4000-8000-000000000000"
  opts := { agentId := "agent-1", sessionId := some "session-1", scope := ["spine", "llm"] }

/-- The HMAC-SHA256 of the first part of that token, under the subkey `claw/bundle-v1` of the
master key `test-master-key-for-bundle-token-tests`. -/
def turnMac : List UInt8 :=
  [234, 123, 253, 128, 96, 249, 146, 189, 253, 99, 253, 202, 127, 20, 7, 21,
    97, 195, 88, 204, 216, 204, 206, 186, 174, 33, 245, 27, 76, 214, 169, 144]

/-- A keyed function that has this value for that token, and longer values elsewhere. -/
def turnHmac (key : Bool) (message : List UInt8) : List UInt8 :=
  if key = true ∧ message = encodeText (encodePayload turnMint.payload) then turnMac
  else List.replicate 32 0 ++ key.toUInt8 :: message

theorem turnHmac_injective (k k' : Bool) (m m' : List UInt8)
    (h : turnHmac k m = turnHmac k' m') : k = k' ∧ m = m' := by
  have hlonger : ∀ (byte : UInt8) rest, turnMac ≠ List.replicate 32 0 ++ byte :: rest := by
    intro byte rest heq
    have hlen := congrArg List.length heq
    rw [length_append, length_replicate, show turnMac.length = 32 from rfl] at hlen
    simp at hlen
  by_cases hfirst : k = true ∧ m = encodeText (encodePayload turnMint.payload) <;>
    by_cases hsecond : k' = true ∧ m' = encodeText (encodePayload turnMint.payload)
  · exact ⟨hfirst.1.trans hsecond.1.symm, hfirst.2.trans hsecond.2.symm⟩
  · rw [turnHmac, turnHmac, if_pos hfirst, if_neg hsecond] at h
    exact absurd h (hlonger _ _)
  · rw [turnHmac, turnHmac, if_neg hfirst, if_pos hsecond] at h
    exact absurd h.symm (hlonger _ _)
  · rw [turnHmac, turnHmac, if_neg hfirst, if_neg hsecond] at h
    obtain ⟨hkey, hmessage⟩ := List.cons.inj (append_cancel_left h)
    refine ⟨?_, hmessage⟩
    revert hkey
    cases k <;> cases k' <;> decide

section

variable {tracker : NonceTracker} {now : Int} {nonce exp : Option Json}

theorem tryConsume_tracked {entry : Option Json × Option Json} (h : entry ∈ tracker.consumed)
    (alive : expired entry.2 now = false) :
    entry ∈ (tracker.tryConsume now nonce exp).2.consumed ∧
      (sameKey entry.1 nonce = true → (tracker.tryConsume now nonce exp).1 = false) := by
  have hevict (t : NonceTracker) (crowded : Prop) [Decidable crowded] (ht : entry ∈ t.consumed) :
      entry ∈ (if crowded then t.evictExpired now else t).consumed := by
    split
    · exact mem_filter.mpr ⟨ht, by rw [alive]; rfl⟩
    · exact ht
  have hnear := hevict tracker (9 * tracker.maxSize ≤ 10 * tracker.consumed.length) h
  unfold NonceTracker.tryConsume
  simp only
  generalize (if 9 * tracker.maxSize ≤ 10 * tracker.consumed.length then tracker.evictExpired now
    else tracker) = near at hnear ⊢
  have hroom := hevict near (near.maxSize ≤ near.consumed.length) hnear
  split
  · exact ⟨hnear, fun _ => rfl⟩
  · rename_i hfresh
    generalize (if near.maxSize ≤ near.consumed.length then near.evictExpired now
      else near) = room at hroom ⊢
    split
    · exact ⟨hroom, fun _ => rfl⟩
    · exact ⟨mem_append_left _ hroom, fun hsame =>
        absurd (any_eq_true.mpr ⟨entry, hnear, hsame⟩) hfresh⟩

theorem tryConsume_own (h : (tracker.tryConsume now nonce exp).1 = true) :
    (nonce, exp) ∈ (tracker.tryConsume now nonce exp).2.consumed := by
  revert h
  unfold NonceTracker.tryConsume
  simp only
  split_ifs <;> simp

end

section

variable {Key : Type} (hmac : Key → List UInt8 → List UInt8)

/-- A call of `verifyToken`; the calls of one process share a tracker. -/
structure Use (Key : Type) where
  token : String
  key : Key
  now : Int
  requiredScope : Option String

def Use.verify (use : Use Key) (tracker : NonceTracker) : VerifyOutcome × Option NonceTracker :=
  verifyToken hmac use.token use.key use.now ⟨some tracker, use.requiredScope⟩

/-- The tracker and the payloads accepted after a call. -/
def Use.step (s : NonceTracker × List Json) (use : Use Key) : NonceTracker × List Json :=
  ((use.verify hmac s.1).2.getD s.1,
    match (use.verify hmac s.1).1 with
    | .valid payload => s.2 ++ [payload]
    | _ => s.2)

theorem Use.verify_cases (use : Use Key) (tracker : NonceTracker) :
    (∀ payload, (use.verify hmac tracker).1 ≠ .valid payload) ∧
      (use.verify hmac tracker).2 = some tracker ∨
    ∃ found : Json, (use.verify hmac tracker).2 = some
        (tracker.tryConsume use.now (found.field "nonce") (found.field "exp")).2 ∧
      ∀ payload, (use.verify hmac tracker).1 = .valid payload → payload = found ∧
        expired (found.field "exp") use.now = false ∧
        (tracker.tryConsume use.now (found.field "nonce") (found.field "exp")).1 = true := by
  unfold Use.verify verifyToken checkPayload
  simp only
  repeat' split
  all_goals first
    | exact .inl ⟨by simp, rfl⟩
    | refine .inr ⟨_, rfl, ?_⟩
  · rename_i hexp htaken
    exact fun _ h => ⟨checkScope_valid h, by simpa using hexp, htaken⟩
  · simp

theorem field_nonce_toJson (payload : TokenPayload) :
    payload.toJson.field "nonce" = some (.str payload.nonce) := by
  simp [TokenPayload.toJson, Json.field]

def TokenPayload.entry (payload : TokenPayload) : Option Json × Option Json :=
  (some (.str payload.nonce), some (.num payload.exp))

/-- The payload was accepted at most once, and if so it is tracked until it expires. -/
structure AcceptedOnce (payload : TokenPayload) (uses : List (Use Key))
    (s : NonceTracker × List Json) : Prop where
  once : s.2.Pairwise fun a b => a = payload.toJson → b ≠ payload.toJson
  tracked : payload.toJson ∈ s.2 → ∀ now, (∀ use ∈ uses, use.now ≤ now) → now < payload.exp →
    payload.entry ∈ s.1.consumed

theorem AcceptedOnce.step {payload : TokenPayload} {uses : List (Use Key)}
    {s : NonceTracker × List Json} (h : AcceptedOnce payload uses s) (use : Use Key)
    (later : ∀ u ∈ uses, u.now ≤ use.now) :
    AcceptedOnce payload (uses ++ [use]) (use.step hmac s) := by
  have hkept {nonce exp : Option Json} (hmem : payload.toJson ∈ s.2) (now : Int)
      (hnow : ∀ u ∈ uses ++ [use], u.now ≤ now) (alive : now < payload.exp) :=
    @tryConsume_tracked s.1 use.now nonce exp payload.entry
      (h.tracked hmem now (fun u hu => hnow u (mem_append_left _ hu)) alive)
      (decide_eq_false (Int.not_le.mpr (Int.lt_of_le_of_lt (hnow use (by simp)) alive)))
  rcases use.verify_cases hmac s.1 with ⟨hinvalid, hsame⟩ | ⟨found, htracker, hvalid⟩
  · simp only [Use.step, hsame, Option.getD_some]
    exact ⟨h.once, fun hmem now hnow =>
      h.tracked hmem now fun u hu => hnow u (mem_append_left _ hu)⟩
  · simp only [Use.step, htracker, Option.getD_some]
    split
    · rename_i accepted haccepted
      obtain ⟨rfl, hexp, htaken⟩ := hvalid accepted haccepted
      constructor
      · refine pairwise_append.mpr ⟨h.once, pairwise_singleton _ _, ?_⟩
        rintro a ha b hb rfl hboth
        obtain rfl := (mem_singleton.mp hb).symm.trans hboth
        rw [expired_toJson, decide_eq_false_iff_not, Int.not_le] at hexp
        rw [(hkept ha use.now ?_ hexp).2 ?_] at htaken
        · cases htaken
        · simpa [or_imp, forall_and] using later
        · rw [field_nonce_toJson]
          exact decide_eq_true rfl
      · intro hmem now hnow alive
        rcases mem_append.mp hmem with hold | hnew
        · exact (hkept hold now hnow alive).1
        · obtain rfl := (mem_singleton.mp hnew).symm
          have hown := tryConsume_own htaken
          simp only [field_nonce_toJson, field_exp_toJson] at hown ⊢
          exact hown
    · exact ⟨h.once, fun hmem now hnow alive => (hkept hmem now hnow alive).1⟩

/-- However tokens are edited and presented, while the clock does not go back no payload is
accepted twice. -/
theorem accepted_once (payload : TokenPayload) (tracker : NonceTracker) (uses : List (Use Key))
    (timed : uses.Pairwise fun a b => a.now ≤ b.now) :
    (Run.run (Use.step hmac) (tracker, []) uses).2.Pairwise fun a b =>
      a = payload.toJson → b ≠ payload.toJson := by
  refine (Run.run_induction (P := fun uses s => (uses.Pairwise fun a b => a.now ≤ b.now) →
    AcceptedOnce payload uses s) (fun _ => ⟨.nil, fun h => by cases h⟩) ?_ uses timed).once
  intro uses use s ih timed
  obtain ⟨htimed, -, hlater⟩ := pairwise_append.mp timed
  exact (ih htimed).step hmac use fun u hu => hlater u hu use mem_cons_self

/-- The token of the turn is presented twice, and accepted the first time. -/
theorem turnToken_once :
    (Run.run (Use.step turnHmac) ({}, []) [⟨turnMint.token turnHmac, true, 5, some "spine"⟩,
      ⟨turnMint.token turnHmac, true, 6, none⟩]).2.Pairwise fun a b =>
        a = turnMint.payload.toJson → b ≠ turnMint.payload.toJson :=
  accepted_once turnHmac turnMint.payload {} _ (by simp)

end

end CrabbyKit.Token
