import CrabbyKit.Bundle.Dispatch
import CrabbyKit.Core.Base64
import CrabbyKit.Core.JsonText
import CrabbyKit.Core.Utf8

/-!
# Minting capability tokens

`mint.ts`: the payload of a token, its JSON text, and the sealed form: the text in base64url, a
dot, and the HMAC of the first part in base64url. The HMAC is a parameter, a function of the key
and of the bytes signed.
-/

namespace CrabbyKit.Token

structure TokenPayload where
  aid : String
  sid : Option String
  sessionId : Option String
  exp : Int
  nonce : String
  scope : List String
  deriving DecidableEq, Repr

/-- The options of `mintToken`; `sid` is absent, `null` or a string. -/
structure MintOptions where
  agentId : String
  sid : Option (Option String) := none
  sessionId : Option String := none
  scope : List String
  ttlMs : Option Int := none

def defaultTtlMs : Int := 60 * 1000

/-- The payload that `mintToken` puts together at a time, with a fresh nonce. -/
def mintPayload (now : Int) (randomUUID : String) (opts : MintOptions) : TokenPayload :=
  let resolvedSid := opts.sid.getD opts.sessionId
  { aid := opts.agentId
    sid := resolvedSid
    sessionId := resolvedSid
    exp := now + opts.ttlMs.getD defaultTtlMs
    nonce := randomUUID
    scope := opts.scope }

/-- A string or `null`. -/
def nullable : Option String → Json
  | some text => .str text
  | none => .null

/-- The payload as an object, its members in the order of the literal. -/
def TokenPayload.toJson (payload : TokenPayload) : Json :=
  .obj ([("aid", .str payload.aid), ("sid", nullable payload.sid)] ++
    (payload.sessionId.toList.map fun id => ("sessionId", Json.str id)) ++
    [("exp", .num payload.exp), ("nonce", .str payload.nonce),
      ("scope", .arr (payload.scope.map .str))])

/-- The first part of a sealed token. -/
def encodePayload (payload : TokenPayload) : String :=
  base64urlEncode (encodeText payload.toJson.stringify)

section

variable {Key : Type} (hmac : Key → List UInt8 → List UInt8)

def sealPayload (subkey : Key) (payload : TokenPayload) : String :=
  let payloadB64 := encodePayload payload
  let signature := hmac subkey (encodeText payloadB64)
  payloadB64 ++ "." ++ base64urlEncode signature

def mintToken (now : Int) (randomUUID : String) (opts : MintOptions) (subkey : Key) : String :=
  sealPayload hmac subkey (mintPayload now randomUUID opts)

end

variable (payload : TokenPayload)

@[simp] theorem field_exp_toJson :
    Json.field "exp" payload.toJson = some (.num payload.exp) := by
  simp [TokenPayload.toJson, Json.field]

@[simp] theorem field_scope_toJson :
    Json.field "scope" payload.toJson = some (.arr (payload.scope.map .str)) := by
  simp [TokenPayload.toJson, Json.field]

theorem head_stringify :
    ∃ cs, payload.toJson.stringify.toList = '{' :: cs := by
  simp [Json.stringify, TokenPayload.toJson, Json.write]

theorem dot_notMem_encodePayload (payload : TokenPayload) : '.' ∉ (encodePayload payload).toList :=
  dot_notMem_base64urlEncode _

end CrabbyKit.Token

/-!
## Verifying capability tokens

`verify.ts`: a token is cut at its first dot, its signature compared with the HMAC of the part
before the dot, and only then is that part decoded and its untyped members checked in order.
-/

namespace CrabbyKit.Token

/-- The characters that JavaScript trims from a text. -/
def trimmed (c : Char) : Bool :=
  c.toNat ∈ [9, 10, 11, 12, 13, 32, 160, 0x1680, 0x2028, 0x2029, 0x202F, 0x205F, 0x3000, 0xFEFF] ||
    (0x2000 ≤ c.toNat && c.toNat ≤ 0x200A)

def numberOfText (text : String) : Option Int :=
  let cs := ((text.toList.dropWhile trimmed).reverse.dropWhile trimmed).reverse
  let digits := if cs.head? = some '-' ∨ cs.head? = some '+' then cs.tail else cs
  if cs = [] then some 0
  else if digits = [] ∨ !digits.all Char.isDigit then none
  else if cs.head? = some '-' then some (-(Nat.ofDigitChars 10 digits 0))
  else some (Nat.ofDigitChars 10 digits 0)

/-- `Number(value)`; `none` stands for NaN. -/
def toNumber : Json → Option Int
  | .null => some 0
  | .bool value => some value.toNat
  | .num value => some value
  | .str text => numberOfText text
  | .arr [] => some 0
  | .arr [.null] => some 0
  | .arr [.num value] => some value
  | .arr [.str text] => numberOfText text
  | .arr [.arr items] => toNumber (.arr items)
  | .arr _ => none
  | .obj _ => none

/-- `exp <= now`, which no comparison with NaN satisfies. -/
def expired (exp : Option Json) (now : Int) : Bool :=
  match exp.bind toNumber with
  | some value => value ≤ now
  | none => false

/-- Whether two keys of a `Map` are the same; every parsed array and object is a new one. -/
def sameKey : Option Json → Option Json → Bool
  | none, none => true
  | some .null, some .null => true
  | some (.bool a), some (.bool b) => a = b
  | some (.num a), some (.num b) => a = b
  | some (.str a), some (.str b) => a = b
  | _, _ => false

/-- The nonces consumed so far, each with the expiry of its token. -/
structure NonceTracker where
  consumed : List (Option Json × Option Json) := []
  maxSize : Nat := 10000

def NonceTracker.evictExpired (tracker : NonceTracker) (now : Int) : NonceTracker :=
  { tracker with consumed := tracker.consumed.filter fun entry => !expired entry.2 now }

/-- Consume a nonce, if it is new and there is room for it. -/
def NonceTracker.tryConsume (tracker : NonceTracker) (now : Int) (nonce exp : Option Json) :
    Bool × NonceTracker :=
  let near := if 9 * tracker.maxSize ≤ 10 * tracker.consumed.length
    then tracker.evictExpired now else tracker
  if near.consumed.any fun entry => sameKey entry.1 nonce then (false, near)
  else
    let room := if near.maxSize ≤ near.consumed.length then near.evictExpired now else near
    if room.maxSize ≤ room.consumed.length then (false, room)
    else (true, { room with consumed := room.consumed ++ [(nonce, exp)] })

inductive VerifyError
  | ERR_BAD_TOKEN
  | ERR_TOKEN_EXPIRED
  | ERR_TOKEN_REPLAY
  | ERR_MALFORMED
  | ERR_SCOPE_DENIED
  deriving DecidableEq, Repr

/-- An outcome; the call rejects when the payload is `null`, which has no members. -/
inductive VerifyOutcome
  | valid (payload : Json)
  | invalid (code : VerifyError)
  | rejected

structure VerifyOptions where
  nonceTracker : Option NonceTracker := none
  requiredScope : Option String := none

/-- The parts of a token before and after its first dot. -/
def splitToken (token : String) : Option (String × String) :=
  match token.toList.dropWhile (· ≠ '.') with
  | [] => none
  | _ :: rest => some (String.ofList (token.toList.takeWhile (· ≠ '.')), String.ofList rest)

/-- The object in the first part of a token. -/
def decodePayload (payloadB64 : String) : Option Json := do
  let bytes ← base64urlDecode payloadB64
  Json.parse (decodeText bytes)

/-- Whether `payload.scope` is an array with this text. -/
def includesScope (payload : Json) (scope : String) : Bool :=
  match Json.field "scope" payload with
  | some (.arr items) => items.any fun item => item.asString = some scope
  | _ => false

def checkScope (options : VerifyOptions) (payload : Json) : VerifyOutcome :=
  match options.requiredScope with
  | some scope =>
    if scope ≠ "" && !includesScope payload scope then .invalid .ERR_SCOPE_DENIED
    else .valid payload
  | none => .valid payload

/-- The checks on a payload whose signature was right, and the nonces after them. -/
def checkPayload (now : Int) (options : VerifyOptions) (payload : Json) :
    VerifyOutcome × Option NonceTracker :=
  match payload with
  | .null => (.rejected, options.nonceTracker)
  | _ =>
    if expired (Json.field "exp" payload) now then
      (.invalid .ERR_TOKEN_EXPIRED, options.nonceTracker)
    else
      match options.nonceTracker with
      | some tracker =>
        let result := tracker.tryConsume now (Json.field "nonce" payload)
          (Json.field "exp" payload)
        if result.1 then (checkScope options payload, some result.2)
        else (.invalid .ERR_TOKEN_REPLAY, some result.2)
      | none => (checkScope options payload, none)

section

variable {Key : Type} (hmac : Key → List UInt8 → List UInt8)

def verifyToken (token : String) (subkey : Key) (now : Int) (options : VerifyOptions) :
    VerifyOutcome × Option NonceTracker :=
  match splitToken token with
  | none => (.invalid .ERR_MALFORMED, options.nonceTracker)
  | some (payloadB64, signatureB64) =>
    match base64urlDecode signatureB64 with
    | none => (.invalid .ERR_BAD_TOKEN, options.nonceTracker)
    | some signature =>
      if signature = hmac subkey (encodeText payloadB64) then
        match decodePayload payloadB64 with
        | none => (.invalid .ERR_MALFORMED, options.nonceTracker)
        | some payload => checkPayload now options payload
      else (.invalid .ERR_BAD_TOKEN, options.nonceTracker)

end

end CrabbyKit.Token
