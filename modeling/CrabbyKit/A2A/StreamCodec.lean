import CrabbyKit.Bundle.SseEvents
import CrabbyKit.Core.JsonValue

/-!
# Streamed answers on the wire

The encoder of `handleStreamMessage` (`server/handler.ts`), the answers of the transport, and
`sendMessageStream` with `parseSSEStream` of `client/http-client.ts`. A body is the list of the
chunks that `reader.read` gives.
-/

namespace CrabbyKit.A2A.StreamCodec

open List

open CrabbyKit.Bundle (nextEvent takeEvents)

/-- `JSON.stringify({ jsonrpc: "2.0", id, result: event })`, in characters. -/
def eventJson (id event : JsonValue) : List Char :=
  JsonValue.write (.obj [("jsonrpc", .str "2.0"), ("id", id), ("result", event)])

/-- What `pipe` enqueues for an event. -/
def encodeEvent (id event : JsonValue) : List UInt8 :=
  encodeText (String.ofList ("data: ".toList ++ eventJson id event ++ ['\n', '\n']))

def encodeStream (id : JsonValue) (events : List JsonValue) : List UInt8 :=
  events.flatMap (encodeEvent id)

/-- `JsonRpcErrorResponse`. -/
structure ErrorResponse where
  id : JsonValue
  code : Decimal
  message : String
  data : List JsonValue

def ErrorResponse.toJson (e : ErrorResponse) : JsonValue :=
  .obj [("jsonrpc", .str "2.0"), ("id", e.id),
    ("error", .obj [("code", .num e.code), ("message", .str e.message), ("data", .arr e.data)])]

/-- The body of `jsonResponse`. -/
def ErrorResponse.bytes (e : ErrorResponse) : List UInt8 := encodeText e.toJson.stringify

/-- A number without a fraction. -/
def ofInt (n : Int) : Decimal := Decimal.ofParts (n < 0) n.natAbs 0

def errorHttpStatus : List (Int × Nat) :=
  [(-32700, 400), (-32600, 400), (-32601, 404), (-32602, 400), (-32603, 500), (-32001, 404),
    (-32002, 409), (-32003, 400), (-32004, 400), (-32005, 415), (-32006, 502), (-32009, 400)]

def httpStatusForError (code : Decimal) : Nat :=
  ((errorHttpStatus.find? fun row => ofInt row.1 = code).map Prod.snd).getD 500

/-- `Response`, of which the body may be absent. -/
structure Response where
  status : Nat
  body : Option (List (List UInt8))

/-- `response.ok` -/
def Response.ok (response : Response) : Bool := 200 ≤ response.status && response.status ≤ 299

/-- `response.text()` -/
def Response.text (response : Response) : List Char :=
  textOfBytes (response.body.getD []).flatten

/-- What is thrown: an `A2AClientError`, or an error of the language. -/
inductive Thrown
  | client (code message data : Option JsonValue)
  | typeError
  | syntaxError

/-- What a generator yields until it returns or throws; `undefined` is no value. -/
structure Yielded where
  events : List (Option JsonValue)
  thrown : Option Thrown

def Yielded.done : Yielded := ⟨[], none⟩

def Yielded.cons (event : Option JsonValue) (later : Yielded) : Yielded :=
  { later with events := event :: later.events }

/-- What comes before an end that is no error goes before what comes later. -/
def Yielded.andThen (first later : Yielded) : Yielded :=
  if first.thrown.isSome then first else { later with events := first.events ++ later.events }

/-- A member of `json.error`, which `null` has not. -/
def errorMember (error : JsonValue) (name : String) : Except Thrown (Option JsonValue) :=
  match error with
  | .null => .error .typeError
  | error => .ok (error.field name)

/-- `new A2AClientError(json.error.code, json.error.message, json.error.data)` -/
def clientError (error : JsonValue) : Thrown :=
  match errorMember error "code", errorMember error "message", errorMember error "data" with
  | .ok code, .ok message, .ok data => .client code message data
  | _, _, _ => .typeError

/-- What an event of the stream makes of the rest; `in` asks for an object. -/
def processEvent (event : List Char) (later : Yielded) : Yielded :=
  if event.all Cron.isSpace then later
  else
    match (event.splitOn '\n').find? fun line => "data: ".toList.isPrefixOf line with
    | none => later
    | some dataLine =>
      match JsonValue.parse (String.ofList (dataLine.drop 6)) with
      | none => ⟨[], some .syntaxError⟩
      | some (.obj members) =>
        match (JsonValue.obj members).field "error" with
        | some error => ⟨[], some (clientError error)⟩
        | none => later.cons ((JsonValue.obj members).field "result")
      | some (.arr _) => later.cons none
      | some _ => ⟨[], some .typeError⟩

/-- The inner loop. -/
def processEvents (events : List (List Char)) : Yielded :=
  events.foldr processEvent .done

/-- `buffer.split("\n\n")`: the pieces before the last, and the last. -/
def splitEvents (buffer : List Char) : List (List Char) × List Char :=
  takeEvents buffer.length buffer

/-- The reads of `parseSSEStream`. -/
def parseReads (decoder : TextDecoder) (buffer : List Char) : List (List UInt8) → Yielded
  | [] => .done
  | value :: rest =>
    let decoded := decoder.decode value
    let split := splitEvents (buffer ++ decoded.2)
    (processEvents split.1).andThen (parseReads decoded.1 split.2 rest)

def parseSSEStream (body : List (List UInt8)) : Yielded := parseReads {} [] body

def httpError (response : Response) : Thrown :=
  .client (some (.num (ofInt response.status))) (some (.str (String.ofList
    ("HTTP ".toList ++ (toString response.status).toList ++ ": ".toList ++ response.text)))) none

/-- What `sendMessageStream` does with the answer. -/
def sendMessageStream (response : Response) : Yielded :=
  if !response.ok then ⟨[], some (httpError response)⟩
  else
    match response.body with
    | none => ⟨[], some (.client (some (.num (ofInt (-1))))
        (some (.str "No response body for streaming request")) none)⟩
    | some body => parseSSEStream body

theorem takeEvents_enough (fuel : Nat) : ∀ buffer : List Char, buffer.length ≤ fuel →
    takeEvents fuel buffer = splitEvents buffer := by
  have more (n k : Nat) : ∀ buffer : List Char, buffer.length ≤ n →
      takeEvents (n + k) buffer = takeEvents n buffer := by
    induction n with
    | zero =>
      intro buffer short
      obtain rfl := length_eq_zero_iff.mp (Nat.le_zero.mp short)
      cases k <;> rfl
    | succ n ih =>
      intro buffer short
      rw [Nat.succ_add, takeEvents, takeEvents]
      cases found : nextEvent buffer with
      | none => rfl
      | some parts =>
        obtain ⟨event, rest⟩ := parts
        have shorter := Bundle.nextEvent_length found
        simp only [ih rest (by omega)]
  intro buffer enough
  rw [splitEvents, ← Nat.add_sub_cancel' enough]
  exact more _ _ _ le_rfl

variable {buffer : List Char}

theorem splitEvents_none (h : nextEvent buffer = none) : splitEvents buffer = ([], buffer) := by
  unfold splitEvents
  cases buffer with
  | nil => rfl
  | cons c cs => rw [length_cons, takeEvents, h]

theorem splitEvents_some {event rest : List Char} (h : nextEvent buffer = some (event, rest)) :
    splitEvents buffer = (event :: (splitEvents rest).1, (splitEvents rest).2) := by
  unfold splitEvents
  cases buffer with
  | nil => cases h
  | cons c cs =>
    have shorter := Bundle.nextEvent_length h
    rw [length_cons] at shorter
    rw [length_cons, takeEvents, h]
    simp only [takeEvents_enough cs.length rest (by omega)]
    rfl

theorem splitEvents_append (fuel : Nat) (ys : List Char) : ∀ xs : List Char, xs.length ≤ fuel →
    splitEvents (xs ++ ys) =
      ((splitEvents xs).1 ++ (splitEvents ((splitEvents xs).2 ++ ys)).1,
        (splitEvents ((splitEvents xs).2 ++ ys)).2) := by
  induction fuel with
  | zero =>
    intro xs short
    obtain rfl := length_eq_zero_iff.mp (Nat.le_zero.mp short)
    rfl
  | succ fuel ih =>
    intro xs short
    cases found : nextEvent xs with
    | none => rw [splitEvents_none found, nil_append]
    | some parts =>
      obtain ⟨event, rest⟩ := parts
      have shorter := Bundle.nextEvent_length found
      rw [splitEvents_some found, splitEvents_some (Bundle.nextEvent_append found ys),
        ih rest (by omega)]
      rfl

theorem splitEvents_rest (buffer : List Char) : nextEvent (splitEvents buffer).2 = none :=
  Bundle.takeEvents_rest _ _ le_rfl

theorem Yielded.andThen_cons (event : Option JsonValue) (first later : Yielded) :
    (first.cons event).andThen later = (first.andThen later).cons event := by
  unfold andThen cons
  split <;> rfl

theorem processEvents_append (xs ys : List (List Char)) :
    processEvents (xs ++ ys) = (processEvents xs).andThen (processEvents ys) := by
  induction xs with
  | nil => rfl
  | cons event xs ih =>
    have step (later : Yielded) : processEvent event (later.andThen (processEvents ys)) =
        (processEvent event later).andThen (processEvents ys) := by
      unfold processEvent
      split
      · rfl
      · split
        · rfl
        · split
          · rfl
          · split
            · rfl
            · exact (Yielded.andThen_cons _ _ _).symm
          · exact (Yielded.andThen_cons _ _ _).symm
          · rfl
    rw [cons_append, processEvents, foldr_cons]
    exact (congrArg (processEvent event) ih).trans (step _)

theorem parseReads_eq (chunks : List (List UInt8)) : ∀ decoder buffer,
    nextEvent buffer = none → parseReads decoder buffer chunks =
      processEvents (splitEvents (buffer ++ (decoder.decode chunks.flatten).2)).1 := by
  induction chunks with
  | nil =>
    intro decoder buffer h
    have nothing : (decoder.decode []).2 = [] := rfl
    rw [flatten_nil, nothing, append_nil, splitEvents_none h]
    rfl
  | cons value rest ih =>
    intro decoder buffer h
    rw [parseReads, flatten_cons, TextDecoder.decode_append, ← append_assoc,
      splitEvents_append _ _ (buffer ++ (decoder.decode value).2) le_rfl, processEvents_append,
      ih _ _ (splitEvents_rest _)]

theorem nextEvent_line {line : List Char} (free : '\n' ∉ line) (rest : List Char) :
    nextEvent (line ++ '\n' :: '\n' :: rest) = some (line, rest) := by
  induction line with
  | nil => rfl
  | cons c cs ih =>
    rw [mem_cons, not_or] at free
    rw [cons_append, nextEvent, if_neg fun boundary => free.1 boundary.1.symm, ih free.2]
    rfl

theorem nextEvent_eq_none {line : List Char} (free : '\n' ∉ line) : nextEvent line = none := by
  induction line with
  | nil => rfl
  | cons c cs ih =>
    rw [mem_cons, not_or] at free
    rw [nextEvent, if_neg fun boundary => free.1 boundary.1.symm, ih free.2]
    rfl

def dataLine (id event : JsonValue) : List Char := "data: ".toList ++ eventJson id event

theorem newline_notMem_dataLine (id event : JsonValue) : '\n' ∉ dataLine id event := by
  rw [dataLine, mem_append, not_or]
  exact ⟨by decide, JsonValue.newline_notMem_write _⟩

def streamText (id : JsonValue) (events : List JsonValue) : List Char :=
  events.flatMap fun event => dataLine id event ++ ['\n', '\n']

variable (id : JsonValue)

theorem splitEvents_streamText (events : List JsonValue) :
    splitEvents (streamText id events) = (events.map (dataLine id), []) := by
  induction events with
  | nil => rfl
  | cons event rest ih =>
    have text : streamText id (event :: rest) =
        dataLine id event ++ '\n' :: '\n' :: streamText id rest := by
      rw [streamText, flatMap_cons, append_assoc]
      rfl
    rw [text, splitEvents_some (nextEvent_line (newline_notMem_dataLine id event) _), ih]
    rfl

theorem processEvent_dataLine (id event : JsonValue) (later : Yielded) :
    processEvent (dataLine id event) later = later.cons (some event) := by
  have filled : (dataLine id event).all Cron.isSpace = false := by
    rw [dataLine, all_append]
    rfl
  have lines : (dataLine id event).splitOn '\n' = [dataLine id event] :=
    splitOn_eq_singleton (newline_notMem_dataLine id event)
  have starts : "data: ".toList.isPrefixOf (dataLine id event) = true :=
    isPrefixOf_iff_prefix.mpr (prefix_append _ _)
  have parsed : JsonValue.parse (String.ofList ((dataLine id event).drop 6)) =
      some (.obj [("jsonrpc", .str "2.0"), ("id", id), ("result", event)]) :=
    JsonValue.parse_stringify _
  rw [processEvent, if_neg (by rw [filled]; decide), lines, find?_cons_of_pos starts]
  simp only [parsed]
  rfl

theorem processEvents_dataLines (events : List JsonValue) :
    processEvents (events.map (dataLine id)) = ⟨events.map some, none⟩ := by
  induction events with
  | nil => rfl
  | cons event rest ih =>
    rw [map_cons, processEvents, foldr_cons, processEvent_dataLine]
    exact congrArg (Yielded.cons (some event)) ih

theorem decode_encodeText {text : List Char} (h : ∀ c ∈ text.head?, c.toNat < 128) :
    (TextDecoder.decode {} (encodeText (String.ofList text))).2 = text := by
  rw [TextDecoder.decode]
  simp only [decodeBytes_encodeText, String.toList_ofList]
  cases text with
  | nil => rfl
  | cons c cs =>
    have other : c ≠ byteOrderMark := by
      rintro rfl
      exact absurd (h _ rfl) (by decide)
    simp [serialize, other]

theorem encodeStream_eq (events : List JsonValue) :
    encodeStream id events = encodeText (String.ofList (streamText id events)) := by
  have each : encodeEvent id = fun event =>
      (dataLine id event ++ ['\n', '\n']).flatMap String.utf8EncodeChar := by
    ext1 event
    rw [encodeEvent, encodeText, String.toList_ofList]
    rfl
  rw [encodeStream, streamText, encodeText, String.toList_ofList, flatMap_assoc, each]

variable {body : List (List UInt8)}

theorem parseSSEStream_encodeStream (events : List JsonValue)
    (cut : body.flatten = encodeStream id events) :
    parseSSEStream body = ⟨events.map some, none⟩ := by
  have ascii : ∀ c ∈ (streamText id events).head?, c.toNat < 128 := by
    cases events with
    | nil => simp [streamText]
    | cons event rest =>
      rintro c ⟨⟩
      decide
  rw [parseSSEStream, parseReads_eq _ _ _ rfl, cut, encodeStream_eq, decode_encodeText ascii,
    nil_append, splitEvents_streamText, processEvents_dataLines]

def FailsWith (code : Decimal) (result : Yielded) : Prop :=
  ∃ message data, result.thrown = some (.client (some (.num code)) message data)

theorem parseSSEStream_error (e : ErrorResponse)
    (cut : body.flatten = e.bytes) : parseSSEStream body = .done := by
  have text : e.toJson.stringify = String.ofList e.toJson.write := rfl
  have ascii : ∀ c ∈ e.toJson.write.head?, c.toNat < 128 := by
    rw [ErrorResponse.toJson, JsonValue.write]
    rintro c ⟨⟩
    decide
  rw [parseSSEStream, parseReads_eq _ _ _ rfl, cut, ErrorResponse.bytes, text,
    decode_encodeText ascii, nil_append,
    splitEvents_none (nextEvent_eq_none (JsonValue.newline_notMem_write _))]
  rfl

theorem failsWith_iff (e : ErrorResponse) (status : Nat)
    (cut : body.flatten = e.bytes) : FailsWith e.code (sendMessageStream ⟨status, some body⟩) ↔
      Response.ok ⟨status, some body⟩ = false ∧ ofInt status = e.code := by
  unfold FailsWith sendMessageStream
  cases ok : Response.ok ⟨status, some body⟩ with
  | true =>
    simp only [Bool.not_true, Bool.false_eq_true, if_false]
    rw [parseSSEStream_error e cut]
    simp [Yielded.done]
  | false =>
    simp only [Bool.not_false, if_true]
    constructor
    · rintro ⟨message, data, same⟩
      rw [httpError, Option.some.injEq, Thrown.client.injEq, Option.some.injEq,
        JsonValue.num.injEq] at same
      exact ⟨trivial, same.1⟩
    · rintro ⟨-, same⟩
      exact ⟨_, _, by rw [← same]; rfl⟩

theorem ofInt_natCast_nonneg (n : Nat) : 0 ≤ (ofInt n).mantissa := by
  have natural : decide ((n : Int) < 0) = false := decide_eq_false (by omega)
  unfold ofInt Decimal.ofParts
  rw [natural]
  split
  · exact Int.natCast_nonneg _
  · exact le_rfl

theorem protocol_code_ne_status {row : Int × Nat} (mem : row ∈ errorHttpStatus) (status : Nat) :
    ofInt status ≠ ofInt row.1 := by
  intro same
  have nonneg := ofInt_natCast_nonneg status
  rw [same] at nonneg
  have negative : ∀ row ∈ errorHttpStatus, (ofInt row.1).mantissa < 0 := by decide
  exact absurd nonneg (negative row mem).not_ge

/-- A stream is read as it was written; an error in the place of a stream is thrown under its code
exactly when the status of the response is this code and no success, which never is the case for
the errors of the server. -/
theorem stream_codec_iff (id : JsonValue) (events : List JsonValue) (e : ErrorResponse)
    (status : Nat) (body errorBody : List (List UInt8))
    (cut : body.flatten = encodeStream id events) (errorCut : errorBody.flatten = e.bytes) :
    sendMessageStream ⟨200, some body⟩ = ⟨events.map some, none⟩ ∧
      (FailsWith e.code (sendMessageStream ⟨status, some errorBody⟩) ↔
        Response.ok ⟨status, some errorBody⟩ = false ∧ ofInt status = e.code) ∧
      ∀ row ∈ errorHttpStatus, e.code = ofInt row.1 →
        ¬ FailsWith e.code (sendMessageStream ⟨httpStatusForError e.code, some errorBody⟩) := by
  refine ⟨parseSSEStream_encodeStream id events cut, failsWith_iff e status errorCut, ?_⟩
  intro row mem code fails
  have same := ((failsWith_iff e _ errorCut).mp fails).2
  rw [code] at same
  exact protocol_code_ne_status mem _ same

def taskNotFound : ErrorResponse where
  id := .str "1"
  code := ofInt (-32001)
  message := "Task not found: t"
  data := []

theorem stream_codec_single :
    sendMessageStream ⟨200, some [encodeStream (.str "1") [.null]]⟩ = ⟨[some .null], none⟩ :=
  (stream_codec_iff (.str "1") [.null] taskNotFound 200 [encodeStream (.str "1") [.null]]
    [taskNotFound.bytes] (append_nil _) (append_nil _)).1

/-- An error that comes with the status 200 is passed over, and one with the status of the server
is thrown under the status. -/
theorem error_response_lost :
    sendMessageStream ⟨200, some [taskNotFound.bytes]⟩ = .done ∧
      ¬ FailsWith taskNotFound.code (sendMessageStream ⟨200, some [taskNotFound.bytes]⟩) ∧
      FailsWith (ofInt 404) (sendMessageStream
        ⟨httpStatusForError taskNotFound.code, some [taskNotFound.bytes]⟩) := by
  have cut : [taskNotFound.bytes].flatten = taskNotFound.bytes := append_nil _
  refine ⟨parseSSEStream_error taskNotFound cut, ?_, _, _, rfl⟩
  rw [failsWith_iff taskNotFound 200 cut]
  decide

end CrabbyKit.A2A.StreamCodec
