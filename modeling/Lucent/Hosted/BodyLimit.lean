import Lucent.Hosted.Outcome

/-!
# Lucent.Hosted.BodyLimit — `MaxBodySizeMiddleware` and `request_context` of `lucent/api.py`

The middleware reads the messages of a request until its body is complete, counts their bytes, and either answers 413
or lets the application read the same messages again.  An application that raises leaves `request_context` without an
answer of it; the headers of Starlette are a parameter.

* `bufferLoop`: the loop of the middleware; `replayReceive`: what the application receives.
* `read`: what a reader of the protocol gets from the messages, stated apart from the middleware.
* `middleware_exact`: what the middleware decides is a function of that; the pieces a body comes in do not matter.
* `exchange_exact`: with what each response carries: one identifier, which a 413 also names in its document.
-/

namespace Lucent.Hosted

open Lucent.Lib

/-! ## Messages -/

/-- A message of the server; the keys of a request message may be absent. -/
inductive Message
  | request (body : Option Bytes) (moreBody : Option Bool)
  | disconnect
  | other (type : Option String)

/-- `message.get("body", b"")` of a request message. -/
def Message.body : Message → Bytes
  | .request body _ => body.getD []
  | _ => []

/-- The bytes that are held with some messages. -/
def bodyBytes (messages : List Message) : ℕ := (messages.map fun m => m.body.length).sum

/-! ## The declared length -/

def isBlankByte (b : UInt8) : Bool := b == 0x20 || (0x09 ≤ b && b ≤ 0x0D)

def isDigitByte (b : UInt8) : Bool := 0x30 ≤ b && b ≤ 0x39

/-- Digits, with single underscores between them. -/
def digitsOf : Bytes → Option (List ℕ)
  | [] => none
  | [b] => if isDigitByte b then some [b.toNat - 0x30] else none
  | b :: c :: rest =>
    if !isDigitByte b then none
    else if c = 0x5F then (digitsOf rest).map ((b.toNat - 0x30) :: ·)
    else (digitsOf (c :: rest)).map ((b.toNat - 0x30) :: ·)

/-- The text between the blanks around it. -/
def stripBytes (value : Bytes) : Bytes := ((value.dropWhile isBlankByte).reverse.dropWhile isBlankByte).reverse

/-- `int(value)` of a header value; `none` for a `ValueError`, which more than 4300 digits also raise. -/
def intOf (value : Bytes) : Option ℤ :=
  let number (digits : Bytes) : Option ℕ := ((digitsOf digits).filter fun ds => decide (ds.length ≤ 4300)).map
    (List.foldl (fun n d => 10 * n + d) 0)
  match stripBytes value with
  | 0x2D :: digits => (number digits).map fun n => -(n : ℤ)
  | 0x2B :: digits => (number digits).map fun n => (n : ℤ)
  | digits => (number digits).map fun n => (n : ℤ)

/-- `bytes.lower`. -/
def lowerBytes (value : Bytes) : Bytes := value.map fun b => if 0x41 ≤ b && b ≤ 0x5A then b + 0x20 else b

abbrev RawHeaders := List (Bytes × Bytes)

/-- The dictionary of lower-cased names: the last value of a name. -/
def lastHeader (headers : RawHeaders) (name : Bytes) : Option Bytes :=
  (headers.reverse.find? fun h => lowerBytes h.1 == name).map Prod.snd

/-- The declared length is a number beyond the limit. -/
def declaresTooMuch (maxBytes : ℕ) (headers : RawHeaders) : Bool :=
  match lastHeader headers (utf8 "content-length") with
  | none => false
  | some value => !value.isEmpty && (intOf value).any fun n => decide ((maxBytes : ℤ) < n)

/-! ## The middleware -/

/-- Where the middleware is, with the messages it holds. -/
inductive Buffered
  | rejected (messages : List Message)
  | waiting (messages : List Message)
  | forward (messages : List Message)

/-- The loop over `receive`, with the bytes and the messages so far. -/
def bufferLoop (maxBytes : ℕ) : ℕ → List Message → List Message → Buffered
  | _, messages, [] => .waiting messages
  | received, messages, .request body moreBody :: stream =>
    let received := received + (body.getD []).length
    let messages := messages ++ [.request body moreBody]
    if maxBytes < received then .rejected messages
    else if moreBody.getD false then bufferLoop maxBytes received messages stream
    else .forward messages
  | _, messages, .disconnect :: _ => .forward (messages ++ [.disconnect])
  | received, messages, .other type :: stream => bufferLoop maxBytes received (messages ++ [.other type]) stream

/-- `MaxBodySizeMiddleware.__call__` of an HTTP request. -/
def middleware (maxBytes : ℕ) (headers : RawHeaders) (stream : List Message) : Buffered :=
  if declaresTooMuch maxBytes headers then .rejected [] else bufferLoop maxBytes 0 [] stream

/-- `replay_receive`, of its call number `index`. -/
def replayReceive (messages : List Message) (index : ℕ) : Message :=
  messages.getD index (.request (some []) (some false))

/-! ## What a reader gets -/

/-- How the messages of a body end. -/
inductive Ending
  | open
  | complete
  | disconnected
deriving DecidableEq

/-- The bytes of a body, as far as they have come. -/
structure Reading where
  bytes : Bytes
  ending : Ending

/-- What the messages are to a reader of the protocol. -/
def read : List Message → Reading
  | [] => ⟨[], .open⟩
  | .request body moreBody :: rest =>
    if moreBody.getD false then ⟨body.getD [] ++ (read rest).bytes, (read rest).ending⟩
    else ⟨body.getD [], .complete⟩
  | .disconnect :: _ => ⟨[], .disconnected⟩
  | .other _ :: rest => read rest

/-- What the application reads in its first receptions. -/
def readReplayed (messages : List Message) (receptions : ℕ) : Reading :=
  read ((List.range receptions).map (replayReceive messages))

/-- What the middleware has to do with the messages of a request. -/
def Exact (maxBytes : ℕ) (tooMuch : Bool) (stream : List Message) : Buffered → Prop
  | .rejected messages => (tooMuch = true ∨ maxBytes < (read stream).bytes.length) ∧ messages <+: stream ∧
      bodyBytes messages.dropLast ≤ maxBytes
  | .waiting messages => tooMuch = false ∧ (read stream).bytes.length ≤ maxBytes ∧ (read stream).ending = .open ∧
      messages = stream
  | .forward messages => tooMuch = false ∧ (read stream).bytes.length ≤ maxBytes ∧ (read stream).ending ≠ .open ∧
      messages <+: stream ∧ bodyBytes messages ≤ maxBytes ∧
      ∀ receptions, messages.length ≤ receptions → readReplayed messages receptions = read stream

section Exactness

variable {maxBytes received : ℕ} {messages : List Message}

theorem bodyBytes_append (messages messages' : List Message) :
    bodyBytes (messages ++ messages') = bodyBytes messages + bodyBytes messages' := by
  simp [bodyBytes]

@[simp] theorem bodyBytes_singleton (m : Message) : bodyBytes [m] = m.body.length := by simp [bodyBytes]

/-- Messages that do not end a body are continued by what follows. -/
theorem read_append (h : (read messages).ending = .open) (rest : List Message) :
    read (messages ++ rest) = ⟨(read messages).bytes ++ (read rest).bytes, (read rest).ending⟩ := by
  induction messages with
  | nil => rfl
  | cons m messages ih =>
    cases m with
    | request body moreBody =>
      by_cases hmore : moreBody.getD false = true
      · simp only [read, hmore, if_true] at h
        simp only [List.cons_append, read, hmore, if_true, ih h, List.append_assoc]
      · simp [read, hmore] at h
    | disconnect => simp [read] at h
    | other type => exact ih h

theorem length_read_open (h : (read messages).ending = .open) : (read messages).bytes.length = bodyBytes messages := by
  induction messages with
  | nil => rfl
  | cons m messages ih =>
    cases m with
    | request body moreBody =>
      by_cases hmore : moreBody.getD false = true
      · simp only [read, hmore, if_true] at h
        simp only [read, hmore, if_true, List.length_append, ih h]
        simp [bodyBytes, Message.body]
      · simp [read, hmore] at h
    | disconnect => simp [read] at h
    | other type =>
      rw [show read (.other type :: messages) = read messages from rfl, ih h]
      simp [bodyBytes, Message.body]

/-- Nothing is read behind the end of a body. -/
theorem read_append_ended (h : (read messages).ending ≠ .open) (rest : List Message) :
    read (messages ++ rest) = read messages := by
  induction messages with
  | nil => exact absurd rfl h
  | cons m messages ih =>
    cases m with
    | request body moreBody =>
      by_cases hmore : moreBody.getD false = true
      · simp only [read, hmore, if_true] at h
        simp only [List.cons_append, read, hmore, if_true, ih h]
      · simp [read, hmore]
    | disconnect => rfl
    | other type => exact ih h

/-- The replayed messages are those that were held, and empty ones after them. -/
theorem readReplayed_eq (h : (read messages).ending ≠ .open) {receptions : ℕ} (hlong : messages.length ≤ receptions) :
    readReplayed messages receptions = read messages := by
  obtain ⟨more, rfl⟩ : ∃ more, receptions = messages.length + more := ⟨receptions - messages.length, by omega⟩
  have hheld : (List.range messages.length).map (replayReceive messages) = messages := by
    refine List.ext_getElem (by simp) fun n h1 h2 => ?_
    simp [replayReceive, h2]
  rw [readReplayed, List.range_add, List.map_append, hheld, read_append_ended h]

/-- **The loop**, started behind messages that do not end the body. -/
theorem bufferLoop_exact (stream : List Message) (hopen : (read messages).ending = .open)
    (hreceived : received = bodyBytes messages) (hle : received ≤ maxBytes) :
    Exact maxBytes false (messages ++ stream) (bufferLoop maxBytes received messages stream) := by
  induction stream generalizing received messages with
  | nil =>
    rw [List.append_nil]
    refine ⟨rfl, ?_, hopen, rfl⟩
    rw [length_read_open hopen, ← hreceived]
    exact hle
  | cons m stream ih =>
    have hsplit : messages ++ m :: stream = messages ++ [m] ++ stream := by simp
    have hprefix : messages ++ [m] <+: messages ++ m :: stream := by
      rw [hsplit]
      exact List.prefix_append _ _
    have hlength := length_read_open hopen
    cases m with
    | request body moreBody =>
      unfold bufferLoop
      by_cases hover : maxBytes < received + (body.getD []).length
      · -- the bytes held before this message were within the limit
        simp only [if_pos hover]
        refine ⟨.inr ?_, hprefix, ?_⟩
        · have hbody : (body.getD []).length ≤ (read (.request body moreBody :: stream)).bytes.length := by
            by_cases hmore : moreBody.getD false = true
            · simp only [read, hmore, if_true, List.length_append]
              omega
            · simp [read, hmore]
          rw [read_append hopen, List.length_append, hlength]
          omega
        · rw [List.dropLast_concat]
          omega
      · simp only [if_neg hover]
        by_cases hmore : moreBody.getD false = true
        · rw [if_pos hmore, hsplit]
          have hnext : (read (messages ++ [.request body moreBody])).ending = .open := by
            rw [read_append hopen]
            simp [read, hmore]
          refine ih hnext ?_ (by omega)
          rw [bodyBytes_append, bodyBytes_singleton, ← hreceived]
          rfl
        · rw [if_neg hmore]
          have hlast : ∀ rest, read (messages ++ .request body moreBody :: rest) =
              ⟨(read messages).bytes ++ body.getD [], .complete⟩ := by
            intro rest
            rw [read_append hopen]
            simp [read, hmore]
          have hended : ∀ rest, (read (messages ++ .request body moreBody :: rest)).ending ≠ .open := by
            intro rest
            rw [hlast]
            exact fun h => Ending.noConfusion h
          refine ⟨rfl, ?_, hended stream, hprefix, ?_, fun receptions hlong => ?_⟩
          · rw [hlast, List.length_append, hlength]
            omega
          · rw [bodyBytes_append, bodyBytes_singleton]
            show bodyBytes messages + (body.getD []).length ≤ maxBytes
            omega
          · rw [readReplayed_eq (hended []) hlong, hlast, hlast]
    | disconnect =>
      have hlast : ∀ rest, read (messages ++ .disconnect :: rest) = ⟨(read messages).bytes, .disconnected⟩ := by
        intro rest
        rw [read_append hopen]
        simp [read]
      have hended : ∀ rest, (read (messages ++ .disconnect :: rest)).ending ≠ .open := by
        intro rest
        rw [hlast]
        exact fun h => Ending.noConfusion h
      refine ⟨rfl, ?_, hended stream, hprefix, ?_, fun receptions hlong => ?_⟩
      · rw [hlast, hlength]
        omega
      · rw [bodyBytes_append, bodyBytes_singleton]
        show bodyBytes messages + 0 ≤ maxBytes
        omega
      · rw [readReplayed_eq (hended []) hlong, hlast, hlast]
    | other type =>
      rw [hsplit]
      have hnext : (read (messages ++ [.other type])).ending = .open := by
        rw [read_append hopen]
        rfl
      refine ih hnext ?_ hle
      rw [bodyBytes_append, bodyBytes_singleton, ← hreceived]
      rfl

/-- The limit is exact: a request is rejected exactly when it declares too much or its body, however it is cut
into messages, grows too long; otherwise the application reads what the server has sent.  No more than the limit and
one message are ever held. -/
theorem middleware_exact (maxBytes : ℕ) (headers : RawHeaders) (stream : List Message) :
    Exact maxBytes (declaresTooMuch maxBytes headers) stream (middleware maxBytes headers stream) := by
  unfold middleware
  by_cases hdeclared : declaresTooMuch maxBytes headers = true
  · rw [if_pos hdeclared, hdeclared]
    exact ⟨.inl rfl, List.nil_prefix, Nat.zero_le _⟩
  · rw [if_neg hdeclared, Bool.eq_false_iff.mpr hdeclared]
    exact bufferLoop_exact stream rfl rfl (Nat.zero_le _)

end Exactness

/-! ## Identified responses -/

/-- `REQUEST_ID_RE.fullmatch`. -/
def requestIdRe (text : String) : Bool :=
  decide (1 ≤ text.toList.length) && decide (text.toList.length ≤ 96) &&
    text.toList.all fun c => c.isAlphanum || c == '.' || c == '_' || c == ':' || c == '-'

/-- What the middleware uses of Starlette's headers, which disregard the case of names. -/
structure Starlette where
  /-- `Headers.get`, of the headers of a request. -/
  get : RawHeaders → String → Option String
  /-- The headers of a `JSONResponse` with these headers, media type and body. -/
  initHeaders : Headers → String → Bytes → Headers
  /-- `Headers.getlist`, of the headers of a response: the values of a name. -/
  getlist : Headers → String → List String
  /-- `MutableHeaders.__setitem__`. -/
  setitem : Headers → String → String → Headers
  /-- As it is documented: the header is set to the value, without duplicates of it, and the others stay. -/
  getlist_setitem : ∀ headers name value other, isAscii name = true → isAscii value = true → isAscii other = true →
    getlist (setitem headers name value) other =
      if lowerAscii other = lowerAscii name then [value] else getlist headers other

/-- The identifier `request_context` gives a request; the hexadecimal digits of a fresh UUID are drawn. -/
def contextRequestId (starlette : Starlette) (headers : RawHeaders) (drawn : String) : String :=
  let supplied := (starlette.get headers "x-request-id").getD ""
  if requestIdRe supplied then supplied else "req_" ++ drawn

/-- The problem of a body that is too long. -/
def tooLarge (maxBytes : ℕ) : Problem :=
  ⟨"REQUEST_TOO_LARGE", "Payload Too Large", 413, "request body may not exceed " ++ toString maxBytes ++ " bytes",
    none, []⟩

/-- `_reject`, below `request_context`, which has set the identifier. -/
def rejectResponse (starlette : Starlette) (maxBytes : ℕ) (requestId : String) : HttpResponse :=
  let body := renderJson false (.obj (problemMembers (tooLarge maxBytes) requestId))
  { statusCode := 413
    headers := starlette.initHeaders [("X-Request-ID", requestId), ("Cache-Control", "no-store"),
      ("X-Content-Type-Options", "nosniff"), ("X-Frame-Options", "DENY"), ("Referrer-Policy", "no-referrer")]
      "application/problem+json" body
    body }

/-- The headers that `request_context` sets. -/
def contextHeaders (requestId timing : String) : Headers :=
  [("X-Request-ID", requestId), ("Cache-Control", "no-store"), ("X-Content-Type-Options", "nosniff"),
    ("X-Frame-Options", "DENY"), ("Referrer-Policy", "no-referrer"), ("Server-Timing", timing)]

/-- `request_context` around the response of the inner application. -/
def identified (starlette : Starlette) (requestId timing : String) (response : HttpResponse) : HttpResponse :=
  { response with
    headers := (contextHeaders requestId timing).foldl (fun hs h => starlette.setitem hs h.1 h.2) response.headers }

/-- How far a request has come: its body is not complete, an exception leaves `request_context`, or it is answered. -/
inductive Progress
  | waiting
  | raised
  | answered (response : HttpResponse)

/-- A request through `request_context` and `MaxBodySizeMiddleware` to the application, which gets its identifier and
the messages it receives, and may raise; the stream is what comes to the middleware. -/
def exchange (starlette : Starlette) (maxBytes : ℕ) (headers : RawHeaders) (drawn timing : String)
    (app : String → (ℕ → Message) → Option HttpResponse) (stream : List Message) : Progress :=
  let requestId := contextRequestId starlette headers drawn
  match middleware maxBytes headers stream with
  | .rejected _ => .answered (identified starlette requestId timing (rejectResponse starlette maxBytes requestId))
  | .waiting _ => .waiting
  | .forward messages =>
    match app requestId (replayReceive messages) with
    | none => .raised
    | some response => .answered (identified starlette requestId timing response)

section Identified

variable {starlette : Starlette}

/-- What assignments to different names leave: what they assign, and the values of all other names. -/
theorem getlist_foldl_setitem {others : Headers} (hnodup : (others.map fun h => lowerAscii h.1).Nodup)
    (hascii : ∀ h ∈ others, isAscii h.1 = true ∧ isAscii h.2 = true) (headers : Headers) :
    (∀ h ∈ others, starlette.getlist (others.foldl (fun hs h => starlette.setitem hs h.1 h.2) headers) h.1 = [h.2]) ∧
    ∀ name, isAscii name = true → (∀ h ∈ others, lowerAscii name ≠ lowerAscii h.1) →
      starlette.getlist (others.foldl (fun hs h => starlette.setitem hs h.1 h.2) headers) name =
        starlette.getlist headers name := by
  induction others using List.reverseRecOn with
  | nil => exact ⟨fun h hmem => absurd hmem List.not_mem_nil, fun name _ _ => rfl⟩
  | append_singleton others last ih =>
    rw [List.map_append, List.map_singleton, List.nodup_append_comm, List.singleton_append, List.nodup_cons] at hnodup
    obtain ⟨hfresh, hnodup⟩ := hnodup
    obtain ⟨hset, hkept⟩ := ih hnodup fun h hmem => hascii h (List.mem_append_left _ hmem)
    have hlast := hascii last List.mem_concat_self
    rw [List.foldl_append, List.foldl_cons, List.foldl_nil]
    constructor
    · intro h hmem
      rw [starlette.getlist_setitem _ _ _ _ hlast.1 hlast.2 (hascii h hmem).1]
      rcases List.mem_append.mp hmem with hmem | hmem
      · have hne : lowerAscii h.1 ≠ lowerAscii last.1 := fun heq =>
          hfresh (heq ▸ List.mem_map_of_mem (f := fun h : String × String => lowerAscii h.1) hmem)
        rw [if_neg hne, hset h hmem]
      · rw [List.mem_singleton.mp hmem, if_pos rfl]
    · intro name hname hne
      rw [starlette.getlist_setitem _ _ _ _ hlast.1 hlast.2 hname, if_neg (hne last List.mem_concat_self)]
      exact hkept name hname fun h hmem => hne h (List.mem_append_left _ hmem)

/-- The headers of the context are all different. -/
theorem contextHeaders_nodup (requestId timing : String) :
    ((contextHeaders requestId timing).map fun h => lowerAscii h.1).Nodup := by
  show ["X-Request-ID", "Cache-Control", "X-Content-Type-Options", "X-Frame-Options", "Referrer-Policy",
    "Server-Timing"].map lowerAscii |>.Nodup
  decide

/-- An identifier is ASCII. -/
theorem isAscii_of_requestIdRe {text : String} (h : requestIdRe text = true) : isAscii text = true := by
  unfold requestIdRe at h
  unfold isAscii
  rw [Bool.and_eq_true, List.all_eq_true] at h
  refine List.all_eq_true.mpr fun c hc => decide_eq_true ?_
  have hclass := h.2 c hc
  simp only [Bool.or_eq_true, beq_iff_eq] at hclass
  rcases hclass with (((halnum | rfl) | rfl) | rfl) | rfl
  · have hrange := alphanum_range halnum
    omega
  all_goals decide

theorem contextHeaders_ascii {requestId timing : String} (hid : requestIdRe requestId = true)
    (htiming : isAscii timing = true) :
    ∀ h ∈ contextHeaders requestId timing, isAscii h.1 = true ∧ isAscii h.2 = true := by
  intro h hmem
  simp only [contextHeaders, List.mem_cons, List.not_mem_nil, or_false] at hmem
  rcases hmem with rfl | rfl | rfl | rfl | rfl | rfl
  · exact ⟨(by decide : isAscii "X-Request-ID" = true), isAscii_of_requestIdRe hid⟩
  · exact ⟨by decide, by decide⟩
  · exact ⟨by decide, by decide⟩
  · exact ⟨by decide, by decide⟩
  · exact ⟨by decide, by decide⟩
  · exact ⟨(by decide : isAscii "Server-Timing" = true), htiming⟩

/-- The response carries the headers of the context, once each, whatever the application has set, and keeps its own
values of all other names. -/
structure Identifies (starlette : Starlette) (requestId timing : String) (own response : HttpResponse) : Prop where
  set : ∀ header ∈ contextHeaders requestId timing, starlette.getlist response.headers header.1 = [header.2]
  kept : ∀ name, isAscii name = true →
    (∀ header ∈ contextHeaders requestId timing, lowerAscii name ≠ lowerAscii header.1) →
    starlette.getlist response.headers name = starlette.getlist own.headers name
  statusCode : response.statusCode = own.statusCode
  body : response.body = own.body

theorem identifies_identified {requestId timing : String} (hid : requestIdRe requestId = true)
    (htiming : isAscii timing = true) (own : HttpResponse) :
    Identifies starlette requestId timing own (identified starlette requestId timing own) :=
  have hheaders := @getlist_foldl_setitem starlette _ (contextHeaders_nodup requestId timing)
    (contextHeaders_ascii hid htiming) own.headers
  ⟨hheaders.1, hheaders.2, rfl, rfl⟩

/-- The identifier is a good one, whatever was supplied. -/
theorem requestIdRe_contextRequestId (rawHeaders : RawHeaders) {drawn : String}
    (hdrawn : requestIdRe ("req_" ++ drawn) = true) :
    requestIdRe (contextRequestId starlette rawHeaders drawn) = true := by
  unfold contextRequestId
  by_cases hsupplied : requestIdRe ((starlette.get rawHeaders "x-request-id").getD "") = true
  · simpa only [if_pos hsupplied] using hsupplied
  · simpa only [if_neg hsupplied] using hdrawn

/-- The document of a rejected request is read back as it was rendered. -/
theorem loads_rejectResponse (readFloat : List Char → PyFloat) (starlette : Starlette) (maxBytes : ℕ)
    (requestId : String) : Json.loads readFloat (rejectResponse starlette maxBytes requestId).body =
      some (.obj (problemMembers (tooLarge maxBytes) requestId)) := by
  have hwf : Json.WellFormed (.obj (problemMembers (tooLarge maxBytes) requestId)) :=
    Json.wellFormed_of_plain _ (by rfl)
  have hstatus : Json.Dumpable (.int 413) := fun _ _ => rfl
  have hdump : Json.Dumpable (.obj (problemMembers (tooLarge maxBytes) requestId)) := by
    refine Json.Dumpable.obj fun m hm => ?_
    simp only [problemMembers, List.mem_cons, List.not_mem_nil, or_false] at hm
    rcases hm with rfl | rfl | rfl | rfl | rfl | rfl
    · exact fun _ _ => rfl
    · exact fun _ _ => rfl
    · exact hstatus
    · exact fun _ _ => rfl
    · exact fun _ _ => rfl
    · exact fun _ _ => rfl
  obtain ⟨t, ht⟩ := Option.isSome_iff_exists.mp (hdump false false)
  rw [rejectResponse, renderJson, ht, Option.getD_some, Json.loads_dumps hwf ht]
  rfl

end Identified

/-- The request says, or its body shows, that it is longer than the limit. -/
def Oversized (maxBytes : ℕ) (headers : RawHeaders) (stream : List Message) : Prop :=
  declaresTooMuch maxBytes headers = true ∨ maxBytes < (read stream).bytes.length

/-- From some reception on, a reader of these messages has what the stream brings. -/
def Replays (receive : ℕ → Message) (stream : List Message) : Prop :=
  ∃ enough, ∀ receptions, enough ≤ receptions → read ((List.range receptions).map receive) = read stream

/-- **The exchange** of a request: it waits exactly while a body within the limit is incomplete; a request that is too
long gets a 413, whose document names the identifier of the request; any other reaches the application, which reads the
body the server has sent, however it was cut.  Each response that the application returns, and each 413, carries the
headers of the context, once each and with that identifier; where the application raises, there is no response here. -/
theorem exchange_exact (readFloat : List Char → PyFloat) (starlette : Starlette) (maxBytes : ℕ) (headers : RawHeaders)
    {drawn timing : String} (hdrawn : requestIdRe ("req_" ++ drawn) = true) (htiming : isAscii timing = true)
    (app : String → (ℕ → Message) → Option HttpResponse) (stream : List Message) :
    requestIdRe (contextRequestId starlette headers drawn) = true ∧
      (exchange starlette maxBytes headers drawn timing app stream = .waiting ↔
        ¬ Oversized maxBytes headers stream ∧ (read stream).ending = .open) ∧
      (exchange starlette maxBytes headers drawn timing app stream = .raised → ¬ Oversized maxBytes headers stream ∧
        ∃ receive, Replays receive stream ∧ app (contextRequestId starlette headers drawn) receive = none) ∧
      ∀ response, exchange starlette maxBytes headers drawn timing app stream = .answered response →
        (Oversized maxBytes headers stream → Identifies starlette (contextRequestId starlette headers drawn) timing
            (rejectResponse starlette maxBytes (contextRequestId starlette headers drawn)) response ∧
          response.statusCode = 413 ∧ Json.loads readFloat response.body =
            some (.obj (problemMembers (tooLarge maxBytes) (contextRequestId starlette headers drawn)))) ∧
        (¬ Oversized maxBytes headers stream → ∃ receive own, Replays receive stream ∧
          app (contextRequestId starlette headers drawn) receive = some own ∧
          Identifies starlette (contextRequestId starlette headers drawn) timing own response) := by
  have hid : requestIdRe (contextRequestId starlette headers drawn) = true := requestIdRe_contextRequestId headers hdrawn
  refine ⟨hid, ?_⟩
  have hexact := middleware_exact maxBytes headers stream
  unfold exchange
  cases hmiddleware : middleware maxBytes headers stream with
  | rejected messages =>
    rw [hmiddleware] at hexact
    obtain ⟨hover, -, -⟩ := hexact
    refine ⟨⟨fun h => (by cases h), fun h => absurd hover h.1⟩, fun h => (by cases h), fun response h => ?_⟩
    obtain rfl := Progress.answered.inj h
    exact ⟨fun _ => ⟨identifies_identified hid htiming _, rfl, loads_rejectResponse readFloat starlette maxBytes _⟩,
      fun hnot => absurd hover hnot⟩
  | waiting messages =>
    rw [hmiddleware] at hexact
    obtain ⟨hdeclared, hle, hopen, -⟩ := hexact
    refine ⟨⟨fun _ => ⟨?_, hopen⟩, fun _ => rfl⟩, fun h => (by cases h), fun response h => by cases h⟩
    rintro (h | h)
    · exact absurd (hdeclared.symm.trans h) Bool.false_ne_true
    · omega
  | forward messages =>
    rw [hmiddleware] at hexact
    obtain ⟨hdeclared, hle, hended, -, -, hreplay⟩ := hexact
    have hfits : ¬ Oversized maxBytes headers stream := by
      rintro (h | h)
      · exact absurd (hdeclared.symm.trans h) Bool.false_ne_true
      · omega
    have hreplays : Replays (replayReceive messages) stream := ⟨messages.length, hreplay⟩
    dsimp only
    cases happ : app (contextRequestId starlette headers drawn) (replayReceive messages) with
    | none =>
      exact ⟨⟨fun h => (by cases h), fun h => absurd h.2 hended⟩, fun _ => ⟨hfits, _, hreplays, happ⟩,
        fun response h => by cases h⟩
    | some own =>
      refine ⟨⟨fun h => (by cases h), fun h => absurd h.2 hended⟩, fun h => (by cases h), fun response h => ?_⟩
      obtain rfl := Progress.answered.inj h
      exact ⟨fun hover => absurd hover hfits,
        fun _ => ⟨_, own, hreplays, happ, identifies_identified hid htiming own⟩⟩

/-- A header in place of the first one with its key, without the others, or else at the end. -/
def setRaw (key value : String) : Headers → Headers
  | [] => [(key, value)]
  | header :: rest =>
    if header.1 = key then (key, value) :: rest.filter (fun h => h.1 != key) else header :: setRaw key value rest

theorem filter_setRaw (key value other : String) (headers : Headers) :
    (setRaw key value headers).filter (fun h => h.1 == other) =
      if other = key then [(key, value)] else headers.filter (fun h => h.1 == other) := by
  induction headers with
  | nil =>
    by_cases hother : key = other
    · simp [setRaw, hother]
    · simp [setRaw, hother, Ne.symm hother]
  | cons header rest ih =>
    have hothers : (rest.filter fun h => h.1 != key).filter (fun h => h.1 == other) =
        if other = key then [] else rest.filter (fun h => h.1 == other) := by
      rw [List.filter_filter]
      split_ifs with hother
      · exact List.filter_eq_nil_iff.mpr fun h _ => by simp [hother]
      · exact List.filter_congr fun h _ => by by_cases hh : h.1 = other <;> simp [hh, hother]
    rw [setRaw]
    by_cases hsame : header.1 = key
    · rw [if_pos hsame, List.filter_cons, hothers, List.filter_cons, hsame]
      by_cases hother : other = key
      · simp [hother]
      · simp [hother, Ne.symm hother]
    · rw [if_neg hsame, List.filter_cons, ih, List.filter_cons]
      by_cases hother : other = key
      · simp [hother, hsame]
      · simp [hother]

/-- Starlette's headers, where they are lists of lower-cased names with their values. -/
def listHeaders : Starlette where
  get headers name := (headers.find? fun h => h.1 == utf8 name).map fun h =>
    String.ofList (h.2.map fun b => Char.ofNat b.toNat)
  initHeaders headers mediaType body := headers.map (fun h => (lowerAscii h.1, h.2)) ++
    [("content-length", toString body.length), ("content-type", mediaType)]
  getlist headers name := (headers.filter fun h => h.1 == lowerAscii name).map Prod.snd
  setitem headers name value := setRaw (lowerAscii name) value headers
  getlist_setitem headers name value other _ _ _ := by
    rw [filter_setRaw]
    split_ifs <;> rfl

/-- A body of five bytes in two messages, against a limit of four. -/
theorem exchange_exact_five : ∃ response,
    exchange listHeaders 4 [] "0" "app;dur=0" (fun _ _ => some ⟨200, [], []⟩)
      [.request (some [1, 2, 3]) (some true), .request (some [4, 5]) none] = .answered response ∧
    response.statusCode = 413 := by
  have hover : Oversized 4 [] [.request (some [1, 2, 3]) (some true), .request (some [4, 5]) none] := .inr (by decide)
  obtain ⟨-, hwaiting, hraised, hresponse⟩ := exchange_exact (fun _ => ⟨"0", 0⟩) listHeaders 4 []
    (by decide : requestIdRe ("req_" ++ "0") = true) (by decide : isAscii "app;dur=0" = true)
    (fun _ _ => some ⟨200, [], []⟩) [.request (some [1, 2, 3]) (some true), .request (some [4, 5]) none]
  cases h : exchange listHeaders 4 [] "0" "app;dur=0" (fun _ _ => some ⟨200, [], []⟩)
      [.request (some [1, 2, 3]) (some true), .request (some [4, 5]) none] with
  | waiting => exact absurd hover (hwaiting.mp h).1
  | raised => exact absurd hover (hraised h).1
  | answered response =>
    obtain ⟨-, hstatus, -⟩ := (hresponse response h).1 hover
    exact ⟨response, rfl, hstatus⟩

end Lucent.Hosted
