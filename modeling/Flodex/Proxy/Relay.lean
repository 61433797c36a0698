import Flodex.Agent.Anthropic
import Flodex.Node.Complete
import Flodex.Node.Stages
import Flodex.Proxy.Server

/-!
# A completion through the proxy

A request that a node gets as the proxy sent it, with the reply as the node sent it, is completed as
if the provider were asked directly: `openBox_out`, `completion_out` and `finish_out` are the three
ends of the way, and `relayed` puts them together. Where the provider is the hosted one, the proxy
is the Messages API to its callers (`messages_relayed`).
-/

namespace Flodex.Proxy

open Node Serde

variable {W : Type*} {node : Completer W} {coordUrl url status status' : String}
  {text text' : Option String} {backend : BackendType} {req : AnthropicMessagesRequest}
  {draw : Draw} {out : Outgoing} {nonce : Bytes 24} {w w' : W} {ciphertext : List UInt8}

/-- The coordinator's answer that names the node. -/
def naming (node : Completer W) (url status : String) (text : Option String) : Fetched JobMatch :=
  .ok ⟨true, status, text, .ok ⟨url, node.transport.b64Encode node.publicKey.toList⟩⟩

/-- The key of the proxy and the node. -/
def sharedKey (node : Completer W) (draw : Draw) : Bytes32 :=
  node.transport.deriveKey (node.transport.diffieHellman draw.secret node.publicKey)
    (sessionId node.transport draw)

/-- The request for the node. -/
def outgoing (node : Completer W) (url : String) (backend : BackendType) (draw : Draw)
    (ciphertext : List UInt8) : Outgoing where
  execUrl := url ++ "/proxy/complete"
  encReq :=
    { sessionId := sessionId node.transport draw
      clientPublicKey := node.transport.b64Encode (node.transport.publicKey draw.secret).toList
      nonce := node.transport.b64Encode draw.nonce.toList
      ciphertext := node.transport.b64Encode ciphertext
      backend := backend
      channelId := none
      prevAck := none }
  nodePub := node.publicKey
  key := sharedKey node draw

/-- What the proxy sends to the node that it is matched with. -/
theorem prepare_naming (lawful : node.transport.Lawful)
    (hseal : node.transport.encrypt (sharedKey node draw) draw.nonce (plaintext node.json req) =
      .ok ciphertext) :
    prepare node.transport node.json coordUrl backend req (naming node url status text) draw =
      .ok (outgoing node url backend draw ciphertext) := by
  have hpub : decodePubkey node.transport (node.transport.b64Encode node.publicKey.toList) =
      .ok node.publicKey := by
    simp only [decodePubkey, lawful.b64Decode, Except.mapError, bind, Except.bind,
      Bytes.ofList?_toList]
    rfl
  rw [sharedKey] at hseal
  simp only [prepare, naming, receiveJson, if_true, Except.mapError, bind, Except.bind, hpub, hseal]
  rfl

/-- The node derives the key of the proxy. -/
theorem deriveKey_out (lawful : node.transport.Lawful) (draw : Draw) :
    node.cfg.envelope.deriveKey (node.transport.publicKey draw.secret)
      (sessionId node.transport draw) = sharedKey node draw := by
  rw [node.envelope, Transport.envelope, sharedKey, Completer.publicKey, lawful.agree]

/-- The node opens what is sealed under the key of a client and the session. -/
theorem openBox_sealed (lawful : node.transport.Lawful) {enc : EncryptedRequest}
    {clientPub : Bytes32} {bytes : List UInt8}
    (hpub : enc.clientPublicKey = node.transport.b64Encode clientPub.toList)
    (hnonce : enc.nonce = node.transport.b64Encode nonce.toList)
    (hciphertext : enc.ciphertext = node.transport.b64Encode ciphertext)
    (hseal : node.transport.encrypt (node.cfg.envelope.deriveKey clientPub enc.sessionId) nonce
      bytes = .ok ciphertext) : openBox node.cfg enc = .ok (clientPub, bytes) := by
  have hclient : decodeClientPub node.cfg enc.clientPublicKey = .ok clientPub := by
    simp only [hpub, decodeClientPub, node.envelope, Transport.envelope, lawful.b64Decode,
      Except.mapError, bind, Except.bind, Bytes.ofList?_toList]
    rfl
  have hdecrypt := lawful.decrypt_encrypt hseal
  simp only [openBox, hclient, hnonce, hciphertext, bind, Except.bind]
  generalize node.cfg.envelope.deriveKey clientPub enc.sessionId = key at hdecrypt
  simp only [node.envelope, Transport.envelope, lawful.b64Decode, hdecrypt, Except.mapError]
  rfl

/-- It opens the request of the proxy. -/
theorem openBox_out (lawful : node.transport.Lawful)
    (hseal : node.transport.encrypt (sharedKey node draw) draw.nonce (plaintext node.json req) =
      .ok ciphertext) :
    openBox node.cfg (outgoing node url backend draw ciphertext).encReq =
      .ok (node.transport.publicKey draw.secret, plaintext node.json req) := by
  rw [← deriveKey_out lawful] at hseal
  exact openBox_sealed lawful rfl rfl rfl hseal

/-- What the node reads is the conversation, but for its floats. -/
theorem chat_out (faithful : node.json.Faithful)
    (hread : (node.json.read (plaintext node.json req)).isSome) :
    node.json.fromSlice "ChatRequest" ChatRequest.ofValue (plaintext node.json req) =
      .ok ((chatRequest req).mapFloats node.json.reread) := by
  obtain ⟨v, hv⟩ := Option.isSome_iff_exists.1 hread
  obtain rfl := faithful _ v hv
  simp only [JsonText.fromSlice, hv, Option.bind_some, ChatRequest.ofValue_toValue, orThrow,
    Option.elim_some]

/-- The node has the provider complete it. -/
theorem completion_out (lawful : node.transport.Lawful) (faithful : node.json.Faithful)
    (hseal : node.transport.encrypt (sharedKey node draw) draw.nonce (plaintext node.json req) =
      .ok ciphertext)
    (hread : (node.json.read (plaintext node.json req)).isSome) {agent : AgentLoop W}
    (hagent : agentOf node.cfg backend = .ok agent) {result : ChatResult}
    (hcomplete : agent.complete w ((chatRequest req).mapFloats node.json.reread) =
      (.ok result, w')) :
    completion node (outgoing node url backend draw ciphertext).encReq w =
      (.ok (node.transport.publicKey draw.secret, plaintext node.json req, result), w') := by
  have hopen : openChat node (outgoing node url backend draw ciphertext).encReq =
      .ok (node.transport.publicKey draw.secret, plaintext node.json req,
        (chatRequest req).mapFloats node.json.reread) := by
    simp only [openChat, openBox_out lawful hseal, chat_out faithful hread, bind, Except.bind,
      Except.mapError]
    rfl
  have hagent' : agentOf node.cfg (outgoing node url backend draw ciphertext).encReq.backend =
    .ok agent := hagent
  simp only [completion, hopen, hagent', hcomplete]

/-- The reply of the node. -/
def incoming (node : Completer W) (draw : Draw) (nonce : Bytes 24) (ciphertext : List UInt8) :
    EncryptedResponse :=
  ⟨sessionId node.transport draw, node.transport.b64Encode nonce.toList,
    node.transport.b64Encode ciphertext, none⟩

theorem sealResult_out (lawful : node.transport.Lawful) {sent received : List UInt8}
    {result : ChatResult}
    (hseal : node.transport.encrypt (sharedKey node draw) nonce (node.json.write result.toValue) =
      .ok received) :
    sealResult node (outgoing node url backend draw sent).encReq
      (node.transport.publicKey draw.secret) nonce result =
        .ok (incoming node draw nonce received) := by
  simp only [sealResult, outgoing, deriveKey_out lawful, hseal, Except.mapError, bind,
    Except.bind]
  rfl

/-- The proxy opens it. -/
theorem openReply_out (lawful : node.transport.Lawful) {sent received bytes : List UInt8}
    (hseal : node.transport.encrypt (sharedKey node draw) nonce bytes = .ok received) :
    openReply node.transport (outgoing node url backend draw sent)
      (.ok ⟨true, status, text, .ok (incoming node draw nonce received)⟩) = .ok bytes := by
  have hdecrypt := lawful.decrypt_encrypt hseal
  simp only [openReply, receiveJson, if_true, incoming, outgoing, lawful.b64Decode, hdecrypt,
    Except.mapError, bind, Except.bind]

/-- The result in it is put into a message. -/
theorem finish_out (lawful : node.transport.Lawful) (faithful : node.json.Faithful)
    {sent received : List UInt8} {result : ChatResult}
    (hseal : node.transport.encrypt (sharedKey node draw) nonce (node.json.write result.toValue) =
      .ok received)
    (hread : (node.json.read (node.json.write result.toValue)).isSome) (id : Bytes 12) :
    finish node.transport node.json backend req (outgoing node url backend draw sent)
      (.ok ⟨true, status, text, .ok (incoming node draw nonce received)⟩) id =
        .ok (repackage backend req.model id (result.mapFloats node.json.reread)) := by
  obtain ⟨v, hv⟩ := Option.isSome_iff_exists.1 hread
  obtain rfl := faithful _ v hv
  have hparse : parseResult node.json (node.json.write result.toValue) =
      .ok (result.mapFloats node.json.reread) := by
    simp only [parseResult, JsonText.fromSlice, hv, Option.bind_some, ChatResult.ofValue_toValue,
      orThrow, Option.elim_some, Except.mapError]
  simp only [finish, openReply_out lawful hseal, hparse, bind, Except.bind]
  rfl

/-- **The proxy answers as the provider.** -/
theorem relayed (lawful : node.transport.Lawful) (faithful : node.json.Faithful)
    {agent : AgentLoop W} (hagent : agentOf node.cfg backend = .ok agent) {result : ChatResult}
    (hcomplete : agent.complete w ((chatRequest req).mapFloats node.json.reread) =
      (.ok result, w'))
    {sent received : List UInt8}
    (hsent : node.transport.encrypt (sharedKey node draw) draw.nonce (plaintext node.json req) =
      .ok sent)
    (hreceived : node.transport.encrypt (sharedKey node draw) nonce
      (node.json.write result.toValue) = .ok received)
    (hread : (node.json.read (plaintext node.json req)).isSome)
    (hread' : (node.json.read (node.json.write result.toValue)).isSome) (id : Bytes 12) :
    ∃ out resp, prepare node.transport node.json coordUrl backend req
        (naming node url status text) draw = .ok out ∧
      proxyComplete node out.encReq w nonce = (.ok resp, w') ∧
      finish node.transport node.json backend req out (.ok ⟨true, status', text', .ok resp⟩) id =
        .ok (repackage backend req.model id (result.mapFloats node.json.reread)) := by
  refine ⟨_, _, prepare_naming lawful hsent, ?_, finish_out lawful faithful hreceived hread' id⟩
  simp only [proxyComplete, completion_out lawful faithful hsent hread hagent hcomplete,
    sealResult_out lawful hreceived]

/-! ## The hosted provider -/

/-- What the API is asked for a request of a caller. -/
def apiRequest (json : JsonText) (model : String) (req : AnthropicMessagesRequest) : Value :=
  .object [("model", .string model), ("max_tokens", ofU32 (req.maxTokens.getD 4096)),
    ("messages", .array (req.messages.map (Value.mapFloats json.reread))),
    ("system", .array [.object [("cache_control", .object [("type", .string "ephemeral")]),
      ("text", .string (flattenSystem req.system)), ("type", .string "text")]]),
    ("tools", .array (req.tools.map (Value.mapFloats json.reread))),
    ("thinking", .object [("type", .string "adaptive")])]

/-- What a caller reads in a message: the content, the stop reason and the usage of a response. -/
structure Relays (json : JsonText) (resp : MessagesResponse) (body : Value) : Prop where
  content : body.getArray "content" = some (resp.content.map (Value.mapFloats json.reread))
  stopReason : body.getStr "stop_reason" = some resp.stopReason
  usage : (body.get "usage").bind anthropicUsage = some resp.usage

theorem toValue_messagesRequest (provider : AnthropicProvider W) (json : JsonText)
    (req : AnthropicMessagesRequest) :
    (provider.messagesRequest ((chatRequest req).mapFloats json.reread)).toValue =
      apiRequest json provider.model req := by
  simp only [AnthropicProvider.messagesRequest, chatRequest, ChatRequest.mapFloats,
    MessagesRequest.toValue, apiRequest, Option.map_some, Option.toList_some, List.cons_append,
    List.nil_append]

/-- The counters are read as they are written, and `null` as none. -/
theorem anthropicUsage_repackage (backend : BackendType) (model : Option String) (id : Bytes 12)
    (result : ChatResult) :
    ((repackage backend model id result).get "usage").bind anthropicUsage = some result.usage := by
  obtain ⟨content, stopReason, ⟨i, o, c, r⟩⟩ := result
  have hcounter : ∀ n : Option UInt32, optU32 (some (counter n)) = some n := by
    rintro (_ | n)
    · rfl
    · exact optU32_ofU32 n
  change anthropicUsage (.object [("cache_creation_input_tokens", counter c),
    ("cache_read_input_tokens", counter r), ("input_tokens", ofU32 i),
    ("output_tokens", ofU32 o)]) = _
  simp only [anthropicUsage, defaulted]
  -- the names first, since the text of a name is long to compare
  simp only [named, String.reduceEq, ↓reduceIte]
  simp [atMostOne, hcounter]

/-- **The proxy is the Messages API** to its callers, where the node's provider is: the API is asked
once, for the conversation and the tools of the request, and what it answers is in the message. -/
theorem messages_relayed (lawful : node.transport.Lawful) (faithful : node.json.Faithful)
    {agent : AgentLoop W} (hagent : agentOf node.cfg backend = .ok agent)
    {provider : AnthropicProvider W} (hprovider : agent.provider = provider.complete node.json)
    {res : TextResponse} {resp : MessagesResponse}
    (hposted : provider.client.post w AnthropicClient.apiUrl provider.client.headers
      (apiRequest node.json provider.model req) = (.ok res, w'))
    (hresp : AnthropicClient.readResponse node.json res = .ok resp)
    {sent received : List UInt8}
    (hsent : node.transport.encrypt (sharedKey node draw) draw.nonce (plaintext node.json req) =
      .ok sent)
    (hreceived : node.transport.encrypt (sharedKey node draw) nonce
      (node.json.write (ChatResult.toValue ⟨resp.content, resp.stopReason, resp.usage⟩)) =
        .ok received)
    (hread : (node.json.read (plaintext node.json req)).isSome)
    (hread' : (node.json.read (node.json.write
      (ChatResult.toValue ⟨resp.content, resp.stopReason, resp.usage⟩))).isSome) (id : Bytes 12) :
    ∃ out reply body, prepare node.transport node.json coordUrl backend req
        (naming node url status text) draw = .ok out ∧
      proxyComplete node out.encReq w nonce = (.ok reply, w') ∧
      finish node.transport node.json backend req out (.ok ⟨true, status', text', .ok reply⟩) id =
        .ok body ∧ Relays node.json resp body := by
  have hcomplete : agent.complete w ((chatRequest req).mapFloats node.json.reread) =
      (.ok ⟨resp.content, resp.stopReason, resp.usage⟩, w') := by
    rw [← toValue_messagesRequest] at hposted
    rw [AgentLoop.complete, hprovider, AnthropicProvider.complete_of_post hposted hresp]
  obtain ⟨out, reply, hout, hreply, hbody⟩ := relayed lawful faithful hagent
    hcomplete hsent hreceived hread hread' id
  refine ⟨out, reply, _, hout, hreply, hbody, rfl, rfl, ?_⟩
  exact anthropicUsage_repackage ..

/-! ## A node with the hosted provider -/

namespace Deployment

open Text

/-- What the caller says. -/
def greeting : Value := .object [("content", .string "hi"), ("role", .string "user")]

def conversation : ChatRequest := ⟨"", [greeting], [], 4096⟩

/-- The block that the provider answers. -/
def hello : Value := .object [("text", .string "hello"), ("type", .string "text")]

def result : ChatResult := ⟨[hello], "end_turn", ⟨10, 2, none, none⟩⟩

def response : AgentResponse := .final "hello" ⟨10, 2, none, none⟩

/-- The fields of a step that a page sends. -/
def promptFields : List (String × Value) := [("type", .string "prompt"), ("prompt", .string "hi")]

/-- The body of the answer of the API. -/
def apiBody : Value :=
  .object [("content", .array [hello]), ("stop_reason", .string "end_turn"),
    ("usage", .object [("input_tokens", .number (.posInt 10)),
      ("output_tokens", .number (.posInt 2))])]

def chatJson : String :=
  "\x7b\"system\":\"\",\"messages\":[\x7b\"content\":\"hi\",\"role\":\"user\"\x7d]," ++
    "\"tools\":[],\"max_tokens\":4096\x7d"

def resultJson : String :=
  "\x7b\"content\":[\x7b\"text\":\"hello\",\"type\":\"text\"\x7d]," ++
    "\"stop_reason\":\"end_turn\",\"usage\":\x7b\"inputTokens\":10,\"outputTokens\":2\x7d\x7d"

def finalJson : String :=
  "\x7b\"type\":\"final\",\"content\":\"hello\"," ++
    "\"usage\":\x7b\"inputTokens\":10,\"outputTokens\":2\x7d\x7d"

def stepJson : String := "\x7b\"type\":\"prompt\",\"prompt\":\"hi\"\x7d"

def apiJson : String :=
  "\x7b\"content\":[\x7b\"text\":\"hello\",\"type\":\"text\"\x7d]," ++
    "\"stop_reason\":\"end_turn\",\"usage\":\x7b\"input_tokens\":10,\"output_tokens\":2\x7d\x7d"

/-- The texts that are read. -/
def texts : List (String × Value) :=
  [(chatJson, conversation.toValue), (resultJson, result.toValue), (finalJson, response.toValue),
    (stepJson, .object promptFields), (apiJson, apiBody)]

/-- The bytes of a text, which no proof computes. -/
@[irreducible] def bytesOf (text : String) : List UInt8 := utf8 text.toList

theorem bytesOf_injective : Function.Injective bytesOf := by
  intro s t h
  rw [bytesOf, bytesOf] at h
  exact String.toList_injective (utf8_injective h)

def readText (bytes : List UInt8) : Option Value :=
  (texts.find? fun x => bytesOf x.1 = bytes).map Prod.snd

def writeText : Value → List UInt8
  | .object [("system", .string ""),
      ("messages", .array [.object [("content", .string "hi"), ("role", .string "user")]]),
      ("tools", .array []), ("max_tokens", .number (.posInt 4096))] => bytesOf chatJson
  | .object [("content", .array [.object [("text", .string "hello"), ("type", .string "text")]]),
      ("stop_reason", .string "end_turn"), ("usage", .object
        [("inputTokens", .number (.posInt 10)), ("outputTokens", .number (.posInt 2))])] =>
    bytesOf resultJson
  | .object [("type", .string "final"), ("content", .string "hello"), ("usage", .object
      [("inputTokens", .number (.posInt 10)), ("outputTokens", .number (.posInt 2))])] =>
    bytesOf finalJson
  | _ => []

def json : JsonText where
  write := writeText
  read := readText
  complaint type _ := "not a " ++ type
  reread bits := bits

theorem read_json : json.read = readText := rfl

theorem writeText_cases (v : Value) : (v = conversation.toValue ∧ writeText v = bytesOf chatJson) ∨
    (v = result.toValue ∧ writeText v = bytesOf resultJson) ∨
    (v = response.toValue ∧ writeText v = bytesOf finalJson) ∨ writeText v = [] := by
  unfold writeText
  split
  · exact .inl ⟨rfl, rfl⟩
  · exact .inr (.inl ⟨rfl, rfl⟩)
  · exact .inr (.inr (.inl ⟨rfl, rfl⟩))
  · exact .inr (.inr (.inr rfl))

theorem distinct_texts : (texts.map Prod.fst).Nodup := by decide +kernel

theorem readText_of_mem {text : String} {v : Value} (h : (text, v) ∈ texts) :
    readText (bytesOf text) = some v := by
  have hfind : texts.find? (fun x => bytesOf x.1 = bytesOf text) = some (text, v) := by
    obtain ⟨before, after, hsplit⟩ := List.append_of_mem h
    have distinct := distinct_texts
    simp only [hsplit, List.map_append, List.map_cons, List.nodup_append, List.mem_map] at distinct
    refine List.find?_eq_some_iff_append.2 ⟨by simp, before, after, hsplit, fun x hx => ?_⟩
    have hne := distinct.2.2 x.1 ⟨x, hx, rfl⟩ text (.head _)
    simpa [bytesOf_injective.eq_iff] using hne
  rw [readText, hfind]
  rfl

theorem readText_chat : readText (bytesOf chatJson) = some conversation.toValue :=
  readText_of_mem (.head _)

theorem readText_result : readText (bytesOf resultJson) = some result.toValue :=
  readText_of_mem (.tail _ (.head _))

theorem readText_final : readText (bytesOf finalJson) = some response.toValue :=
  readText_of_mem (.tail _ (.tail _ (.head _)))

theorem readText_api : readText (bytesOf apiJson) = some apiBody :=
  readText_of_mem (.tail _ (.tail _ (.tail _ (.tail _ (.head _)))))

theorem bytesOf_empty : bytesOf "" = [] := by
  rw [bytesOf, String.toList_empty, utf8, List.flatMap_nil]

theorem readText_nil : readText [] = none := by
  have hne : ∀ x ∈ texts, x.1 ≠ "" := by decide +kernel
  rw [readText, Option.map_eq_none_iff, List.find?_eq_none]
  intro x hx
  simpa [← bytesOf_empty, bytesOf_injective.eq_iff] using hne x hx

theorem faithful_json : json.Faithful := by
  intro v w hread
  change readText (writeText v) = some w at hread
  change w = v.mapFloats fun bits => bits
  obtain ⟨rfl, hwrite⟩ | ⟨rfl, hwrite⟩ | ⟨rfl, hwrite⟩ | hwrite := writeText_cases v
  · rw [hwrite, readText_chat, Option.some.injEq] at hread
    simp [← hread, conversation, greeting, ChatRequest.toValue, Value.mapFloats,
      Value.mapFloatsFields_eq, Value.mapFloatsItems_eq]
  · rw [hwrite, readText_result, Option.some.injEq] at hread
    simp [← hread, result, hello, ChatResult.toValue, Value.mapFloats, Value.mapFloatsFields_eq,
      Value.mapFloatsItems_eq]
  · rw [hwrite, readText_final, Option.some.injEq] at hread
    simp [← hread, response, AgentResponse.toValue, Value.mapFloats, Value.mapFloatsFields_eq]
  · rw [hwrite, readText_nil] at hread
    cases hread

/-- Keys that depend on the session, and texts in the open after the key. -/
def transport : Transport where
  publicKey secret := secret
  diffieHellman a b := ⟨List.zipWith (· + ·) a.toList b.toList, by simp⟩
  hkdf salt secret info := ⟨(secret.toList ++ (salt ++ info)).take 32, by simp⟩
  aeadSeal key _ plaintext := .ok (key.toList ++ plaintext)
  aeadOpen key _ ciphertext :=
    if ciphertext.take 32 = key.toList then .ok (ciphertext.drop 32) else .error "aead::Error"
  b64Encode bytes := String.ofList (hexEncode bytes)
  b64Decode s := (hexDecode (utf8 s.toList)).mapError fun _ => "invalid text"

theorem encrypt_transport (key : Bytes32) (nonce : Bytes 24) (plaintext : List UInt8) :
    transport.encrypt key nonce plaintext = .ok (key.toList ++ plaintext) := rfl

theorem lawful_transport : transport.Lawful where
  b64Decode bytes := by
    simp only [transport, String.toList_ofList, hexDecode_hexEncode, Except.mapError]
  agree a b := by
    have hsum : List.zipWith (· + ·) a.toList b.toList = List.zipWith (· + ·) b.toList a.toList :=
      List.zipWith_comm_of_comm UInt8.add_comm
    exact Bytes.ext hsum
  aeadOpen key nonce plaintext ciphertext hseal := by
    obtain rfl := Except.ok.inj hseal
    have hlength : key.toList.length = 32 := key.length_toList
    simp only [transport, List.take_left' hlength, if_true, List.drop_left' hlength]

/-- The API answers every request alike. The world is what it was asked. -/
def provider : AnthropicProvider (List Value) where
  client := ⟨"key", fun asked _ _ body => (.ok ⟨true, "200 OK", .ok apiJson⟩, asked ++ [body])⟩
  model := "claude"

def claude : AgentLoop (List Value) where
  provider := provider.complete json
  maxTokens := 16000
  systemPrompt := ""
  registry := []

def secret : Bytes32 := .replicate 32 1

def claudeNode : Completer (List Value) where
  cfg := { Node.Deployment.node claude with
    envelope := transport.envelope json secret
    mockTee := some claude }
  transport := transport
  json := json
  secret := secret
  envelope := rfl

def greet : AnthropicMessagesRequest := ⟨none, [greeting], none, .null, []⟩

def drawn : Draw := ⟨.replicate 32 2, .replicate 12 3, .replicate 24 4⟩

theorem readResponse_api : AnthropicClient.readResponse json ⟨true, "200 OK", .ok apiJson⟩ =
    .ok ⟨[hello], "end_turn", ⟨10, 2, none, none⟩⟩ := by
  have hread := readText_api
  rw [bytesOf, ← read_json] at hread
  exact AnthropicClient.readResponse_of_read hread rfl

theorem provider_claude (asked : List Value) (r : ChatRequest) : claude.provider asked r =
    (.ok result, asked ++ [(provider.messagesRequest r).toValue]) := by
  have hpost : provider.client.post asked AnthropicClient.apiUrl provider.client.headers
      (provider.messagesRequest r).toValue =
        (.ok ⟨true, "200 OK", .ok apiJson⟩, asked ++ [(provider.messagesRequest r).toValue]) := rfl
  have hclaude : claude.provider = provider.complete json := rfl
  rw [hclaude, AnthropicProvider.complete_of_post hpost readResponse_api]
  rfl

theorem plaintext_greet : plaintext json greet = bytesOf chatJson := rfl

theorem write_result : json.write result.toValue = bytesOf resultJson := rfl

/-- A text, sealed. -/
def sealedText (text : List UInt8) : List UInt8 := (sharedKey claudeNode drawn).toList ++ text

theorem seal_sent : transport.encrypt (sharedKey claudeNode drawn) drawn.nonce
    (plaintext json greet) = .ok (sealedText (bytesOf chatJson)) := by
  rw [plaintext_greet, encrypt_transport, sealedText]

theorem seal_received : transport.encrypt (sharedKey claudeNode drawn) drawn.nonce
    (json.write result.toValue) = .ok (sealedText (bytesOf resultJson)) := by
  rw [write_result, encrypt_transport, sealedText]

theorem isSome_read_sent : (json.read (plaintext json greet)).isSome := by
  rw [plaintext_greet, read_json, readText_chat]
  rfl

theorem isSome_read_received : (json.read (json.write result.toValue)).isSome := by
  rw [write_result, read_json, readText_result]
  rfl

end Deployment

open Deployment in
/-- The API is asked for the greeting, and its block is in the message. -/
theorem messages_relayed_claude : ∃ out reply body,
    prepare transport json "http://coordinator" .MockTee greet
      (naming claudeNode "http://node" "200 OK" none) drawn = .ok out ∧
    proxyComplete claudeNode out.encReq [] drawn.nonce =
      (.ok reply, [apiRequest json "claude" greet]) ∧
    finish transport json .MockTee greet out (.ok ⟨true, "200 OK", none, .ok reply⟩)
      (.replicate 12 5) = .ok body ∧ body.getArray "content" = some [hello] := by
  obtain ⟨out, reply, body, hout, hreply, hbody, relays⟩ := @messages_relayed _ claudeNode
    "http://coordinator" "http://node" "200 OK" "200 OK" none none .MockTee greet drawn drawn.nonce
    [] _ lawful_transport faithful_json claude rfl provider rfl _ _ rfl readResponse_api _ _
    seal_sent seal_received isSome_read_sent isSome_read_received (.replicate 12 5)
  exact ⟨out, reply, body, hout, hreply, hbody, relays.content⟩

end Flodex.Proxy
