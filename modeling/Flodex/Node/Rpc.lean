import Flodex.Agent.Value
import Flodex.Crypto.Scheme
import Flodex.Foundations.Checked
import Flodex.Foundations.Traced

/-!
# The JSON-RPC client of a node

What a node asks of an Ethereum endpoint, and how it reads the replies. The endpoint answers as it
likes, with a view of everything it was asked, or the request fails; the clock is part of what the
node looks at, and a sleep moves it.

Every query is one request (`query_apply`), whose reply decides the result. `waitForReceipt` asks
again until the transaction is mined or the time is over: `waitForReceipt_cases` is what it can do,
and it never asks more than `polls` times.
-/

namespace Flodex.Eth.Rpc

open Text (utf8 hexEncode)

/-! ## Errors -/

/-- Why a text is not a number. -/
inductive IntErrorKind
  | empty
  | invalidDigit
  | posOverflow
  deriving DecidableEq, Repr

/-- What an error comes from. The last is none of the code: a loop whose fuel is used up. -/
inductive Cause
  | message (text : String)
  | library (text : String)
  | parseInt (kind : IntErrorKind)
  | fromHex (e : Text.FromHexError)
  | unfinished
  deriving DecidableEq, Repr

/-- An error with what was being done, outermost first. -/
structure Error where
  context : List String
  cause : Cause
  deriving DecidableEq, Repr

/-- `anyhow!`. -/
def Error.message (text : String) : Error := ⟨[], .message text⟩

/-- The error in a wider context. -/
def Error.within (text : String) (e : Error) : Error := { e with context := text :: e.context }

/-! ## Quantities -/

def addrHex (addr : Address) : String := .ofList ('0' :: 'x' :: hexEncode addr.toList)

def bytesHex (bytes : List UInt8) : String := .ofList ('0' :: 'x' :: hexEncode bytes)

def uintHex (v : BitVec 128) : String :=
  if v = 0 then "0x0" else .ofList ('0' :: 'x' :: Nat.toDigits 16 v.toNat)

/-- One digit of `from_str_radix`. -/
def hexStep (bound acc : ℕ) (c : Char) : Except IntErrorKind ℕ := do
  let x ← orThrow (if c.toNat < 128 then Text.hexVal (.ofNat c.toNat) else none) .invalidDigit
  require (16 * acc + x < bound) .posOverflow
  pure (16 * acc + x)

/-- `from_str_radix` with the radix 16. -/
def fromStrRadix (bound : ℕ) (s : List Char) : Except IntErrorKind ℕ :=
  let digits := match s with
    | '+' :: s => s
    | s => s
  if s = [] then .error .empty
  else if digits = [] then .error .invalidDigit
  else digits.foldlM (hexStep bound) 0

/-- `parse_hex_u64` and `parse_hex_u128`, by the width of their type. -/
def parseHex (w : ℕ) (s : String) : Except Error (BitVec w) :=
  let stripped := Text.stripPrefix s.toList
  if stripped = [] then .ok 0
  else ((fromStrRadix (2 ^ w) stripped).mapError fun e =>
    ⟨[s!"parse u{w} hex: {s}"], .parseInt e⟩).map (BitVec.ofNat w)

def parseHexU64 (s : String) : Except Error UInt64 := (parseHex 64 s).map UInt64.ofBitVec

def parseHexU128 (s : String) : Except Error (BitVec 128) := parseHex 128 s

def parseHexBytes (s : String) : Except Error (List UInt8) :=
  (Text.hexDecode (utf8 (Text.stripPrefix s.toList))).mapError fun e =>
    ⟨[s!"parse bytes hex: {s}"], .fromHex e⟩

theorem parseHexBytes_bytesHex (bytes : List UInt8) :
    parseHexBytes (bytesHex bytes) = .ok bytes := by
  have hstrip : Text.stripPrefix (bytesHex bytes).toList = hexEncode bytes := by
    rw [bytesHex, String.toList_ofList]
    rfl
  rw [parseHexBytes, hstrip, Text.hexDecode_hexEncode]
  rfl

/-! ## Requests -/

/-- What the client does. -/
inductive Effect
  | post (url : String) (body : Value)
  | sleep (seconds : ℕ)

/-- The reply to a request, if one arrives: a status, and a body if it can be read. -/
abbrev Reply := Except String (ℕ × Except String String)

/-- What the client runs among: the endpoint, which answers the last request of a history, the
libraries that read and write JSON and the names of the statuses, and a clock in nanoseconds.

That `reply` is total is an assumption: reqwest has no timeout here, so a request that is neither
answered nor fails leaves the client waiting. The reply is the one after the redirects, if any, that
reqwest follows by itself: an effect is a request that the code makes. -/
structure Env where
  reply : List Effect → Reply
  fromStr : String → Except String Value
  display : Value → String
  displayStatus : ℕ → String
  now : List Effect → ℕ
  now_post : ∀ h url body, now h ≤ now (h ++ [.post url body])
  now_sleep : ∀ h seconds, now h + seconds * 10 ^ 9 ≤ now (h ++ [.sleep seconds])

/-- A computation of the client. -/
abbrev Client := Traced Effect Error

/-- `with_context`. -/
def withContext {α : Type} (text : String) (x : Client α) : Client α :=
  x.handle fun e => .fail (e.within text)

/-- The body of a request. -/
def requestBody (method : String) (params : List Value) : Value := .object [
  ("id", .number (.posInt 1)),
  ("jsonrpc", .string "2.0"),
  ("method", .string method),
  ("params", .array params)]

/-- The client of an endpoint. -/
structure EthRpc where
  url : String

variable (E : Env) (rpc : EthRpc)

/-- What `call` makes of a reply. -/
def readReply (method : String) (reply : Reply) : Except Error Value := do
  let (status, body) ← reply.mapError fun e =>
    ⟨[s!"rpc {method} POST {rpc.url} failed"], .library e⟩
  let text ← body.mapError fun e => ⟨[s!"rpc {method} body read"], .library e⟩
  require (200 ≤ status ∧ status < 300)
    (.message s!"rpc {method} HTTP {E.displayStatus status}: {text}")
  let v ← (E.fromStr text).mapError fun e => ⟨[s!"rpc {method} parse: {text}"], .library e⟩
  match v.get "error" with
  | some err => .error (.message s!"rpc {method} error: {E.display err}")
  | none => orThrow (v.get "result") (.message s!"rpc {method}: no result field in {text}")

/-- A request. -/
def request (method : String) (params : List Value) : Effect :=
  .post rpc.url (requestBody method params)

def call (method : String) (params : List Value) : Client Value := do
  Traced.perform (request rpc method params)
  Traced.ask fun h => readReply E rpc method (E.reply h)

/-- The text of a result. -/
def text (v : Value) (missing : String) : Except Error String := orThrow v.asStr (.message missing)

/-- A request whose result is read by `read`. -/
def query {α : Type} (method : String) (params : List Value) (read : Value → Except Error α) :
    Client α := do
  let v ← call E rpc method params
  .ofExcept (read v)

def chainId : Client UInt64 :=
  query E rpc "eth_chainId" [] fun v => do parseHexU64 (← text v "chainId: not string")

def nonce (addr : Address) : Client UInt64 :=
  query E rpc "eth_getTransactionCount" [.string (addrHex addr), .string "pending"] fun v => do
    parseHexU64 (← text v "nonce: not string")

def maxPriorityFeePerGas : Client (BitVec 128) :=
  query E rpc "eth_maxPriorityFeePerGas" [] fun v => do
    parseHexU128 (← text v "priority fee: not string")

def pendingBaseFee : Client (BitVec 128) :=
  query E rpc "eth_getBlockByNumber" [.string "pending", .bool false] fun v => do
    parseHexU128 (← orThrow (v.getStr "baseFeePerGas")
      (.message "pending block has no baseFeePerGas"))

def estimateGas (sender toAddress : Address) (data : List UInt8) (value : BitVec 128) :
    Client UInt64 :=
  query E rpc "eth_estimateGas" [.object [
    ("data", .string (bytesHex data)),
    ("from", .string (addrHex sender)),
    ("to", .string (addrHex toAddress)),
    ("value", .string (uintHex value))]] fun v => do
      parseHexU64 (← text v "estimate_gas: not string")

/-- The transaction object of `eth_call`, whose keys are in order. -/
def callObject (toAddress : Address) (data : List UInt8) (sender : Option Address) : Value :=
  let tx := Value.object []
  let tx := tx.set "to" (.string (addrHex toAddress))
  let tx := tx.set "data" (.string (bytesHex data))
  match sender with
  | some f => tx.set "from" (.string (addrHex f))
  | none => tx

/-- What `eth_call` reads. -/
def readCall (v : Value) : Except Error (List UInt8) := do
  parseHexBytes (← text v "eth_call: not string")

def ethCall (toAddress : Address) (data : List UInt8) (sender : Option Address) :
    Client (List UInt8) :=
  query E rpc "eth_call" [callObject toAddress data sender, .string "latest"] readCall

/-- What `send_raw` reads. -/
def readHash (v : Value) : Except Error Bytes32 := do
  let s ← text v "send_raw: not string"
  let bytes ← parseHexBytes s
  orThrow (Bytes.ofList? 32 bytes) (.message s!"send_raw: hash not 32 bytes: {s}")

def sendRaw (raw : List UInt8) : Client Bytes32 :=
  query E rpc "eth_sendRawTransaction" [.string (bytesHex raw)] readHash

/-- What `receipt_status` reads. -/
def readStatus (v : Value) : Except Error (Option Bool) :=
  match v with
  | .null => .ok none
  | v => do
    let statusStr ← orThrow (v.getStr "status") (.message "receipt missing status")
    let status ← parseHexU64 statusStr
    pure (some (status = 1))

/-- `Some(success)` once mined, `None` while pending. -/
def receiptStatus (hash : Bytes32) : Client (Option Bool) :=
  query E rpc "eth_getTransactionReceipt" [.string (bytesHex hash.toList)] readStatus

/-- The loop of `wait_for_receipt`. -/
def pollReceipt (hash : Bytes32) (pollInterval timeout start : ℕ) : ℕ → Client Unit
  | 0 => .fail ⟨[], .unfinished⟩
  | fuel + 1 => do
    match ← receiptStatus E rpc hash with
    | some true => pure ()
    | some false => .fail (.message (s!"tx {bytesHex hash.toList} reverted on-chain"))
    | none =>
      let elapsed ← .ask fun h => .ok (E.now h - start)
      if timeout * 10 ^ 9 ≤ elapsed then
        .fail (.message (s!"tx {bytesHex hash.toList} not mined within {timeout}s"))
      else do
        Traced.perform (.sleep pollInterval)
        pollReceipt hash pollInterval timeout start fuel

/-- How often `wait_for_receipt` asks at most. -/
def polls (pollInterval timeout : ℕ) : ℕ := (timeout + pollInterval - 1) / pollInterval + 1

/-- Block until the transaction is mined. -/
def waitForReceipt (hash : Bytes32) (pollInterval timeout : ℕ) : Client Unit := do
  let start ← .ask fun h => .ok (E.now h)
  pollReceipt E rpc hash pollInterval timeout start (polls pollInterval timeout)

/-! ## Queries -/

variable {E rpc} {α : Type} {method : String} {params : List Value} {read : Value → Except Error α}
  {h es : List Effect} {hash : Bytes32} {pollInterval timeout start fuel : ℕ}

/-- **A query is one request**, and its reply is the result. -/
theorem query_apply : query E rpc method params read h =
    (readReply E rpc method (E.reply (h ++ [request rpc method params])) >>= read,
      [request rpc method params]) := by
  have hcall : call E rpc method params h =
      (readReply E rpc method (E.reply (h ++ [request rpc method params])),
        [request rpc method params]) := rfl
  cases hreply : readReply E rpc method (E.reply (h ++ [request rpc method params])) with
  | error e => exact Traced.bind_of_error (by rw [hcall, hreply])
  | ok v =>
    rw [query, Traced.bind_of_ok (a := v) (by rw [hcall, hreply])]
    simp [bind, Except.bind]

/-- An error of the code. -/
def Error.Genuine (e : Error) : Prop := e.cause ≠ .unfinished

theorem readReply_genuine (reply : Reply) :
    FailsWith Error.Genuine (readReply E rpc method reply) := by
  refine .bind (.mapError fun _ _ => nofun) fun ⟨status, body⟩ _ => .bind
    (.mapError fun _ _ => nofun) fun _ _ => .bind (.require fun _ => nofun) fun _ _ =>
      .bind (.mapError fun _ _ => nofun) fun v _ => ?_
  cases v.get "error" with
  | none => exact .orThrow fun _ => nofun
  | some err =>
    intro e he
    obtain rfl := Except.error.inj he
    nofun

theorem parseHex_genuine (w : ℕ) (s : String) : FailsWith Error.Genuine (parseHex w s) := by
  intro e he
  simp only [parseHex] at he
  split_ifs at he
  cases hparse : fromStrRadix (2 ^ w) (Text.stripPrefix s.toList) with
  | ok n => simp [hparse, Except.map, Except.mapError] at he
  | error kind =>
    simp only [hparse, Except.map, Except.mapError, Except.error.injEq] at he
    subst he
    nofun

theorem parseHexU64_genuine (s : String) : FailsWith Error.Genuine (parseHexU64 s) := by
  intro e he
  refine parseHex_genuine 64 s e ?_
  cases hparse : parseHex 64 s with
  | ok n => simp [parseHexU64, hparse, Except.map] at he
  | error e' => simpa [parseHexU64, hparse, Except.map] using he

theorem text_genuine (v : Value) (missing : String) :
    FailsWith Error.Genuine (text v missing) := .orThrow fun _ => nofun

theorem readCall_genuine (v : Value) : FailsWith Error.Genuine (readCall v) :=
  .bind (text_genuine v _) fun _ _ => .mapError fun _ _ => nofun

theorem readHash_genuine (v : Value) : FailsWith Error.Genuine (readHash v) :=
  .bind (text_genuine v _) fun _ _ => .bind (.mapError fun _ _ => nofun) fun _ _ =>
    .orThrow fun _ => nofun

theorem readStatus_genuine (v : Value) : FailsWith Error.Genuine (readStatus v) := by
  unfold readStatus
  split
  · exact .of_ok rfl
  · exact .bind (.orThrow fun _ => nofun) fun _ _ => .bind (parseHexU64_genuine _) fun _ _ =>
      .pure _

/-! ## Waiting -/

/-- The request for a receipt. -/
def receiptRequest (rpc : EthRpc) (hash : Bytes32) : Effect :=
  request rpc "eth_getTransactionReceipt" [.string (bytesHex hash.toList)]

/-- The status in the last reply of a history. -/
def statusAt (E : Env) (rpc : EthRpc) (h : List Effect) : Except Error (Option Bool) :=
  readReply E rpc "eth_getTransactionReceipt" (E.reply h) >>= readStatus

theorem receiptStatus_apply : receiptStatus E rpc hash h =
    (statusAt E rpc (h ++ [receiptRequest rpc hash]), [receiptRequest rpc hash]) := query_apply

/-- What one round of the loop can do: fail, see the transaction mined, or sleep and go on. -/
inductive Round (E : Env) (rpc : EthRpc) (hash : Bytes32) (pollInterval timeout start fuel : ℕ)
    (h : List Effect) : Except Error Unit → List Effect → Prop
  | failed {e : Error} (genuine : e.Genuine) : Round E rpc hash pollInterval timeout start fuel h
      (.error e) [receiptRequest rpc hash]
  | mined (status : statusAt E rpc (h ++ [receiptRequest rpc hash]) = .ok (some true)) :
      Round E rpc hash pollInterval timeout start fuel h (.ok ()) [receiptRequest rpc hash]
  | pending {r : Except Error Unit} {es : List Effect}
      (early : E.now (h ++ [receiptRequest rpc hash]) - start < timeout * 10 ^ 9)
      (rest : pollReceipt E rpc hash pollInterval timeout start fuel
        (h ++ [receiptRequest rpc hash] ++ [.sleep pollInterval]) = (r, es)) :
      Round E rpc hash pollInterval timeout start fuel h r
        (receiptRequest rpc hash :: .sleep pollInterval :: es)

variable {r : Except Error Unit}

theorem pollReceipt_succ
    (hrun : pollReceipt E rpc hash pollInterval timeout start (fuel + 1) h = (r, es)) :
    Round E rpc hash pollInterval timeout start fuel h r es := by
  rw [pollReceipt] at hrun
  obtain ⟨e, hstatus, rfl⟩ | ⟨status, es₁, es₂, hstatus, hrest, rfl⟩ := Traced.bind_cases hrun
  · rw [receiptStatus_apply, Prod.mk.injEq] at hstatus
    obtain ⟨herror, rfl⟩ := hstatus
    exact .failed (FailsWith.bind (readReply_genuine _) (fun v _ => readStatus_genuine v) e herror)
  · rw [receiptStatus_apply, Prod.mk.injEq] at hstatus
    obtain ⟨hstatus, rfl⟩ := hstatus
    match status with
    | some true =>
      obtain ⟨rfl, rfl⟩ := Prod.mk.inj hrest
      exact .mined hstatus
    | some false =>
      obtain ⟨rfl, rfl⟩ := Prod.mk.inj hrest
      exact .failed nofun
    | none =>
      dsimp only at hrest
      rw [Traced.ask_bind] at hrest
      split_ifs at hrest with hlate
      · obtain ⟨rfl, rfl⟩ := Prod.mk.inj hrest
        exact .failed nofun
      · obtain ⟨es', hloop, rfl⟩ := Traced.perform_bind hrest
        exact .pending (not_le.1 hlate) hloop

/-- What the loop does: requests of the receipt and sleeps. -/
theorem pollReceipt_only
    (hrun : pollReceipt E rpc hash pollInterval timeout start fuel h = (r, es)) :
    ∀ e ∈ es, e = receiptRequest rpc hash ∨ e = .sleep pollInterval := by
  induction fuel generalizing h es with
  | zero =>
    obtain ⟨-, rfl⟩ := Prod.mk.inj (hrun : (_, []) = _)
    simp
  | succ fuel ih =>
    cases pollReceipt_succ hrun with
    | failed | mined => simp
    | pending _ rest =>
      intro e he
      obtain rfl | he := List.mem_cons.1 he
      · exact .inl rfl
      · obtain rfl | he := List.mem_cons.1 he
        · exact .inr rfl
        · exact ih rest e he

/-- The loop ends well at a reply that says so. -/
theorem pollReceipt_mined
    (hrun : pollReceipt E rpc hash pollInterval timeout start fuel h = (.ok (), es)) :
    ∃ es', es = es' ++ [receiptRequest rpc hash] ∧ statusAt E rpc (h ++ es) = .ok (some true) := by
  induction fuel generalizing h es with
  | zero => cases hrun
  | succ fuel ih =>
    cases pollReceipt_succ hrun with
    | mined status => exact ⟨[], rfl, status⟩
    | pending _ rest =>
      obtain ⟨es', rfl, hstatus⟩ := ih rest
      exact ⟨_ :: _ :: es', rfl, by simpa using hstatus⟩

/-- The clock stops the loop before its fuel does. -/
theorem pollReceipt_genuine {e : Error} (hstart : start ≤ E.now h)
    (htime : timeout * 10 ^ 9 ≤ E.now h - start + fuel * (pollInterval * 10 ^ 9))
    (hrun : pollReceipt E rpc hash pollInterval timeout start (fuel + 1) h = (.error e, es)) :
    e.Genuine := by
  induction fuel generalizing h es with
  | zero =>
    cases pollReceipt_succ hrun with
    | failed genuine => exact genuine
    | pending early =>
      have hpost := E.now_post h rpc.url
        (requestBody "eth_getTransactionReceipt" [.string (bytesHex hash.toList)])
      simp only [receiptRequest, request] at early
      omega
  | succ fuel ih =>
    cases pollReceipt_succ hrun with
    | failed genuine => exact genuine
    | pending early rest =>
      have hpost := E.now_post h rpc.url
        (requestBody "eth_getTransactionReceipt" [.string (bytesHex hash.toList)])
      have hsleep := E.now_sleep (h ++ [receiptRequest rpc hash]) pollInterval
      simp only [receiptRequest, request] at early hsleep rest
      rw [Nat.succ_mul] at htime
      exact ih (by omega) (by omega) rest

/-- The number of the requests among effects. -/
def requests (es : List Effect) : ℕ := es.countP fun
  | .post .. => true
  | .sleep _ => false

@[simp] theorem requests_nil : requests [] = 0 := rfl

@[simp] theorem requests_post (url : String) (body : Value) (es : List Effect) :
    requests (.post url body :: es) = requests es + 1 := List.countP_cons_of_pos rfl

@[simp] theorem requests_request (method : String) (params : List Value) (es : List Effect) :
    requests (request rpc method params :: es) = requests es + 1 := requests_post ..

@[simp] theorem requests_sleep (seconds : ℕ) (es : List Effect) :
    requests (.sleep seconds :: es) = requests es := List.countP_cons_of_neg nofun

@[simp] theorem requests_append (es es' : List Effect) :
    requests (es ++ es') = requests es + requests es' := List.countP_append

theorem pollReceipt_requests
    (hrun : pollReceipt E rpc hash pollInterval timeout start fuel h = (r, es)) :
    requests es ≤ fuel := by
  induction fuel generalizing h es with
  | zero =>
    obtain ⟨-, rfl⟩ := Prod.mk.inj (hrun : (_, []) = _)
    simp
  | succ fuel ih =>
    cases pollReceipt_succ hrun with
    | failed | mined => simp [receiptRequest]
    | pending _ rest => simpa [receiptRequest] using ih rest

/-- What the wait for a receipt does. -/
structure Waited (E : Env) (rpc : EthRpc) (hash : Bytes32) (pollInterval timeout : ℕ)
    (h : List Effect) (r : Except Error Unit) (es : List Effect) : Prop where
  only : ∀ e ∈ es, e = receiptRequest rpc hash ∨ e = .sleep pollInterval
  mined : r = .ok () →
    ∃ es', es = es' ++ [receiptRequest rpc hash] ∧ statusAt E rpc (h ++ es) = .ok (some true)
  genuine : FailsWith Error.Genuine r
  requests : requests es ≤ polls pollInterval timeout

/-- **The wait for a receipt** ends, at a status of the transaction or when the time is over. -/
theorem waitForReceipt_cases (hpos : 0 < pollInterval)
    (hrun : waitForReceipt E rpc hash pollInterval timeout h = (r, es)) :
    Waited E rpc hash pollInterval timeout h r es := by
  rw [waitForReceipt, Traced.ask_bind] at hrun
  refine ⟨pollReceipt_only hrun, fun hok => pollReceipt_mined (hok ▸ hrun), fun e he => ?_,
    pollReceipt_requests hrun⟩
  refine pollReceipt_genuine le_rfl ?_ (he ▸ hrun)
  have hceil : timeout ≤ (timeout + pollInterval - 1) / pollInterval * pollInterval := by
    have hmod := Nat.div_add_mod (timeout + pollInterval - 1) pollInterval
    have hlt := Nat.mod_lt (timeout + pollInterval - 1) hpos
    rw [Nat.mul_comm] at hmod
    omega
  calc timeout * 10 ^ 9
      ≤ (timeout + pollInterval - 1) / pollInterval * pollInterval * 10 ^ 9 :=
        Nat.mul_le_mul_right _ hceil
    _ ≤ _ := by rw [Nat.mul_assoc]; exact Nat.le_add_left ..

end Flodex.Eth.Rpc
