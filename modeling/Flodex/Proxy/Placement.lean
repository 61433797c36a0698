import Flodex.Coordinator.Matching
import Flodex.Proxy.Relay

/-!
# Where the proxy sends a request

The proxy puts no limit on the price and asks for an estimate of the tokens, which it cuts off at
`100000`. With the matcher of the coordinator behind it, a request goes to a cheapest node that is
listed for the backend and takes as many tokens, and fails at the coordinator exactly when there is
none (`request_placed`); a node that takes `100000` tokens is never too small.
-/

namespace Flodex.Proxy

open Coordinator Text

/-! ## What the proxy asks for -/

theorem toNat_estimateTokens (json : JsonText) (messages : List Value) :
    1 ≤ (estimateTokens json messages).toNat ∧ (estimateTokens json messages).toNat ≤ 100000 := by
  unfold estimateTokens
  dsimp only
  generalize (messages.map fun m => ((m.get "content").map fun c => (json.write c).length).getD
    0).sum / 4 % 2 ^ 32 = n
  have hlt : max 1 (min n 100000) < UInt32.size := by
    rw [UInt32.size]
    omega
  rw [UInt32.toNat_ofNat_of_lt' hlt]
  omega

/-- A node of the registry that takes some tokens for a backend, at a price: that of its bid while
it has one, and of its registration otherwise. -/
structure Takes (s : State) (nowSecs : ℕ) (backend : BackendType) (tokens : UInt32)
    (reg : NodeRegistration) (price : ℕ) : Prop where
  lists : backend ∈ reg.backends
  offers : ∃ text cap,
    offer ⟨backend, tokens, anyPrice⟩ nowSecs reg (s.bids (reg.identityPubkey, backend)) =
      some (text, cap) ∧ parseUnsigned (2 ^ 128) text.toList = some price ∧ tokens ≤ cap

variable {s : State} {nowSecs : ℕ} {backend : BackendType} {tokens : UInt32}
  {reg : NodeRegistration} {price : ℕ}

/-- No price is too high for the proxy. -/
theorem eligible_iff_takes : Eligible ⟨backend, tokens, anyPrice⟩ nowSecs reg
    (s.bids (reg.identityPubkey, backend)) price ↔ Takes s nowSecs backend tokens reg price := by
  constructor
  · rintro ⟨lists, offers, -⟩
    exact ⟨lists, offers⟩
  · rintro ⟨lists, text, cap, hoffer, hprice, hcap⟩
    have hlt : price < 2 ^ 128 := parseUnsigned_lt hprice
    exact ⟨lists, ⟨text, cap, hoffer, hprice, hcap⟩, Nat.le_pred_of_lt hlt⟩

/-- A node that takes 100000 tokens takes what the proxy asks for. -/
theorem takes_of_large {json : JsonText} {messages : List Value} (lists : backend ∈ reg.backends)
    {text : String} {cap : UInt32}
    (hoffer : offer ⟨backend, estimateTokens json messages, anyPrice⟩ nowSecs reg
      (s.bids (reg.identityPubkey, backend)) = some (text, cap))
    (hprice : parseUnsigned (2 ^ 128) text.toList = some price) (hcap : 100000 ≤ cap.toNat) :
    Takes s nowSecs backend (estimateTokens json messages) reg price := by
  refine ⟨lists, text, cap, hoffer, hprice, ?_⟩
  rw [UInt32.le_iff_toNat_le]
  exact (toNat_estimateTokens json messages).2.trans hcap

section Match

variable {entries : List (String × Coordinator.Entry)}

/-- The match is a cheapest of the listed nodes that take the request. -/
theorem match_takes (hentries : Iterates s entries) {m : JobMatch}
    (h : matchJob ⟨backend, tokens, anyPrice⟩ nowSecs (visits s backend entries) = .ok m) :
    ∃ id entry price, s.nodes id = some entry ∧ Takes s nowSecs backend tokens entry.reg price ∧
      (∀ id' entry' price', s.nodes id' = some entry' →
        Takes s nowSecs backend tokens entry'.reg price' → price ≤ price') ∧
      m = ⟨entry.reg.url, entry.reg.publicKey⟩ := by
  obtain ⟨v, hv, price, heligible, hm, hleast⟩ := matchJob_eq_ok h
  obtain ⟨id, entry, hentry, rfl⟩ := (mem_visits hentries).1 hv
  refine ⟨id, entry, price, hentry, eligible_iff_takes.1 heligible, ?_, hm⟩
  intro id' entry' price' hentry' htakes
  exact hleast _ ((mem_visits hentries).2 ⟨id', entry', hentry', rfl⟩) price'
    (eligible_iff_takes.2 htakes)

/-- There is none exactly when no listed node takes it. -/
theorem no_match_iff (hentries : Iterates s entries) :
    (∃ r, matchJob ⟨backend, tokens, anyPrice⟩ nowSecs (visits s backend entries) = .error r) ↔
      ∀ id entry price, s.nodes id = some entry →
        ¬ Takes s nowSecs backend tokens entry.reg price := by
  rw [matchJob_eq_error]
  constructor
  · intro h id entry price hentry htakes
    exact h _ ((mem_visits hentries).2 ⟨id, entry, hentry, rfl⟩) price
      (eligible_iff_takes.2 htakes)
  · intro h v hv price heligible
    obtain ⟨id, entry, hentry, rfl⟩ := (mem_visits hentries).1 hv
    exact h id entry price hentry (eligible_iff_takes.1 heligible)

end Match

/-! ## What the coordinator answers -/

/-- The response with an answer of the coordinator. -/
def Responds : Except Rejection JobMatch → Fetched JobMatch → Prop
  | .ok m, matched => ∃ status text, matched = .ok ⟨true, status, text, .ok m⟩
  | .error r, matched => ∃ status json, matched = .ok ⟨false, status, some r.msg, json⟩

section Placed

variable {t : Transport} {json : JsonText} {coordUrl status : String} {text : Option String}
  {req : AnthropicMessagesRequest} {draw : Draw} {m : JobMatch} {out : Outgoing}

/-- A request is sealed for the node that the coordinator names, and goes there. -/
theorem prepare_eq_ok (h : prepare t json coordUrl backend req (.ok ⟨true, status, text, .ok m⟩)
    draw = .ok out) : out.execUrl = m.url ++ "/proxy/complete" ∧
      decodePubkey t m.publicKey = .ok out.nodePub ∧ out.encReq.backend = backend ∧
      out.key = t.deriveKey (t.diffieHellman draw.secret out.nodePub) (sessionId t draw) := by
  simp only [prepare, receiveJson, if_true, bind_eq_ok, mapError_eq_ok, pure_eq_ok] at h
  obtain ⟨m', hm, nodePub, hpub, ciphertext, -, rfl⟩ := h
  obtain rfl := Except.ok.inj hm
  exact ⟨rfl, hpub, rfl, rfl⟩

/-- With a node named, it does not fail at the coordinator. -/
theorem prepare_failsWith : FailsWith (fun e => ∀ msg, e ≠ .coord msg)
    (prepare t json coordUrl backend req (.ok ⟨true, status, text, .ok m⟩) draw) := by
  refine .bind (.of_ok rfl) fun m' _ => .bind ?_ fun pub _ => .bind ?_ fun ciphertext _ => .pure _
  · exact .bind (.mapError fun e _ msg => by simp) fun bytes _ => .orThrow fun _ msg => by simp
  · exact .mapError fun e _ msg => by simp

theorem prepare_refused (body : Except String JobMatch) :
    prepare t json coordUrl backend req (.ok ⟨false, status, text, body⟩) draw =
      .error (.coord ("coordinator match failed " ++ status ++ ": " ++ text.getD "")) := rfl

/-- A request fails at the coordinator exactly when that finds no node. -/
theorem fails_at_coordinator_iff {answer : Except Rejection JobMatch} {matched : Fetched JobMatch}
    (hresponds : Responds answer matched) :
    (∃ msg, prepare t json coordUrl backend req matched draw = .error (.coord msg)) ↔
      ∃ r, answer = .error r := by
  cases answer with
  | ok m =>
    obtain ⟨status, text, rfl⟩ := hresponds
    constructor
    · rintro ⟨msg, hmsg⟩
      exact absurd rfl (prepare_failsWith _ hmsg msg)
    · rintro ⟨r, hr⟩
      cases hr
  | error r =>
    obtain ⟨status, body, rfl⟩ := hresponds
    exact ⟨fun _ => ⟨r, rfl⟩, fun _ => ⟨_, prepare_refused body⟩⟩

/-- **Where a request goes**: with the coordinator's answer, a request of the proxy goes to a
cheapest of the listed nodes that take it, sealed for that node, and fails at the coordinator
exactly when none does. It does not where a node that is listed for the backend takes 100000. -/
theorem request_placed {entries : List (String × Coordinator.Entry)}
    (hentries : Iterates s entries) {matched : Fetched JobMatch}
    (hresponds : Responds
      (matchJob (jobSpec json backend req) nowSecs (visits s backend entries)) matched) :
    (∀ out, prepare t json coordUrl backend req matched draw = .ok out →
      ∃ id entry price, s.nodes id = some entry ∧
        Takes s nowSecs backend (estimateTokens json req.messages) entry.reg price ∧
        (∀ id' entry' price', s.nodes id' = some entry' →
          Takes s nowSecs backend (estimateTokens json req.messages) entry'.reg price' →
          price ≤ price') ∧
        out.execUrl = entry.reg.url ++ "/proxy/complete" ∧
        decodePubkey t entry.reg.publicKey = .ok out.nodePub ∧ out.encReq.backend = backend ∧
        out.key = t.deriveKey (t.diffieHellman draw.secret out.nodePub) (sessionId t draw)) ∧
    ((∃ msg, prepare t json coordUrl backend req matched draw = .error (.coord msg)) ↔
      ∀ id entry price, s.nodes id = some entry →
        ¬ Takes s nowSecs backend (estimateTokens json req.messages) entry.reg price) ∧
    ∀ id entry price text cap, s.nodes id = some entry → backend ∈ entry.reg.backends →
      offer (jobSpec json backend req) nowSecs entry.reg
        (s.bids (entry.reg.identityPubkey, backend)) = some (text, cap) →
      parseUnsigned (2 ^ 128) text.toList = some price → 100000 ≤ cap.toNat →
      ∀ msg, prepare t json coordUrl backend req matched draw ≠ .error (.coord msg) := by
  have hrefused : (∃ msg, prepare t json coordUrl backend req matched draw = .error (.coord msg)) ↔
      ∀ id entry price, s.nodes id = some entry →
        ¬ Takes s nowSecs backend (estimateTokens json req.messages) entry.reg price :=
    (fails_at_coordinator_iff hresponds).trans (no_match_iff hentries)
  refine ⟨fun out hout => ?_, hrefused, ?_⟩
  · cases hmatch : matchJob (jobSpec json backend req) nowSecs (visits s backend entries) with
    | ok m =>
      rw [hmatch] at hresponds
      obtain ⟨status, text, rfl⟩ := hresponds
      obtain ⟨id, entry, price, hentry, htakes, hleast, rfl⟩ := match_takes hentries hmatch
      obtain ⟨hurl, hpub, hbackend, hkey⟩ := prepare_eq_ok hout
      exact ⟨id, entry, price, hentry, htakes, hleast, hurl, hpub, hbackend, hkey⟩
    | error r =>
      rw [hmatch] at hresponds
      obtain ⟨status, body, rfl⟩ := hresponds
      rw [prepare_refused] at hout
      cases hout
  · intro id entry price text cap hentry lists hoffer hprice hcap msg hmsg
    exact hrefused.1 ⟨msg, hmsg⟩ id entry price hentry (takes_of_large lists hoffer hprice hcap)

end Placed

/-! ## A registry with two nodes -/

namespace Deployment

/-- The registration of a node for the backend, at a price. -/
def listed (identity url publicKey price : String) : NodeRegistration :=
  ⟨identity, publicKey, url, [.MockTee], 4096, [⟨.MockTee, price⟩], "", ""⟩

/-- A registry with a cheap node and a dear one. -/
def registry (publicKey : String) : State where
  nodes := Function.update (Function.update (fun _ => none) "02"
    (some ⟨listed "02" "http://dear" "key" "7", 0⟩)) "03"
    (some ⟨listed "03" "http://node" publicKey "5", 0⟩)
  bids _ := none

theorem iterates_registry (publicKey : String) : Iterates (registry publicKey)
    [("03", ⟨listed "03" "http://node" publicKey "5", 0⟩),
      ("02", ⟨listed "02" "http://dear" "key" "7", 0⟩)] :=
  Iterates.cons (s := ⟨Function.update (fun _ => none) "02"
      (some ⟨listed "02" "http://dear" "key" "7", 0⟩), fun _ => none⟩)
    (iterates_single rfl) rfl rfl

theorem matchJob_registry (publicKey : String) :
    matchJob (jobSpec json .MockTee greet) 120 (visits (registry publicKey) .MockTee
      [("03", ⟨listed "03" "http://node" publicKey "5", 0⟩),
        ("02", ⟨listed "02" "http://dear" "key" "7", 0⟩)]) = .ok ⟨"http://node", publicKey⟩ := rfl

end Deployment

open Deployment in
/-- The greeting is sent to the cheap node. -/
theorem request_placed_greeted : ∃ out,
    prepare transport json "http://coordinator" .MockTee greet
      (naming claudeNode "http://node" "200 OK" none) drawn = .ok out ∧
    out.execUrl = "http://node/proxy/complete" ∧
    ∃ id entry price,
      (registry (transport.b64Encode claudeNode.publicKey.toList)).nodes id = some entry ∧
      Takes (registry (transport.b64Encode claudeNode.publicKey.toList)) 120 .MockTee
        (estimateTokens json greet.messages) entry.reg price ∧
      out.execUrl = entry.reg.url ++ "/proxy/complete" ∧
      decodePubkey transport entry.reg.publicKey = .ok out.nodePub := by
  have hprepare : prepare transport json "http://coordinator" .MockTee greet
      (naming claudeNode "http://node" "200 OK" none) drawn =
        .ok (outgoing claudeNode "http://node" .MockTee drawn (sealedText (bytesOf chatJson))) :=
    prepare_naming lawful_transport seal_sent
  have hresponds := @matchJob_registry (transport.b64Encode claudeNode.publicKey.toList)
  have hplaced := @request_placed (registry (transport.b64Encode claudeNode.publicKey.toList)) 120
    .MockTee transport json "http://coordinator" greet drawn _
    (iterates_registry _) (naming claudeNode "http://node" "200 OK" none)
    (hresponds ▸ ⟨"200 OK", none, rfl⟩)
  obtain ⟨id, entry, price, hentry, htakes, -, hurl, hpub, -⟩ := hplaced.1 _ hprepare
  exact ⟨_, hprepare, rfl, id, entry, price, hentry, htakes, hurl, hpub⟩

end Flodex.Proxy
