import Flodex.Proxy.Authentic

/-!
# What a page accepts

Whatever the network does, the final answer of a page is the node's answer to its step
(`final_authentic`): what the node writes is no step, and a step is not final. A response that is
not final can be the step itself.
-/

namespace Flodex.Proxy

open Function Node

variable {W : Type*} {site : Site W} {h : List (Scene W)} {p q : Node.State × Clients}
  {e : Scene W} {k : ℕ}

/-! ## Texts -/

/-- What a page did for a step to a node: it sealed the step, and parsed what it opened. -/
structure Sent (site : Site W) (h : List (Scene W)) (c : Call) : Prop where
  asked : .ask (c.keyId site) (c.plaintext site) ∈ uses site h
  taken : ∀ result, c.result = some (.ok result) → ∃ t, .take (c.keyId site) t ∈ uses site h ∧
    site.page.parse t = .ok result.response

theorem Sent.concat {c : Call} (sent : Sent site h c) : Sent site (h ++ [e]) c where
  asked := mem_uses_concat sent.asked
  taken result hresult := by
    obtain ⟨t, htake, hparse⟩ := sent.taken result hresult
    exact ⟨t, mem_uses_concat htake, hparse⟩

theorem sent (R : Run (traffic site) p h q) (init : (traffic site).Init p) :
    ∀ k c key, q.2.calls k = some c → c.key = .ok key → c.opts.nodePub = site.publicKey.toList →
      Sent site h c := by
  refine R.invariantHistory (fun h q => ∀ k c key, q.2.calls k = some c → c.key = .ok key →
    c.opts.nodePub = site.publicKey.toList → Sent site h c) (fun _ _ => True)
    (fun _ _ _ _ => trivial) ?_ ?_
  · intro k c key hk
    rw [init.2.2.2] at hk
    cases hk
  · rintro h ⟨s, cs⟩ act - ih - - k c key hk hkey hnode
    have hsame : cs.calls k = some c →
        Sent site (h ++ [⟨(s, cs), act, (traffic site).next (s, cs) act⟩]) c :=
      fun hk => (ih k c key hk hkey hnode).concat
    cases act with
    | inl act => exact hsame hk
    | inr act =>
      change (next site cs act).calls k = some c at hk
      cases act with
      | send j opts clientPriv =>
        simp only [next] at hk
        by_cases hkj : k = j
        · subst hkj
          obtain rfl : call site opts clientPriv = c := by simpa using hk
          have hnode' : opts.nodePub = site.publicKey.toList := hnode
          refine ⟨mem_uses_last (clientUse_send cs k rfl hkey hnode'), fun result hresult => ?_⟩
          · simp only [call] at hresult hkey
            simp [hkey] at hresult
        · rw [update_of_ne hkj] at hk
          exact hsame hk
      | answer j fetched =>
        simp only [next] at hk
        split at hk
        · rename_i opts clientPriv key' hj
          dsimp only at hk
          by_cases hkj : k = j
          · subst hkj
            rw [update_self] at hk
            obtain rfl := Option.some.inj hk
            obtain rfl : key' = key := by simpa using hkey
            have hnode' : opts.nodePub = site.publicKey.toList := hnode
            refine ⟨(ih k _ key' hj rfl hnode).concat.asked, fun result hresult => ?_⟩
            have hread := Option.some.inj hresult
            simp only [Page.readAnswer, bind_eq_ok, pure_eq_ok] at hread
            obtain ⟨⟨t, enc⟩, hopen, response, hparse, receipt, -, rfl⟩ := hread
            exact ⟨t, mem_uses_last (clientUse_answer hj hnode' hopen), hparse⟩
          · rw [update_of_ne hkj] at hk
            exact hsame hk
        · exact hsame hk
      | messages j req matched draw => exact hsame hk
      | respond j fetched id =>
        simp only [next] at hk
        split at hk <;> exact hsame hk
      | complete req w nonce => exact hsame hk
      | setBackend kind =>
        simp only [next] at hk
        split at hk <;> exact hsame hk

namespace Deployment

open Text

/-- The prompt of the page. -/
def prompting : Client.SendStepOptions :=
  ⟨"http://node", .MockTee, secret.toList, "s", .prompt "hi", none, none⟩

/-- The key of the page and the node. -/
def pageKey : Bytes32 := transport.deriveKey (transport.diffieHellman drawn.secret secret) "s"

/-- The call of the page, with its result. -/
def calling (answer : Option (Except String Client.SendStepResult)) : Call :=
  ⟨prompting, drawn.secret, .ok pageKey, answer⟩

/-- The request that the page posts. -/
def posted : EncryptedRequest where
  sessionId := "s"
  clientPublicKey := transport.b64Encode drawn.secret.toList
  nonce := transport.b64Encode drawn.nonce.toList
  ciphertext := transport.b64Encode (pageKey.toList ++ bytesOf stepJson)
  backend := .MockTee
  channelId := none
  prevAck := none

/-- The fields of the answer that the page reads. -/
def answerBody : Value :=
  .object [("nonce", .string (transport.b64Encode drawn.nonce.toList)),
    ("ciphertext", .string (transport.b64Encode (pageKey.toList ++ bytesOf finalJson)))]

def fetched : Except String Client.FetchResponse := .ok ⟨true, 200, .ok "", .ok answerBody⟩

/-- The node after the request arrives, after the gate, after the step, and after the answer. -/
def arrived : Node.State := Node.next claudeNode.cfg .start (.receive posted 0)

def gated : Node.State := Node.next claudeNode.cfg arrived (.gate 0 0)

def stepped : Node.State := Node.next claudeNode.cfg gated (.backendStep 0 1 [] 0)

def answered : Node.State := Node.next claudeNode.cfg stepped (.respond 0 0)

/-- The clients with the call. -/
def called (answer : Option (Except String Client.SendStepResult)) : Clients :=
  ⟨.MockTee, fun _ => none, update (fun _ => none) 0 (some (calling answer))⟩

end Deployment

end Flodex.Proxy
