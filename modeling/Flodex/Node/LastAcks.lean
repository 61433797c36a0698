import Flodex.Node.Stagewise

/-!
# What the node does not read

The node keeps the last ack of a channel for the settlement, and reads nothing of it when it serves
a request. `forget_next` says so: a step does the same to a state and to the state without its last
acks.
-/

namespace Flodex.Node

open Function

variable {W : Type*}

/-! ## The last acks -/

/-- The entry without its last ack. -/
def ChannelState.forget (c : ChannelState) : ChannelState := { c with lastAcked := none }

def ChannelMap.forget (channels : ChannelMap) : ChannelMap := fun id =>
  (channels id).map ChannelState.forget

/-- The state without the last acks, which no later step reads. -/
def State.forget (s : State) : State := { s with channels := s.channels.forget }

theorem State.channels_forget (s : State) : s.forget.channels = s.channels.forget := rfl

theorem State.sessions_forget (s : State) : s.forget.sessions = s.sessions := rfl

theorem State.flights_forget (s : State) : s.forget.flights = s.flights := rfl

theorem state_forget (channels : ChannelMap) (id : Bytes32) :
    channels.forget.state id = (channels.state id).forget := by
  cases h : channels id <;> simp only [ChannelMap.state, ChannelMap.forget, h] <;> rfl

theorem forget_forget (channels : ChannelMap) : channels.forget.forget = channels.forget := by
  funext id
  cases h : channels id <;> simp only [ChannelMap.forget, h] <;> rfl

theorem forget_update (channels : ChannelMap) (id : Bytes32) (c : ChannelState) :
    ChannelMap.forget (update channels id (some c)) = update channels.forget id (some c.forget) :=
  comp_update (Option.map ChannelState.forget) channels id (some c)

theorem gateRead_forget (channels : ChannelMap) (id : Bytes32) :
    gateRead channels.forget id = gateRead channels id := by
  rw [gateRead_eq, gateRead_eq, state_forget]
  rfl

theorem verifyAndRecordAck_forget (cfg : ChannelConfig) (channels : ChannelMap) (id : Bytes32)
    (a : ClientAck) (idHex : String) (chainId : UInt64) (channelAddr : Address) :
    verifyAndRecordAck cfg (channels.forget.state id) a idHex chainId channelAddr =
      verifyAndRecordAck cfg (channels.state id) a idHex chainId channelAddr := by
  rw [state_forget]
  rfl

/-- What an ack does to a channel, which is its own where it does anything. -/
theorem state_ack (cfg : ChannelConfig) (channels : ChannelMap) (a : ClientAck) (id : Bytes32) :
    (Node.ack cfg channels a).1.state id = channels.state id ∨
      ∃ signer chainId channelAddr, ackChannel cfg a = .ok (chainId, channelAddr, id) ∧
        (Node.ack cfg channels a).1.state id = (channels.state id).record a signer := by
  unfold Node.ack
  cases hch : ackChannel cfg a with
  | error e => exact .inl rfl
  | ok v =>
    obtain ⟨chainId, channelAddr, id'⟩ := v
    obtain ⟨hcontract, hid⟩ := resolveChannel_eq_ok.1 hch
    dsimp only
    cases hverify : verifyAndRecordAck cfg (channels.state id') a a.update.channelId chainId
      channelAddr with
    | error e => exact .inl (state_update_state ..)
    | ok entry =>
      by_cases h : id = id'
      · subst h
        obtain ⟨signer, -, -, rfl⟩ := (verifyAndRecordAck_eq_ok hcontract hid).1 hverify
        exact .inr ⟨signer, chainId, channelAddr, rfl, state_update_self ..⟩
      · exact .inl (state_update_of_ne _ _ h)

/-- An ack of the known signer changes nothing else. -/
theorem forget_record {c : ChannelState} {signer : Address} (h : c.clientAddress = some signer)
    (a : ClientAck) : (c.record a signer).forget = c.forget := by
  rw [ChannelState.record, ← h]
  rfl

theorem forget_ack (cfg : ChannelConfig) (channels : ChannelMap) (a : ClientAck) :
    (Node.ack cfg channels.forget a).1.forget = (Node.ack cfg channels a).1.forget := by
  unfold Node.ack
  split
  · exact forget_forget channels
  · dsimp only
    rw [verifyAndRecordAck_forget]
    split
    · rw [forget_update, forget_update, forget_forget, state_forget]
      rfl
    · rw [forget_update, forget_update, forget_forget]

/-- The receipt, and what the channels become. -/
theorem forget_buildReceipt (cfg : ChannelConfig) (channels : ChannelMap) (idHex : String)
    (backend : BackendType) (sessionId : String) (usage : Usage) (prevAck : Option ClientAck) :
    (buildReceipt cfg channels.forget idHex backend sessionId usage prevAck).2 =
        (buildReceipt cfg channels idHex backend sessionId usage prevAck).2 ∧
      (buildReceipt cfg channels.forget idHex backend sessionId usage prevAck).1.forget =
        (buildReceipt cfg channels idHex backend sessionId usage prevAck).1.forget := by
  unfold buildReceipt
  split
  · exact ⟨rfl, forget_forget channels⟩
  · rename_i chainId channelAddr id _
    dsimp only
    cases prevAck with
    | some a =>
      simp only [recordPrevAck, verifyAndRecordAck_forget]
      cases verifyAndRecordAck cfg (channels.state id) a idHex chainId channelAddr with
      | error e =>
        refine ⟨rfl, ?_⟩
        rw [forget_update, forget_update, forget_forget, state_forget]
        rfl
      | ok entry =>
        dsimp only
        split
        · exact ⟨rfl, by rw [forget_update, forget_update, forget_forget]⟩
        · exact ⟨rfl, by rw [forget_update, forget_update, forget_forget]⟩
    | none =>
      rw [state_forget]
      dsimp only [recordPrevAck, ChannelState.charge, ChannelState.update, ChannelState.forget]
      split
      · refine ⟨rfl, ?_⟩
        rw [forget_update, forget_update, forget_forget]
        rfl
      · refine ⟨rfl, ?_⟩
        rw [forget_update, forget_update, forget_forget]
        rfl

namespace State

variable {s t : State}

theorem forget_forget (s : State) : s.forget.forget = s.forget := by
  rw [forget, forget, Node.forget_forget]

theorem withChannels_forget (hforget : s.forget = t.forget) {channels channels' : ChannelMap}
    (h : channels.forget = channels'.forget) :
    State.forget { s with channels := channels } =
      State.forget { t with channels := channels' } := by
  simp only [forget, State.mk.injEq] at hforget ⊢
  exact ⟨hforget.1, hforget.2.1, h, hforget.2.2.2⟩

section

variable (hforget : s.forget = t.forget) {req : EncryptedRequest} {k : ℕ} {now : ℤ}

include hforget

theorem setStage_forget (stage : Stage) :
    (s.setStage k req stage).forget = (t.setStage k req stage).forget :=
  congrArg (fun u => u.setStage k req stage) hforget

theorem fail_forget (e : ApiError) : (s.fail k req now e).forget = (t.fail k req now e).forget :=
  congrArg (fun u => u.fail k req now e) hforget

theorem reply_forget (response : AgentResponse) (receipt : Option NodeSignedReceipt) :
    (reply s k req response receipt now).forget = (reply t k req response receipt now).forget :=
  congrArg (fun u => reply u k req response receipt now) hforget

theorem passGate_forget (step : AgentStep) (idHex : String) (deposit cumOwed : ℕ) :
    (passGate s k req step now idHex deposit cumOwed).forget =
      (passGate t k req step now idHex deposit cumOwed).forget := by
  unfold passGate
  split
  · exact setStage_forget hforget _
  · exact fail_forget hforget _

end

end State

/-! ## The steps -/

variable (cfg : Config W) (s : State) {k : ℕ} {req : EncryptedRequest} {step : AgentStep} {now : ℤ}

theorem forget_receive (req : EncryptedRequest) (now : ℤ) :
    (receive cfg s.forget req now).forget = (receive cfg s req now).forget := by
  have hactive : State.forget
      { s.forget with
        received := s.received + 1
        activity := s.activity.beginStep now req.sessionId req.backend } =
      State.forget
        { s with
          received := s.received + 1
          activity := s.activity.beginStep now req.sessionId req.backend } :=
    State.forget_forget { s with
      received := s.received + 1
      activity := s.activity.beginStep now req.sessionId req.backend }
  unfold receive
  dsimp only
  split
  · exact State.setStage_forget hactive _
  · exact State.fail_forget hactive _
  · exact State.fail_forget hactive _

theorem forget_gate :
    (gate cfg s.forget k req step now).forget = (gate cfg s k req step now).forget := by
  have hforget := State.forget_forget s
  unfold gate
  split
  · exact State.setStage_forget hforget _
  · split
    · exact State.fail_forget hforget _
    · rw [s.channels_forget, gateRead_forget]
      split
      · exact State.passGate_forget hforget ..
      · exact State.setStage_forget hforget _

theorem forget_gateFetched (cumOwed : ℕ) (returndata : Except String (List UInt8)) :
    (gateFetched cfg s.forget k req step now cumOwed returndata).forget =
      (gateFetched cfg s k req step now cumOwed returndata).forget := by
  have hforget := State.forget_forget s
  unfold gateFetched
  split
  · exact hforget
  · split
    · exact State.fail_forget hforget _
    · split
      · exact State.fail_forget hforget _
      · split
        · exact State.fail_forget hforget _
        · refine State.passGate_forget (State.withChannels_forget hforget ?_) ..
          rw [cacheDeposit, cacheDeposit, forget_update, forget_update, s.channels_forget,
            forget_forget, state_forget]
          rfl

theorem forget_backendStep (fuel : ℕ) (w : W) :
    (backendStep cfg s.forget k req step fuel w now).forget =
      (backendStep cfg s k req step fuel w now).forget := by
  have hforget := State.forget_forget s
  have hrun : ∀ sessions, State.forget { s.forget with sessions := sessions } =
      State.forget { s with sessions := sessions } := fun sessions =>
    State.forget_forget { s with sessions := sessions }
  unfold backendStep
  split
  · exact State.fail_forget hforget _
  · dsimp only
    rw [s.sessions_forget]
    split
    · exact hforget
    · split
      · exact State.fail_forget (hrun _) _
      · exact State.setStage_forget (hrun _) _

theorem forget_respond (response : AgentResponse) :
    (respond cfg s.forget k req response now).forget =
      (respond cfg s k req response now).forget := by
  have hforget := State.forget_forget s
  unfold respond
  split
  · exact State.reply_forget hforget ..
  · rename_i idHex _
    obtain ⟨hresult, hchannels⟩ := forget_buildReceipt cfg.toChannelConfig s.channels idHex
      req.backend req.sessionId response.usage req.prevAck
    rw [s.channels_forget]
    generalize buildReceipt cfg.toChannelConfig s.channels.forget idHex req.backend req.sessionId
      response.usage req.prevAck = r at hresult hchannels ⊢
    generalize buildReceipt cfg.toChannelConfig s.channels idHex req.backend req.sessionId
      response.usage req.prevAck = r' at hresult hchannels ⊢
    obtain ⟨channels, r⟩ := r
    obtain ⟨channels', r'⟩ := r'
    obtain rfl : r = r' := hresult
    cases r with
    | error e => exact State.fail_forget (State.withChannels_forget hforget hchannels) _
    | ok receipt => exact State.reply_forget (State.withChannels_forget hforget hchannels) ..

/-- **No step reads the last acks.** -/
theorem forget_next (a : Action W) :
    (next cfg s.forget a).forget = (next cfg s a).forget := by
  have hforget := State.forget_forget s
  cases ha : a.request with
  | some k =>
    cases hk : s.flights k with
    | some f =>
      obtain ⟨req, stage⟩ := f
      have S : Stagewise cfg (fun u t => u.forget = t.forget) s.forget s k k req stage :=
        { left := hk
          right := hk
          idle := hforget
          setStage := State.setStage_forget hforget
          gate := fun _ _ => forget_gate cfg s
          gateFetched := fun _ _ => forget_gateFetched cfg s
          backendStep := fun _ fuel w _ => forget_backendStep cfg s fuel w
          respond := fun response _ => forget_respond cfg s response }
      have hnext := S.next ha
      rwa [onRequest_self ha] at hnext
    | none =>
      have hidle : ∀ u : State, u.flights k = none → next cfg u a = u := by
        intro u hu
        cases a <;> simp_all [next, Action.request]
      rw [hidle s hk, hidle s.forget hk, hforget]
  | none =>
    cases a with
    | receive req now => exact forget_receive cfg s req now
    | ack a =>
      exact State.withChannels_forget hforget (forget_ack cfg.toChannelConfig s.channels a)
    | snapshot now => exact State.forget_forget { s with activity := s.activity.snapshot now }
    | gate | ethCall | gateFetched | backendStep | respond => simp [Action.request] at ha

end Flodex.Node
