import Flodex.Node.Stages

/-!
# What a request is charged

`calls` are the provider calls made while the node serves a request, and `increase` is what the
request adds to the amount owed on its channel. `billing` compares the two: an answered request is
charged for all its calls, and a request that fails for none, whatever it cost the node.
-/

namespace Flodex

/-! ## Sums of usages -/

/-- The tokens of some calls. -/
def sumTokens (us : List Usage) : ℕ := (us.map Node.totalTokens).sum

/-- Each counter of the calls adds up to a `u32`. -/
structure InRange (us : List Usage) : Prop where
  input : (us.map fun u => u.inputTokens.toNat).sum < 2 ^ 32
  output : (us.map fun u => u.outputTokens.toNat).sum < 2 ^ 32
  creation : (us.map fun u => (u.cacheCreationInputTokens.getD 0).toNat).sum < 2 ^ 32
  read : (us.map fun u => (u.cacheReadInputTokens.getD 0).toNat).sum < 2 ^ 32

theorem toNat_saturatingAdd32 {a b : UInt32} (h : a.toNat + b.toNat < 2 ^ 32) :
    (saturatingAdd32 a b).toNat = a.toNat + b.toNat := by
  rw [saturatingAdd32, saturatingAdd_of_lt h, UInt32.toNat_ofNat_of_lt' h]

theorem toNat_sumOpt {a b : Option UInt32} (h : (a.getD 0).toNat + (b.getD 0).toNat < 2 ^ 32) :
    ((sumOpt a b).getD 0).toNat = (a.getD 0).toNat + (b.getD 0).toNat := by
  cases a with
  | none => cases b <;> simp [sumOpt]
  | some x =>
    cases b with
    | none => simp [sumOpt]
    | some y => exact toNat_saturatingAdd32 h

/-- A counter that adds up below the limit is the sum over the calls. -/
theorem counter_foldl (f : Usage → ℕ) (hzero : f .zero = 0)
    (hadd : ∀ u v, f u + f v < 2 ^ 32 → f (u.add v) = f u + f v) {us : List Usage}
    (h : (us.map f).sum < 2 ^ 32) : f (us.foldl Usage.add .zero) = (us.map f).sum := by
  induction us using List.reverseRecOn with
  | nil => exact hzero
  | append_singleton us u ih =>
    rw [List.map_append, List.sum_append] at h ⊢
    simp only [List.map_cons, List.map_nil, List.sum_cons, List.sum_nil, add_zero] at h ⊢
    have ih := ih (by omega)
    rw [List.foldl_concat, hadd _ _ (by omega), ih]

theorem sumTokens_eq (us : List Usage) : sumTokens us =
    (us.map fun u => u.inputTokens.toNat).sum + (us.map fun u => u.outputTokens.toNat).sum +
      (us.map fun u => (u.cacheCreationInputTokens.getD 0).toNat).sum +
      (us.map fun u => (u.cacheReadInputTokens.getD 0).toNat).sum := by
  simp only [← List.sum_map_add, sumTokens]
  rfl

/-- **The sum of usages** has the tokens of all of them. -/
theorem totalTokens_foldl {us : List Usage} (h : InRange us) :
    Node.totalTokens (us.foldl Usage.add .zero) = sumTokens us := by
  have hinput := counter_foldl (fun u => u.inputTokens.toNat) rfl
    (fun u v => toNat_saturatingAdd32) h.input
  have houtput := counter_foldl (fun u => u.outputTokens.toNat) rfl
    (fun u v => toNat_saturatingAdd32) h.output
  have hcreation := counter_foldl (fun u => (u.cacheCreationInputTokens.getD 0).toNat) rfl
    (fun u v => toNat_sumOpt) h.creation
  have hread := counter_foldl (fun u => (u.cacheReadInputTokens.getD 0).toNat) rfl
    (fun u v => toNat_sumOpt) h.read
  rw [sumTokens_eq, Node.totalTokens, hinput, houtput, hcreation, hread]

namespace Node

variable {W : Type*}

/-! ## The calls and the charge of a request -/

/-- The provider calls that an event makes. -/
def calls (cfg : Config W) (e : Step W) : List Usage :=
  match e.act with
  | .backendStep k fuel w _ =>
    match e.pre.flights k with
    | some ⟨req, .admitted step⟩ =>
      match agentOf cfg req.backend with
      | .ok agent =>
        agent.calls fuel w ((e.pre.sessions req.backend req.sessionId).getD []) (.ofStep step)
      | .error _ => []
    | _ => []
  | _ => []

/-- The events of a request. -/
def eventsOf (k : ℕ) (h : List (Step W)) : List (Step W) :=
  h.filter fun e => e.act.request = some k

/-- The provider calls made while a request was served. -/
def callsOf (cfg : Config W) (k : ℕ) (h : List (Step W)) : List Usage :=
  (eventsOf k h).flatMap (calls cfg)

/-- What an event adds to the amount owed on a channel. -/
def added (id : Bytes32) (e : Step W) : ℤ :=
  (e.post.channels.state id).cumOwed - (e.pre.channels.state id).cumOwed

/-- What a request adds to the amount owed on a channel. -/
def increase (id : Bytes32) (k : ℕ) (h : List (Step W)) : ℤ :=
  ((eventsOf k h).map (added id)).sum

variable {cfg : Config W} {h : List (Step W)} {s t : State} {k : ℕ} {a : Action W} {e : Step W}
  {req : EncryptedRequest} {stage : Stage} {id : Bytes32}

theorem eventsOf_concat (hreq : e.act.request = some k) :
    eventsOf k (h ++ [e]) = eventsOf k h ++ [e] := by
  simp [eventsOf, hreq]

theorem eventsOf_concat_of_ne (hreq : e.act.request ≠ some k) :
    eventsOf k (h ++ [e]) = eventsOf k h := by
  simp [eventsOf, hreq]

theorem callsOf_concat (hreq : e.act.request = some k) :
    callsOf cfg k (h ++ [e]) = callsOf cfg k h ++ calls cfg e := by
  simp [callsOf, eventsOf_concat hreq]

theorem callsOf_concat_of_ne (hreq : e.act.request ≠ some k) :
    callsOf cfg k (h ++ [e]) = callsOf cfg k h := by
  simp [callsOf, eventsOf_concat_of_ne hreq]

theorem increase_concat (hreq : e.act.request = some k) :
    increase id k (h ++ [e]) = increase id k h + added id e := by
  simp [increase, eventsOf_concat hreq]

theorem increase_concat_of_ne (hreq : e.act.request ≠ some k) :
    increase id k (h ++ [e]) = increase id k h := by
  simp [increase, eventsOf_concat_of_ne hreq]

/-- A step of the backend that leaves the state made no calls that count: it has not returned. -/
theorem calls_of_idle (hidle : next cfg s a = s) : calls cfg ⟨s, a, next cfg s a⟩ = [] := by
  cases a with
  | backendStep k fuel w now =>
    simp only [calls]
    split
    · rename_i req step hflight
      split
      · rename_i agent hagent
        cases hstep : agent.step fuel w ((s.sessions req.backend req.sessionId).getD [])
          (.ofStep step) with
        | none => exact agent.calls_of_none hstep
        | some v =>
          obtain ⟨r, session, w'⟩ := v
          have hflights := congrArg (fun s => s.flights k) hidle
          simp only [next, hflight, backendStep, hagent, hstep] at hflights
          cases r <;> simp [State.fail] at hflights
      · rfl
    · rfl
  | receive | gate | ethCall | gateFetched | respond | ack | snapshot => rfl

/-- An event of the request that leaves the state counts for nothing. -/
theorem idle_concat (id : Bytes32) (hreq : a.request = some k) (hidle : next cfg t a = t) :
    callsOf cfg k (h ++ [⟨t, a, next cfg t a⟩]) = callsOf cfg k h ∧
      increase id k (h ++ [⟨t, a, next cfg t a⟩]) = increase id k h := by
  rw [callsOf_concat hreq, increase_concat hreq, calls_of_idle hidle, added, hidle]
  simp

/-- Nothing counts for a request that has not arrived. -/
theorem before_arrival (id : Bytes32) (r : Run (machine cfg) .start h t) (hk : t.flights k = none) :
    callsOf cfg k h = [] ∧ increase id k h = 0 := by
  refine r.invariantHistory (fun h t => t.flights k = none →
    callsOf cfg k h = [] ∧ increase id k h = 0) (fun _ _ => True) (fun _ _ _ _ => trivial)
    (fun _ => ⟨rfl, rfl⟩) (fun h t a run ih _ _ hnext => ?_) hk
  change (next cfg t a).flights k = none at hnext
  change callsOf cfg k (h ++ [⟨t, a, next cfg t a⟩]) = [] ∧
    increase id k (h ++ [⟨t, a, next cfg t a⟩]) = 0
  by_cases hreq : a.request = some k
  · rcases next_request cfg t hreq with hidle | ⟨req, stage, stage', -, -, hflights, -⟩
    · obtain ⟨hcalls, hincrease⟩ := idle_concat (h := h) id hreq hidle
      rw [hidle] at hnext
      rw [hcalls, hincrease]
      exact ih hnext
    · rw [hflights] at hnext
      simp at hnext
  · rw [callsOf_concat_of_ne hreq, increase_concat_of_ne hreq]
    refine ih ?_
    cases hk : t.flights k with
    | none => rfl
    | some f => simp [flights_next_of_ne run hk hreq] at hnext

/-! ## The bill -/

/-- What a request on the channel was charged at a stage, for its calls. -/
def Billed (cfg : ChannelConfig) (req : EncryptedRequest) (us : List Usage) (n : ℤ) :
    Stage → Prop
  | .opened _ => us = [] ∧ n = 0
  | .asked .. => us = [] ∧ n = 0
  | .fetched .. => us = [] ∧ n = 0
  | .admitted _ => us = [] ∧ n = 0
  | .answered response => response.usage = us.foldl Usage.add .zero ∧ n = 0
  | .done (.ok _) =>
    n = roundTripCost (us.foldl Usage.add .zero) (priceFor cfg.pricing req.backend)
  | .done (.error _) => n = 0

theorem added_of_same {channels : ChannelMap} (hch : (next cfg t a).channels = channels)
    (hsame : (channels.state id).cumOwed = (t.channels.state id).cumOwed) :
    added id ⟨t, a, next cfg t a⟩ = 0 := by
  simp [added, hch, hsame]

theorem cumOwed_recordPrevAck {cfg : ChannelConfig} {entry entry' : ChannelState}
    {prevAck : Option ClientAck} {idHex : String} {chainId : UInt64} {channelAddr : Address}
    (hcontract : cfg.contract = some (chainId, channelAddr)) (hid : channelIdFromHex idHex = .ok id)
    (h : recordPrevAck cfg entry prevAck idHex chainId channelAddr = .ok entry') :
    entry'.cumOwed = entry.cumOwed := by
  cases prevAck with
  | none =>
    obtain rfl := Except.ok.inj h
    rfl
  | some ack =>
    obtain ⟨signer, -, -, rfl⟩ := (verifyAndRecordAck_eq_ok hcontract hid).1 h
    rfl

/-- A charge below the limit of the counter adds the cost. -/
theorem added_of_charged {idHex : String} {channels : ChannelMap} {response : AgentResponse}
    {receipt : NodeSignedReceipt} (hch : (next cfg t a).channels = channels)
    (hbound : req.channelId = some idHex) (hid : req.OnChannel id)
    (hbuilt : buildReceipt cfg.toChannelConfig t.channels idHex req.backend req.sessionId
      response.usage req.prevAck = (channels, .ok receipt))
    (hlimit : (channels.state id).cumOwed < 2 ^ 128 - 1) :
    added id ⟨t, a, next cfg t a⟩ =
      roundTripCost response.usage (priceFor cfg.pricing req.backend) := by
  rcases buildReceipt_spec idHex req.backend req.sessionId response.usage req.prevAck hbuilt with
    ⟨e, he, -⟩ | ⟨chainId, channelAddr, id', entry, receipt', hrch, hrec, hr, -, -⟩
  · simp at he
  · have hid' : req.OnChannel id' := ⟨idHex, hbound, (resolveChannel_eq_ok.1 hrch).2⟩
    obtain rfl := hid.unique hid'
    obtain ⟨rfl, -⟩ := Prod.mk.inj hr
    have howed := cumOwed_recordPrevAck (resolveChannel_eq_ok.1 hrch).1
      (resolveChannel_eq_ok.1 hrch).2 hrec
    rw [state_update_self] at hlimit
    simp only [added, hch, state_update_self, ← howed]
    change saturatingAdd 128 entry.cumOwed _ < _ at hlimit
    change ((saturatingAdd 128 entry.cumOwed _ : ℕ) : ℤ) - _ = _
    rw [saturatingAdd] at hlimit ⊢
    omega

/-- A progress of the request keeps the bill. -/
theorem Billed.progress {stage' : Stage}
    (hbilled : Billed cfg.toChannelConfig req (callsOf cfg k h) (increase id k h) stage)
    (hid : req.OnChannel id) (hflight : t.flights k = some ⟨req, stage⟩) (hreq : a.request = some k)
    (hprogress : Progress cfg t k req a stage stage' (next cfg t a).channels)
    (hlimit : ((next cfg t a).channels.state id).cumOwed < 2 ^ 128 - 1) :
    Billed cfg.toChannelConfig req (callsOf cfg k (h ++ [⟨t, a, next cfg t a⟩]))
      (increase id k (h ++ [⟨t, a, next cfg t a⟩])) stage' := by
  rw [callsOf_concat hreq, increase_concat hreq]
  generalize hch : (next cfg t a).channels = channels at hprogress hlimit
  cases hprogress with
  | unbound free =>
    obtain ⟨idHex, hbound, -⟩ := hid
    simp [free] at hbound
  | asked bound unknown =>
    rw [added_of_same hch rfl, hbilled.1, hbilled.2]
    exact ⟨rfl, rfl⟩
  | solvent bound cached below =>
    rw [added_of_same hch rfl, hbilled.1, hbilled.2]
    exact ⟨rfl, rfl⟩
  | called =>
    rw [added_of_same hch rfl, hbilled.1, hbilled.2]
    exact ⟨rfl, rfl⟩
  | @fetched now step cumOwed data id' deposit bound decoded below =>
    rw [added_of_same hch (cumOwed_cacheDeposit ..), hbilled.1, hbilled.2]
    exact ⟨rfl, rfl⟩
  | ran configured returned =>
    rw [added_of_same hch rfl, hbilled.1, hbilled.2]
    refine ⟨?_, rfl⟩
    rw [AgentStepOutcome.usage_toResponse, AgentLoop.usage_step _ returned]
    simp only [calls, hflight, configured, List.nil_append]
  | replied free =>
    obtain ⟨idHex, hbound, -⟩ := hid
    simp [free] at hbound
  | charged bound built =>
    rw [added_of_charged hch bound hid built hlimit, hbilled.1, hbilled.2]
    simp [Billed, calls]
  | failed e going unchanged =>
    rw [added_of_same hch (unchanged id)]
    cases stage with
    | done reply => exact absurd rfl (going reply)
    | opened | asked | fetched | admitted | answered =>
      rw [hbilled.2]
      exact rfl

theorem billed (r : Run (machine cfg) .start h t)
    (hlimit : ∀ e ∈ h, (e.post.channels.state id).cumOwed < 2 ^ 128 - 1)
    (hk : t.flights k = some ⟨req, stage⟩) (hid : req.OnChannel id) :
    Billed cfg.toChannelConfig req (callsOf cfg k h) (increase id k h) stage := by
  refine request_invariant (fun h k req stage => req.OnChannel id →
      Billed cfg.toChannelConfig req (callsOf cfg k h) (increase id k h) stage)
    (fun _ e => (e.post.channels.state id).cumOwed < 2 ^ 128 - 1) r (along_of_forall hlimit)
    ?_ ?_ ?_ hk hid
  · intro h t req now run _
    obtain ⟨hcalls, hincrease⟩ := before_arrival id run (flights_of_le run le_rfl)
    rw [callsOf_concat_of_ne (by simp [Action.request]),
      increase_concat_of_ne (by simp [Action.request]), hcalls, hincrease]
    rcases arrival_cases cfg req with ⟨step, h⟩ | ⟨e, h⟩
    · rw [h]
      exact ⟨rfl, rfl⟩
    · rw [h]
      exact rfl
  · intro h t a k req stage _ hbilled hidle hid
    by_cases hreq : a.request = some k
    · obtain ⟨hcalls, hincrease⟩ := idle_concat (h := h) id hreq (hidle hreq)
      rw [hcalls, hincrease]
      exact hbilled hid
    · rw [callsOf_concat_of_ne hreq, increase_concat_of_ne hreq]
      exact hbilled hid
  · intro h t a k req stage stage' _ hlimit hflight hbilled hreq hprogress hid
    exact (hbilled hid).progress hid hflight hreq hprogress hlimit

/-- **Billing**: a request on a channel is charged for all the provider calls made while it was
served when it is answered, and for none of them when it fails. -/
theorem billing {reply : Except ApiError Reply} (r : Run (machine cfg) .start h t)
    (hk : t.flights k = some ⟨req, .done reply⟩) (hid : req.OnChannel id)
    (hrange : InRange (callsOf cfg k h))
    (hprice : sumTokens (callsOf cfg k h) * priceFor cfg.pricing req.backend < 2 ^ 128)
    (hlimit : ∀ e ∈ h, (e.post.channels.state id).cumOwed < 2 ^ 128 - 1) :
    increase id k h = match reply with
      | .ok _ =>
        ((sumTokens (callsOf cfg k h) * priceFor cfg.pricing req.backend / 1000 : ℕ) : ℤ)
      | .error _ => 0 := by
  have hbilled := billed r hlimit hk hid
  cases reply with
  | error e => exact hbilled
  | ok reply =>
    rw [show increase id k h = _ from hbilled, roundTripCost, totalTokens_foldl hrange,
      Nat.mod_eq_of_lt hprice]

/-! ## A request that fails -/

namespace Deployment

open JobChannel.Deployment (channelId)

variable {agent : AgentLoop Unit} {as : List (Action Unit)} {flights : ℕ → Option Flight} {n : ℕ}
  {L : List Mark} {step : AgentStep}

theorem limit_of_spent (S : Standing agent as flights n L) (hspent : spent L < 2 ^ 128 - 1) :
    ∀ e ∈ trace agent as, (e.post.channels.state channelId).cumOwed < 2 ^ 128 - 1 := by
  intro e he
  have hle := cumOwed_le_spent (run agent as) he channelId
  rw [show chronicle _ channelId (trace agent as) = L from S.chronicle_eq] at hle
  omega

theorem onChannel_request : request.OnChannel channelId :=
  ⟨_, rfl, channelIdFromHex_hexText channelId⟩

/-- The calls of a request whose agent just ran. -/
theorem callsOf_backendStep (S : Standing agent as flights n L) (hspent : spent L < 2 ^ 128 - 1)
    (hk : flights k = some ⟨request, .admitted step⟩) (fuel : ℕ) :
    ∃ session, callsOf (node agent) k (trace agent (as ++ [.backendStep k fuel () 0])) =
      agent.calls fuel () session (.ofStep step) := by
  have hk' : (final agent as).flights k = _ := (congrFun S.flights_eq k).trans hk
  obtain ⟨hcalls, -⟩ := billed (run agent as) (limit_of_spent S hspent) hk' onChannel_request
  refine ⟨((final agent as).sessions request.backend request.sessionId).getD [], ?_⟩
  rw [trace_concat, callsOf_concat (by rfl), hcalls, List.nil_append]
  simp only [calls, hk']
  rfl

/-- An agent whose provider stops early, after ten tokens. -/
def quitter : AgentLoop Unit where
  provider w _ := (.ok ⟨[], "max_tokens", ⟨10, 0, none, none⟩⟩, w)
  maxTokens := 16000
  systemPrompt := ""
  registry := []

/-- An agent whose provider pauses its turn after ten tokens, and ends it after twenty more. -/
def ponderer : AgentLoop Unit where
  provider w req :=
    if (req.messages.getLast?.bind (Value.getStr "role")) = some "user" then
      (.ok ⟨[], "pause_turn", ⟨8, 2, none, none⟩⟩, w)
    else (.ok ⟨[], "end_turn", ⟨12, 8, none, none⟩⟩, w)
  maxTokens := 16000
  systemPrompt := ""
  registry := []

theorem step_ponderer (session : List Value) (step : AgentStep) :
    (∃ session' w', ponderer.step 2 () session (.ofStep step) =
      some (.ok (.final "" ⟨20, 10, none, none⟩), session', w')) ∧
    ponderer.calls 2 () session (.ofStep step) = [⟨8, 2, none, none⟩, ⟨12, 8, none, none⟩] := by
  have huser : (inputToUserMessage (.ofStep step)).getStr "role" = some "user" := by
    cases step <;> rfl
  have hassistant : (message "assistant" []).getStr "role" = some "assistant" := rfl
  have htext : extractText [] = "" := by decide
  have husage : (Usage.zero.add ⟨8, 2, none, none⟩).add ⟨12, 8, none, none⟩ =
      ⟨20, 10, none, none⟩ := by decide
  constructor
  · simp [AgentLoop.step, AgentLoop.steps, AgentLoop.turn, AgentLoop.request, AgentLoop.respond,
      ponderer, huser, hassistant, htext, husage]
  · simp [AgentLoop.calls, AgentLoop.logged, AgentLoop.step, AgentLoop.steps, AgentLoop.turn,
      AgentLoop.request, AgentLoop.respond, ponderer, huser, hassistant]

theorem step_quitter (session : List Value) (step : AgentStep) :
    (∃ session' w', quitter.step 1 () session (.ofStep step) =
      some (.error (.unexpectedStopReason "max_tokens"), session', w')) ∧
    quitter.calls 1 () session (.ofStep step) = [⟨10, 0, none, none⟩] :=
  ⟨⟨_, _, rfl⟩, rfl⟩

/-- One request that the ponderer answers. -/
def answered : List (Action Unit) := entering 0 100 ++ [.backendStep 0 2 () 0] ++ [.respond 0 0]

/-- One request that the quitter works on. -/
def abandoned : List (Action Unit) := entering 0 100 ++ [.backendStep 0 1 () 0]

theorem price_request (agent : AgentLoop Unit) :
    priceFor (node agent).pricing request.backend = 1000 := priceFor_node agent

theorem inRange_thirty : InRange [⟨8, 2, none, none⟩, ⟨12, 8, none, none⟩] := by
  constructor <;> simp

end Deployment

open Deployment

open JobChannel.Deployment (channelId)

/-- Two calls of the provider, of ten tokens and of twenty, are charged together. -/
theorem billing_answered :
    callsOf (node ponderer) 0 (trace ponderer answered) =
        [⟨8, 2, none, none⟩, ⟨12, 8, none, none⟩] ∧
      increase channelId 0 (trace ponderer answered) = 30 := by
  have S₁ : Standing ponderer (entering 0 100) _ _ _ :=
    (standing_nil ponderer).enter (d := 100) rfl (by omega) (by decide)
  obtain ⟨receipt, S₂, -, -⟩ := (S₁.answer (Function.update_self ..) fun session =>
    (step_ponderer session _).1).respond (Function.update_self ..)
  have S : Standing ponderer answered _ _ _ := S₂
  obtain ⟨session, hcalls⟩ := callsOf_backendStep S₁ (by decide) (Function.update_self ..) 2
  have hcalls : callsOf (node ponderer) 0 (trace ponderer answered) =
      [⟨8, 2, none, none⟩, ⟨12, 8, none, none⟩] := by
    rw [answered, trace_concat, callsOf_concat (by rfl), hcalls, (step_ponderer session _).2]
    rfl
  have hflight : (final ponderer answered).flights 0 = some ⟨request,
      .done (.ok ⟨"session", .final "" ⟨20, 10, none, none⟩, some receipt⟩)⟩ :=
    (congrFun S.flights_eq 0).trans (Function.update_self ..)
  have hrange : InRange (callsOf (node ponderer) 0 (trace ponderer answered)) := by
    rw [hcalls]
    exact inRange_thirty
  have hbilled := billing (run ponderer answered) hflight onChannel_request hrange
    (by rw [hcalls, price_request]; decide) (limit_of_spent S (show 30 < 2 ^ 128 - 1 by decide))
  refine ⟨hcalls, ?_⟩
  rw [hbilled, hcalls, price_request]
  rfl

/-- The provider was called for ten tokens, and the request that failed is charged nothing. -/
theorem failed_request_unbilled :
    (∃ e, (final quitter abandoned).flights 0 = some ⟨request, .done (.error e)⟩) ∧
      increase channelId 0 (trace quitter abandoned) ≠
        ((sumTokens (callsOf (node quitter) 0 (trace quitter abandoned)) *
          priceFor (node quitter).pricing request.backend / 1000 : ℕ) : ℤ) := by
  have S₁ : Standing quitter (entering 0 100) _ _ _ :=
    (standing_nil quitter).enter (d := 100) rfl (by omega) (by decide)
  have S : Standing quitter abandoned _ _ _ :=
    S₁.quit (Function.update_self ..) fun session => (step_quitter session _).1
  have hflight : (final quitter abandoned).flights 0 = _ :=
    (congrFun S.flights_eq 0).trans (Function.update_self ..)
  obtain ⟨session, hcalls⟩ := callsOf_backendStep S₁ (by decide) (Function.update_self ..) 1
  rw [(step_quitter session _).2] at hcalls
  have hbilled := billed (run quitter abandoned) (limit_of_spent S (by decide)) hflight
    onChannel_request
  have hzero : increase channelId 0 (trace quitter abandoned) = 0 := hbilled
  refine ⟨⟨_, hflight⟩, ?_⟩
  rw [hzero, abandoned, hcalls, price_request]
  decide

end Node

end Flodex
