import Flodex.Node.Server

/-!
# The book of a channel

Seen from one channel, a run of the node is a list of marks: the deposit was cached, an ack was
accepted, a receipt was issued. `book` is the machine that takes these marks, each with what the
node checked for it, and `simulates` says that the node refines it, for every channel at once.
`marks` reads the marks of an event off the model of the code; the properties of acks and receipts
are proved about runs of the book.
-/

namespace Flodex.Node

open Function

variable {W : Type*}

/-! ## The book -/

/-- What happens to a channel. -/
inductive Mark
  | cached (deposit : ℕ)
  | acked (ack : ClientAck) (signer : Address)
  | issued (receipt : NodeSignedReceipt) (cost : ℕ)

def Mark.apply (c : ChannelState) : Mark → ChannelState
  | .cached deposit => { c with deposit := some deposit }
  | .acked ack signer => c.record ack signer
  | .issued _ cost => c.charge cost

/-- The book of a channel. -/
def book (cfg : ChannelConfig) (id : Bytes32) : Machine ChannelState Mark where
  Init c := c = .new
  Legal c
    | .cached _ => True
    | .acked ack signer => SignedBy cfg id ack signer ∧ ∀ known ∈ c.clientAddress, known = signer
    | .issued receipt cost => (∃ idHex, channelIdFromHex idHex = .ok id ∧
        receipt.update = (c.charge cost).update idHex) ∧
      receipt.breakdown.roundTripCost = cost.repr ∧ cost < 2 ^ 128
  next := Mark.apply

/-! ## Reading the marks off the code -/

variable (cfg : ChannelConfig) (channels : ChannelMap) (id : Bytes32)

/-- The mark of an ack that was verified with the entry as the result. -/
def ackedMarks (ack : ClientAck) : Except ProtocolError ChannelState → List Mark
  | .ok entry => entry.clientAddress.toList.map (.acked ack)
  | .error _ => []

/-- The marks of a standalone ack. -/
def ackMarks (ack : ClientAck) : List Mark :=
  match ackChannel cfg ack with
  | .ok (chainId, channelAddr, id') =>
    if id' = id then
      ackedMarks ack (verifyAndRecordAck cfg (channels.state id) ack ack.update.channelId chainId
        channelAddr)
    else []
  | .error _ => []

/-- The marks of a receipt and the ack that came with its request. -/
def receiptMarks (idHex : String) (backend : BackendType) (sessionId : String) (usage : Usage)
    (prevAck : Option ClientAck) : List Mark :=
  match receiptChannel cfg idHex,
    (buildReceipt cfg channels idHex backend sessionId usage prevAck).2 with
  | .ok (chainId, channelAddr, id'), .ok receipt =>
    if id' = id then
      (prevAck.toList.flatMap fun ack => ackedMarks ack
        (verifyAndRecordAck cfg (channels.state id) ack idHex chainId channelAddr)) ++
        [.issued receipt (roundTripCost usage (priceFor cfg.pricing backend))]
    else []
  | _, _ => []

/-- The mark of a deposit that the gate caches. -/
def cacheMarks (idHex : String) (returndata : Except String (List UInt8)) : List Mark :=
  match gateChannel cfg idHex, returndata.bind decodeChannelDeposit with
  | .ok (_, _, id'), .ok deposit => if id' = id then [.cached deposit] else []
  | _, _ => []

/-- The marks of an event. -/
def marks (e : Step W) : List Mark :=
  match e.act with
  | .gateFetched k _ =>
    match e.pre.flights k with
    | some ⟨req, .fetched _ _ returndata⟩ =>
      req.channelId.toList.flatMap fun idHex => cacheMarks cfg id idHex returndata
    | _ => []
  | .respond k _ =>
    match e.pre.flights k with
    | some ⟨req, .answered response⟩ =>
      req.channelId.toList.flatMap fun idHex => receiptMarks cfg e.pre.channels id idHex
        req.backend req.sessionId response.usage req.prevAck
    | _ => []
  | .ack a => ackMarks cfg e.pre.channels id a
  | _ => []

theorem marks_ack (s t : State) (a : ClientAck) :
    marks (W := W) cfg id ⟨s, .ack a, t⟩ = ackMarks cfg s.channels id a := by
  simp only [marks]

/-- The marks of a history, in order. -/
def chronicle (h : List (Step W)) : List Mark := h.flatMap (marks cfg id)

/-! ## The channel map -/

variable {cfg channels id} {id' : Bytes32} {c : ChannelState} {idHex : String}
  {chainId : UInt64} {channelAddr : Address} {ack : ClientAck}

@[simp] theorem state_update_self (channels : ChannelMap) (id : Bytes32) (c : ChannelState) :
    ChannelMap.state (update channels id (some c)) id = c := by
  simp [ChannelMap.state]

theorem state_update_of_ne (channels : ChannelMap) (c : ChannelState) (h : id' ≠ id) :
    ChannelMap.state (update channels id (some c)) id' = channels.state id' := by
  simp [ChannelMap.state, update_of_ne h]

/-- Writing the state a channel has changes no state. -/
theorem state_update_state (channels : ChannelMap) (id id' : Bytes32) :
    ChannelMap.state (update channels id (some (channels.state id))) id' = channels.state id' := by
  by_cases h : id' = id
  · subst h
    exact state_update_self ..
  · exact state_update_of_ne _ _ h

/-- The gate reads the state of a channel. -/
theorem gateRead_eq (channels : ChannelMap) (id : Bytes32) :
    gateRead channels id = ((channels.state id).deposit, (channels.state id).cumOwed) := by
  unfold gateRead ChannelMap.state
  cases channels id <;> rfl

/-! ## Each place is a run of the book -/

/-- The run of the book over some marks. -/
def Marked (cfg : ChannelConfig) (id : Bytes32) (c : ChannelState) (ms : List Mark)
    (c' : ChannelState) : Prop :=
  ∃ k, Run (book cfg id) c k c' ∧ k.map Event.act = ms

theorem Marked.nil : Marked cfg id c [] c := ⟨[], .nil, rfl⟩

theorem Marked.single {m : Mark} (legal : (book cfg id).Legal c m) :
    Marked cfg id c [m] (m.apply c) := ⟨_, .single legal, rfl⟩

theorem Marked.append {c' c'' : ChannelState} {ms ms' : List Mark} (h : Marked cfg id c ms c')
    (h' : Marked cfg id c' ms' c'') : Marked cfg id c (ms ++ ms') c'' := by
  obtain ⟨k, hk, rfl⟩ := h
  obtain ⟨k', hk', rfl⟩ := h'
  exact ⟨k ++ k', hk.trans hk', by simp⟩

theorem marked_verify {entry' : ChannelState}
    (hcontract : cfg.contract = some (chainId, channelAddr)) (hid : channelIdFromHex idHex = .ok id)
    (h : verifyAndRecordAck cfg c ack idHex chainId channelAddr = .ok entry') :
    Marked cfg id c (ackedMarks ack (.ok entry')) entry' := by
  obtain ⟨signer, hsigned, hknown, rfl⟩ := (verifyAndRecordAck_eq_ok hcontract hid).1 h
  exact .single (m := .acked ack signer) ⟨hsigned, hknown⟩

theorem marked_ack (a : ClientAck) :
    Marked cfg id (channels.state id) (ackMarks cfg channels id a)
      ((Node.ack cfg channels a).1.state id) := by
  unfold ackMarks Node.ack
  cases hch : ackChannel cfg a with
  | error e => exact .nil
  | ok v =>
    obtain ⟨chainId, channelAddr, id'⟩ := v
    obtain ⟨hcontract, hid⟩ := resolveChannel_eq_ok.1 hch
    dsimp only
    by_cases h : id' = id
    · subst h
      rw [if_pos rfl]
      cases hv : verifyAndRecordAck cfg (channels.state id') a a.update.channelId chainId
        channelAddr with
      | error e =>
        rw [state_update_state]
        exact .nil
      | ok entry =>
        rw [state_update_self]
        exact marked_verify hcontract hid hv
    · rw [if_neg h]
      cases verifyAndRecordAck cfg (channels.state id') a a.update.channelId chainId
        channelAddr with
      | error e =>
        rw [state_update_state]
        exact .nil
      | ok entry =>
        rw [state_update_of_ne _ _ (Ne.symm h)]
        exact .nil

/-- The receipt for a charge that goes through. -/
theorem buildReceipt_ok {entry : ChannelState} {prevAck : Option ClientAck}
    (hch : receiptChannel cfg idHex = .ok (chainId, channelAddr, id))
    (hrec : recordPrevAck cfg (channels.state id) prevAck idHex chainId channelAddr = .ok entry)
    (backend : BackendType) (sessionId : String) (usage : Usage) :
    let cost := roundTripCost usage (priceFor cfg.pricing backend)
    ∃ receipt, buildReceipt cfg channels idHex backend sessionId usage prevAck =
        (update channels id (some (entry.charge cost)), .ok receipt) ∧
      receipt.update = (entry.charge cost).update idHex ∧
      receipt.breakdown = ⟨sessionId, backend, usage, (priceFor cfg.pricing backend).repr,
        cost.repr⟩ := by
  obtain ⟨canonical, hcanonical⟩ := channelUpdateCanonicalFor_charge cfg entry
    (roundTripCost usage (priceFor cfg.pricing backend)) chainId channelAddr
    (resolveChannel_eq_ok.1 hch).2
  simp only [buildReceipt, hch, hrec, hcanonical]
  refine ⟨_, rfl, ?_⟩
  exact ⟨rfl, rfl⟩

/-- **What `buildReceipt` does**: nothing that shows, or it charges the entry with the ack of the
request recorded, and the receipt is on the charged state. -/
theorem buildReceipt_spec (idHex : String) (backend : BackendType) (sessionId : String)
    (usage : Usage) (prevAck : Option ClientAck)
    {r : ChannelMap × Except ApiError NodeSignedReceipt}
    (hr : buildReceipt cfg channels idHex backend sessionId usage prevAck = r) :
    (∃ e, r.2 = .error e ∧ ∀ id, r.1.state id = channels.state id) ∨
    ∃ chainId channelAddr id entry receipt,
      receiptChannel cfg idHex = .ok (chainId, channelAddr, id) ∧
      recordPrevAck cfg (channels.state id) prevAck idHex chainId channelAddr = .ok entry ∧
      let cost := roundTripCost usage (priceFor cfg.pricing backend)
      r = (update channels id (some (entry.charge cost)), .ok receipt) ∧
        receipt.update = (entry.charge cost).update idHex ∧
        receipt.breakdown = ⟨sessionId, backend, usage, (priceFor cfg.pricing backend).repr,
          cost.repr⟩ := by
  subst hr
  cases hch : receiptChannel cfg idHex with
  | error e =>
    refine .inl ⟨e, ?_⟩
    simp only [buildReceipt, hch, implies_true, and_self]
  | ok v =>
    obtain ⟨chainId, channelAddr, id⟩ := v
    cases hrec : recordPrevAck cfg (channels.state id) prevAck idHex chainId channelAddr with
    | error e =>
      refine .inl ⟨.badRequest "invalid prev_ack: " (some (.protocol e)), ?_⟩
      simp only [buildReceipt, hch, hrec, true_and]
      exact state_update_state channels id
    | ok entry =>
      obtain ⟨receipt, hbuilt⟩ := buildReceipt_ok hch hrec backend sessionId usage
      exact .inr ⟨chainId, channelAddr, id, entry, receipt, rfl, hrec, hbuilt⟩

theorem roundTripCost_lt (usage : Usage) (price : ℕ) : roundTripCost usage price < 2 ^ 128 := by
  have : totalTokens usage * price % 2 ^ 128 < 2 ^ 128 := Nat.mod_lt _ (by norm_num)
  exact (Nat.div_le_self _ _).trans_lt this

theorem marked_recordPrevAck {prevAck : Option ClientAck} {entry' : ChannelState}
    (hcontract : cfg.contract = some (chainId, channelAddr)) (hid : channelIdFromHex idHex = .ok id)
    (h : recordPrevAck cfg c prevAck idHex chainId channelAddr = .ok entry') :
    Marked cfg id c (prevAck.toList.flatMap fun ack => ackedMarks ack
      (verifyAndRecordAck cfg c ack idHex chainId channelAddr)) entry' := by
  cases prevAck with
  | none =>
    obtain rfl := Except.ok.inj h
    exact .nil
  | some ack =>
    have hv : verifyAndRecordAck cfg c ack idHex chainId channelAddr = .ok entry' := h
    simp only [Option.toList_some, List.flatMap_cons, List.flatMap_nil, List.append_nil, hv]
    exact marked_verify hcontract hid hv

theorem marked_receipt (cfg : ChannelConfig) (channels : ChannelMap) (id : Bytes32)
    (idHex : String) (backend : BackendType) (sessionId : String) (usage : Usage)
    (prevAck : Option ClientAck) :
    Marked cfg id (channels.state id)
      (receiptMarks cfg channels id idHex backend sessionId usage prevAck)
      ((buildReceipt cfg channels idHex backend sessionId usage prevAck).1.state id) := by
  unfold receiptMarks
  rcases buildReceipt_spec idHex backend sessionId usage prevAck rfl with
    ⟨e, herr, hsame⟩ | ⟨chainId, channelAddr, id', entry, receipt, hch, hrec, hr, hupdate, hbreak⟩
  · rw [herr, hsame]
    cases receiptChannel cfg idHex <;> exact .nil
  · obtain ⟨hcontract, hid⟩ := resolveChannel_eq_ok.1 hch
    rw [hr, hch]
    dsimp only
    by_cases h : id' = id
    · subst h
      rw [if_pos rfl, state_update_self]
      refine (marked_recordPrevAck hcontract hid hrec).append (.single ?_)
      exact ⟨⟨idHex, hid, hupdate⟩, by rw [hbreak], roundTripCost_lt _ _⟩
    · rw [if_neg h, state_update_of_ne _ _ (Ne.symm h)]
      exact .nil

/-! ## The node -/

variable {config : Config W} {s t : State} {h : List (Step W)} {k : ℕ} {req : EncryptedRequest}
  {now : ℤ}

@[simp] theorem setStage_channels (stage : Stage) :
    (s.setStage k req stage).channels = s.channels := rfl

@[simp] theorem setStage_flights (stage : Stage) :
    (s.setStage k req stage).flights = update s.flights k (some ⟨req, stage⟩) := rfl

@[simp] theorem setStage_received (stage : Stage) :
    (s.setStage k req stage).received = s.received := rfl

@[simp] theorem fail_channels (e : ApiError) : (s.fail k req now e).channels = s.channels := rfl

@[simp] theorem reply_channels (response : AgentResponse) (receipt : Option NodeSignedReceipt) :
    (reply s k req response receipt now).channels = s.channels := rfl

@[simp] theorem reply_flights (response : AgentResponse) (receipt : Option NodeSignedReceipt) :
    (reply s k req response receipt now).flights =
      update s.flights k (some ⟨req, .done (.ok ⟨req.sessionId, response, receipt⟩)⟩) := rfl

@[simp] theorem reply_received (response : AgentResponse) (receipt : Option NodeSignedReceipt) :
    (reply s k req response receipt now).received = s.received := rfl

@[simp] theorem passGate_channels (step : AgentStep) (idHex : String) (deposit cumOwed : ℕ) :
    (passGate s k req step now idHex deposit cumOwed).channels = s.channels := by
  unfold passGate
  split <;> rfl

@[simp] theorem receive_channels : (receive config s req now).channels = s.channels := by
  unfold receive
  dsimp only
  split <;> rfl

@[simp] theorem gate_channels (step : AgentStep) :
    (gate config s k req step now).channels = s.channels := by
  unfold gate
  split
  · rfl
  · split
    · rfl
    · split <;> simp

@[simp] theorem backendStep_channels (step : AgentStep) (fuel : ℕ) (w : W) :
    (backendStep config s k req step fuel w now).channels = s.channels := by
  unfold backendStep
  split
  · rfl
  · dsimp only
    split
    · rfl
    · split <;> rfl

theorem marked_gateFetched (step : AgentStep) (cumOwed : ℕ)
    (returndata : Except String (List UInt8)) :
    Marked config.toChannelConfig id (s.channels.state id)
      (req.channelId.toList.flatMap fun idHex =>
        cacheMarks config.toChannelConfig id idHex returndata)
      ((gateFetched config s k req step now cumOwed returndata).channels.state id) := by
  unfold gateFetched
  cases req.channelId with
  | none => exact .nil
  | some idHex =>
    simp only [Option.toList_some, List.flatMap_cons, List.flatMap_nil, List.append_nil, cacheMarks]
    cases gateChannel config.toChannelConfig idHex with
    | error e => exact .nil
    | ok v =>
      obtain ⟨chainId, channelAddr, id'⟩ := v
      cases returndata with
      | error e => exact .nil
      | ok data =>
        simp only [Except.bind]
        cases decodeChannelDeposit data with
        | error e => exact .nil
        | ok deposit =>
          simp only [passGate_channels, cacheDeposit]
          by_cases h : id' = id
          · subst h
            rw [if_pos rfl, state_update_self]
            exact .single (m := .cached deposit) trivial
          · rw [if_neg h, state_update_of_ne _ _ (Ne.symm h)]
            exact .nil

theorem marked_respond (response : AgentResponse) :
    Marked config.toChannelConfig id (s.channels.state id)
      (req.channelId.toList.flatMap fun idHex => receiptMarks config.toChannelConfig s.channels id
        idHex req.backend req.sessionId response.usage req.prevAck)
      ((respond config s k req response now).channels.state id) := by
  unfold respond
  cases req.channelId with
  | none => exact .nil
  | some idHex =>
    simp only [Option.toList_some, List.flatMap_cons, List.flatMap_nil, List.append_nil]
    have := marked_receipt config.toChannelConfig s.channels id idHex req.backend req.sessionId
      response.usage req.prevAck
    generalize buildReceipt config.toChannelConfig s.channels idHex req.backend req.sessionId
      response.usage req.prevAck = r at this ⊢
    obtain ⟨channels, r⟩ := r
    cases r <;> exact this

/-- **Every event of the node is a run of the book of each channel.** -/
theorem marked_next (s : State) (a : Action W) (id : Bytes32) :
    Marked config.toChannelConfig id (s.channels.state id)
      (marks config.toChannelConfig id ⟨s, a, next config s a⟩)
      ((next config s a).channels.state id) := by
  cases a with
  | receive req now =>
    simp only [next, receive_channels]
    exact .nil
  | gate k now =>
    simp only [next]
    split <;> (try rw [gate_channels]) <;> exact .nil
  | ethCall k returndata =>
    simp only [next]
    split <;> exact .nil
  | gateFetched k now =>
    rcases hk : s.flights k with _ | ⟨req, stage⟩
    · simp only [next, marks, hk]
      exact .nil
    · cases stage with
      | fetched step cumOwed returndata =>
        simp only [next, marks, hk]
        exact marked_gateFetched ..
      | opened | asked | admitted | answered | done =>
        simp only [next, marks, hk]
        exact .nil
  | backendStep k fuel w now =>
    simp only [next]
    split <;> (try rw [backendStep_channels]) <;> exact .nil
  | respond k now =>
    rcases hk : s.flights k with _ | ⟨req, stage⟩
    · simp only [next, marks, hk]
      exact .nil
    · cases stage with
      | answered response =>
        simp only [next, marks, hk]
        exact marked_respond response
      | opened | asked | fetched | admitted | done =>
        simp only [next, marks, hk]
        exact .nil
  | ack a => exact marked_ack a
  | snapshot now => exact .nil

/-- **Refinement**: a run of the node is a run of the book of every channel, over the marks of its
events. -/
theorem simulates (r : Run (machine config) s h t) (id : Bytes32) :
    Marked config.toChannelConfig id (s.channels.state id) (chronicle config.toChannelConfig id h)
      (t.channels.state id) := by
  refine Run.simulates (N := book config.toChannelConfig id) (fun s : State => s.channels.state id)
    (marks config.toChannelConfig id) r fun _ t a _ _ => ?_
  exact marked_next t a id

/-! ## Kept marks -/

/-- The state of a channel after some marks. -/
def after (L : List Mark) : ChannelState := L.foldl Mark.apply .new

@[simp] theorem after_nil : after [] = .new := rfl

@[simp] theorem after_concat (L : List Mark) (m : Mark) : after (L ++ [m]) = m.apply (after L) :=
  List.foldl_concat ..

/-- The marks are those of a channel: each was checked in the state the ones before it lead to. -/
def Kept (cfg : ChannelConfig) (id : Bytes32) (L : List Mark) : Prop :=
  Along (fun L m => (book cfg id).Legal (after L) m) L

/-- A run of the book is a list of kept marks, and ends in the state after them. -/
theorem kept_of_run {L : List (Event ChannelState Mark)} (r : Run (book cfg id) .new L c) :
    Kept cfg id (L.map Event.act) ∧ c = after (L.map Event.act) := by
  induction r with
  | nil => exact ⟨along_nil, rfl⟩
  | @snoc L c m run legal ih =>
    obtain ⟨hkept, rfl⟩ := ih
    simp only [List.map_append, List.map_cons, List.map_nil, after_concat]
    exact ⟨along_concat.2 ⟨hkept, legal⟩, rfl⟩

/-- **The chronicle of a channel** is a list of kept marks, and leads to the state of the
channel. -/
theorem kept_chronicle (r : Run (machine config) .start h t) (id : Bytes32) :
    Kept config.toChannelConfig id (chronicle config.toChannelConfig id h) ∧
      t.channels.state id = after (chronicle config.toChannelConfig id h) := by
  obtain ⟨k, hk, hacts⟩ := simulates r id
  rw [← hacts]
  exact kept_of_run hk

theorem chronicle_append (h h' : List (Step W)) :
    chronicle cfg id (h ++ h') = chronicle cfg id h ++ chronicle cfg id h' := List.flatMap_append

/-! ## Receipts and acks -/

def Mark.receipt? : Mark → Option NodeSignedReceipt
  | .issued receipt _ => some receipt
  | _ => none

def Mark.ack? : Mark → Option ClientAck
  | .acked ack _ => some ack
  | _ => none

/-- The receipts issued for a channel. -/
def receipts (L : List Mark) : List NodeSignedReceipt := L.filterMap Mark.receipt?

/-- The acks accepted for a channel. -/
def acks (L : List Mark) : List ClientAck := L.filterMap Mark.ack?

variable {L L' : List Mark} {a : ClientAck} {signer : Address} {receipt : NodeSignedReceipt}
  {cost deposit : ℕ}

@[simp] theorem receipts_nil : receipts [] = [] := rfl

@[simp] theorem acks_nil : acks [] = [] := rfl

@[simp] theorem receipts_append : receipts (L ++ L') = receipts L ++ receipts L' :=
  List.filterMap_append

@[simp] theorem acks_append : acks (L ++ L') = acks L ++ acks L' := List.filterMap_append

@[simp] theorem receipts_cached : receipts [.cached deposit] = [] := rfl

@[simp] theorem receipts_acked : receipts [.acked a signer] = [] := rfl

@[simp] theorem receipts_issued : receipts [.issued receipt cost] = [receipt] := rfl

@[simp] theorem acks_cached : acks [.cached deposit] = [] := rfl

@[simp] theorem acks_acked : acks [.acked a signer] = [a] := rfl

@[simp] theorem acks_issued : acks [.issued receipt cost] = [] := rfl

theorem receipts_ackedMarks (a : ClientAck) (r : Except ProtocolError ChannelState) :
    receipts (ackedMarks a r) = [] := by
  cases r with
  | error e => rfl
  | ok entry =>
    simp only [ackedMarks]
    cases entry.clientAddress <;> rfl

theorem receipts_ackMarks (a : ClientAck) : receipts (ackMarks cfg channels id a) = [] := by
  unfold ackMarks
  split
  · split
    · exact receipts_ackedMarks ..
    · rfl
  · rfl

theorem receipts_cacheMarks (idHex : String) (returndata : Except String (List UInt8)) :
    receipts (cacheMarks cfg id idHex returndata) = [] := by
  unfold cacheMarks
  split
  · split <;> rfl
  · rfl

/-- The marks of a receipt end with it. -/
theorem receipts_receiptMarks (cfg : ChannelConfig) (channels : ChannelMap) (id : Bytes32)
    (idHex : String) (backend : BackendType) (sessionId : String) (usage : Usage)
    (prevAck : Option ClientAck) :
    receipts (receiptMarks cfg channels id idHex backend sessionId usage prevAck) = [] ∨
      channelIdFromHex idHex = .ok id ∧ ∃ L receipt,
        receiptMarks cfg channels id idHex backend sessionId usage prevAck =
          L ++ [.issued receipt (roundTripCost usage (priceFor cfg.pricing backend))] ∧
        receipts L = [] := by
  unfold receiptMarks
  split
  · rename_i hch _
    split
    · rename_i heq
      subst heq
      refine .inr ⟨(resolveChannel_eq_ok.1 hch).2, _, _, rfl, ?_⟩
      cases prevAck with
      | none => rfl
      | some ack =>
        simp only [Option.toList_some, List.flatMap_cons, List.flatMap_nil, List.append_nil,
          receipts_ackedMarks]
    · exact .inl rfl
  · exact .inl rfl

/-- **An event that issues a receipt** is the response to a request on the channel. -/
theorem receipts_marks (cfg : ChannelConfig) (id : Bytes32) (e : Step W) :
    receipts (marks cfg id e) = [] ∨
    ∃ k now req response idHex L receipt, e.act = .respond k now ∧
      e.pre.flights k = some ⟨req, .answered response⟩ ∧
      (req.channelId = some idHex ∧ channelIdFromHex idHex = .ok id) ∧
      marks cfg id e = L ++ [.issued receipt
        (roundTripCost response.usage (priceFor cfg.pricing req.backend))] ∧ receipts L = [] := by
  obtain ⟨s, a, s'⟩ := e
  unfold marks
  cases a with
  | gateFetched k now =>
    left
    dsimp only
    split
    · rename_i req _ _ _ _
      cases req.channelId with
      | none => rfl
      | some idHex =>
        simp only [Option.toList_some, List.flatMap_cons, List.flatMap_nil, List.append_nil,
          receipts_cacheMarks]
    · rfl
  | respond k now =>
    dsimp only
    split
    · rename_i req response hflight
      cases hbound : req.channelId with
      | none => exact .inl rfl
      | some idHex =>
        simp only [Option.toList_some, List.flatMap_cons, List.flatMap_nil, List.append_nil]
        rcases receipts_receiptMarks cfg s.channels id idHex req.backend req.sessionId
          response.usage req.prevAck with
          hnil | ⟨hid, L, receipt, hmarks, hL⟩
        · exact .inl hnil
        · exact .inr ⟨k, now, req, response, idHex, L, receipt, rfl, hflight, ⟨hbound, hid⟩,
            hmarks, hL⟩
    · exact .inl rfl
  | ack a => exact .inl (receipts_ackMarks a)
  | receive | gate | ethCall | backendStep | snapshot => exact .inl rfl

/-- The amount that a receipt names as its cost. -/
def costOf (receipt : NodeSignedReceipt) : Option ℕ :=
  Text.parseUnsigned (2 ^ 128) receipt.breakdown.roundTripCost.toList

/-- A receipt names the cost it charged. -/
theorem costOf_issued (h : (book cfg id).Legal c (.issued receipt cost)) :
    costOf receipt = some cost := by
  rw [costOf, h.2.1, Text.parseUnsigned_repr h.2.2]

/-- **Induction over the receipts** of a channel: a mark that is none leaves the nonce and the
amount of the state, and a receipt is on the charged one. -/
theorem Kept.receiptsInduction {P : ChannelState → List NodeSignedReceipt → Prop}
    (h : Kept cfg id L) (new : P .new [])
    (frame : ∀ c c' R, P c R → c'.nonce = c.nonce → c'.cumOwed = c.cumOwed → P c' R)
    (issue : ∀ c R receipt cost idHex, P c R → channelIdFromHex idHex = .ok id →
      receipt.update = (c.charge cost).update idHex → costOf receipt = some cost →
      P (c.charge cost) (R ++ [receipt])) : P (after L) (receipts L) := by
  induction L using List.reverseRecOn with
  | nil => exact new
  | append_singleton L m ih =>
    rw [after_concat, receipts_append]
    cases m with
    | cached deposit =>
      rw [receipts_cached, List.append_nil]
      exact frame _ _ _ (ih h.left) rfl rfl
    | acked a signer =>
      rw [receipts_acked, List.append_nil]
      exact frame _ _ _ (ih h.left) rfl rfl
    | issued receipt cost =>
      obtain ⟨⟨idHex, hid, hupdate⟩, -, -⟩ := h.last
      exact issue _ _ _ _ _ (ih h.left) hid hupdate (costOf_issued h.last)

/-- The cost of the receipt issued last, `0` without one. -/
def latestCost (L : List Mark) : ℕ := ((receipts L).getLast?.bind costOf).getD 0

theorem latestCost_issued (h : Kept cfg id (L ++ [.issued receipt cost])) :
    latestCost (L ++ [.issued receipt cost]) = cost := by
  simp [latestCost, costOf_issued h.last]

theorem owed_update {c : ChannelState} (h : c.cumOwed < 2 ^ 128) (idHex : String) :
    (c.update idHex).owed = some c.cumOwed := Text.parseUnsigned_repr h

/-! ## Costs -/

def Mark.cost? : Mark → Option ℕ
  | .issued _ cost => some cost
  | _ => none

/-- What the receipts among the marks cost. -/
def spent (L : List Mark) : ℕ := (L.filterMap Mark.cost?).sum

theorem spent_append (L L' : List Mark) : spent (L ++ L') = spent L + spent L' := by
  simp [spent]

theorem cumOwed_append_le (L L' : List Mark) :
    (after (L ++ L')).cumOwed ≤ (after L).cumOwed + spent L' := by
  induction L' using List.reverseRecOn with
  | nil => simp
  | append_singleton L' m ih =>
    rw [← List.append_assoc, after_concat, spent_append]
    cases m with
    | cached deposit => exact ih
    | acked a signer => exact ih
    | issued receipt cost =>
      have : saturatingAdd 128 (after (L ++ L')).cumOwed cost ≤
        (after (L ++ L')).cumOwed + cost := Nat.min_le_left ..
      change saturatingAdd 128 (after (L ++ L')).cumOwed cost ≤ _ + (_ + cost)
      omega

theorem cumOwed_lt (L : List Mark) : (after L).cumOwed < 2 ^ 128 := by
  induction L using List.reverseRecOn with
  | nil => exact Nat.two_pow_pos 128
  | append_singleton L m ih =>
    rw [after_concat]
    cases m with
    | cached deposit => exact ih
    | acked a signer => exact ih
    | issued receipt cost => exact saturatingAdd_lt ..

/-- What is owed only grows. -/
theorem cumOwed_le_append (L L' : List Mark) :
    (after L).cumOwed ≤ (after (L ++ L')).cumOwed := by
  induction L' using List.reverseRecOn with
  | nil => simp
  | append_singleton L' m ih =>
    rw [← List.append_assoc, after_concat]
    refine ih.trans ?_
    cases m with
    | cached deposit => exact le_rfl
    | acked a signer => exact le_rfl
    | issued receipt cost =>
      have hlt := cumOwed_lt (L ++ L')
      change (after (L ++ L')).cumOwed ≤ min ((after (L ++ L')).cumOwed + cost) (2 ^ 128 - 1)
      omega

/-- What is owed after an event of a run is among the costs of the run. -/
theorem cumOwed_le_spent {e : Step W} (r : Run (machine config) .start h t) (he : e ∈ h)
    (id : Bytes32) :
    (e.post.channels.state id).cumOwed ≤ spent (chronicle config.toChannelConfig id h) := by
  obtain ⟨h₁, h₂, rfl⟩ := List.append_of_mem he
  obtain ⟨run, legal, hpost, -⟩ := r.split
  have hrun := run.snoc legal
  rw [← hpost] at hrun
  have hle := cumOwed_append_le [] (chronicle config.toChannelConfig id (h₁ ++ [e]))
  rw [List.nil_append, ← (kept_chronicle hrun id).2] at hle
  change _ ≤ 0 + _ at hle
  rw [List.append_cons, chronicle_append, spent_append]
  omega

end Flodex.Node
