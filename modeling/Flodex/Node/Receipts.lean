import Flodex.Node.Stages

/-!
# The chain of receipts

The receipts of a channel are a chain: the `i`-th has the nonce `i` and owes what the first `i`
cost (`Chained`), so that the node never signs two amounts under one nonce; and a request or an ack
that is refused where the chain grows leaves it as it is.
-/

namespace Flodex.Node

open Function Text

variable {W : Type*}

/-! ## The property -/

/-- What receipts report as their costs, in total. -/
def reported (R : List NodeSignedReceipt) : ℕ := (R.filterMap costOf).sum

/-- The receipt has the node's signature on the canonical bytes of its update. -/
def SignedByNode (cfg : ChannelConfig) (receipt : NodeSignedReceipt) : Prop :=
  ∃ chainId channelAddr canonical, cfg.contract = some (chainId, channelAddr) ∧
    channelUpdateCanonicalFor cfg.crypto receipt.update chainId channelAddr = .ok canonical ∧
    receipt.nodeSig = String.ofList ('0' :: 'x' :: hexEncode (cfg.signEip191 canonical))

/-- The receipts of the channel `id` count their nonces from one and add up their costs. -/
def Chained (id : Bytes32) (R : List NodeSignedReceipt) : Prop :=
  ∀ i receipt, R[i]? = some receipt → channelIdFromHex receipt.update.channelId = .ok id ∧
    receipt.update.nonce.toNat = i + 1 ∧ receipt.update.owed = some (reported (R.take (i + 1)))

/-- An entry is as it was, up to an all-zero one where there was none. -/
def Untouched (entry entry' : Option ChannelState) : Prop :=
  entry' = entry ∨ entry = none ∧ entry' = some .new

/-- A request or an ack is refused by `buildReceipt` or `verifyAndRecordAck`. -/
def Refused (cfg : ChannelConfig) (e : Step W) : Prop :=
  (∃ a err, e.act = .ack a ∧ (ack cfg e.pre.channels a).2 = .error err) ∨
    ∃ k now req response err, e.act = .respond k now ∧
      e.pre.flights k = some ⟨req, .answered response⟩ ∧
      e.post.flights k = some ⟨req, .done (.error err)⟩

variable {cfg : ChannelConfig} {config : Config W} {channels : ChannelMap} {id id' : Bytes32}
  {idHex : String} {s t : State} {h : List (Step W)} {e : Step W} {L : List Mark}
  {R : List NodeSignedReceipt} {receipt receipt' : NodeSignedReceipt} {backend : BackendType}
  {sessionId : String} {usage : Usage} {prevAck : Option ClientAck}

/-! ## What is refused -/

theorem untouched_update (channels : ChannelMap) (id id' : Bytes32) :
    Untouched (channels id') (update channels id (some (channels.state id)) id') := by
  by_cases h : id' = id
  · subst h
    rw [update_self, ChannelMap.state]
    cases hch : channels id' with
    | none => exact .inr ⟨rfl, rfl⟩
    | some c => exact .inl rfl
  · exact .inl (update_of_ne h ..)

/-- **An ack that is refused** leaves the channels. -/
theorem ack_error {a : ClientAck} {err : ApiError} (h : (ack cfg channels a).2 = .error err)
    (id : Bytes32) : Untouched (channels id) ((ack cfg channels a).1 id) := by
  unfold ack at h ⊢
  cases hch : ackChannel cfg a with
  | error e => exact .inl rfl
  | ok v =>
    obtain ⟨chainId, channelAddr, id'⟩ := v
    simp only [hch] at h ⊢
    cases hv : verifyAndRecordAck cfg (channels.state id') a a.update.channelId chainId
      channelAddr with
    | error e => exact untouched_update ..
    | ok entry => simp [hv] at h

/-- **A receipt that is refused** leaves the channels. -/
theorem buildReceipt_error {err : ApiError}
    (h : (buildReceipt cfg channels idHex backend sessionId usage prevAck).2 = .error err)
    (id : Bytes32) : Untouched (channels id)
      ((buildReceipt cfg channels idHex backend sessionId usage prevAck).1 id) := by
  cases hch : receiptChannel cfg idHex with
  | error e =>
    simp only [buildReceipt, hch]
    exact .inl rfl
  | ok v =>
    obtain ⟨chainId, channelAddr, id'⟩ := v
    cases hrec : recordPrevAck cfg (channels.state id') prevAck idHex chainId channelAddr with
    | error e =>
      simp only [buildReceipt, hch, hrec]
      exact untouched_update ..
    | ok entry =>
      -- the charged state can always be signed
      obtain ⟨receipt, hbuilt, -⟩ := buildReceipt_ok hch hrec backend sessionId usage
      simp [hbuilt] at h

theorem untouched_of_refused (r : Run (machine config) s h t) (he : e ∈ h)
    (hrefused : Refused config.toChannelConfig e) (id : Bytes32) :
    Untouched (e.pre.channels id) (e.post.channels id) := by
  obtain ⟨u, a, v⟩ := e
  obtain rfl : v = next config u a := r.post_eq he
  rcases hrefused with ⟨a, err, rfl, herr⟩ | ⟨k, now, req, response, err, rfl, hflight, hpost⟩
  · exact ack_error herr id
  · dsimp only at hflight hpost ⊢
    simp only [next, hflight, respond] at hpost ⊢
    cases hbound : req.channelId with
    | none => exact .inl rfl
    | some idHex =>
      simp only [hbound] at hpost ⊢
      generalize hbuilt : buildReceipt _ _ _ _ _ _ _ = built at hpost ⊢
      obtain ⟨channels, _ | receipt⟩ := built
      · have := buildReceipt_error (congrArg Prod.snd hbuilt) id
        rw [hbuilt] at this
        exact this
      · simp at hpost

/-! ## What is issued -/

theorem mem_receipts_receiptMarks :
    receipt ∈ receipts (receiptMarks cfg channels id idHex backend sessionId usage prevAck) ↔
      channelIdFromHex idHex = .ok id ∧
        (buildReceipt cfg channels idHex backend sessionId usage prevAck).2 = .ok receipt := by
  unfold receiptMarks
  rcases buildReceipt_spec idHex backend sessionId usage prevAck rfl with
    ⟨e, herr, -⟩ | ⟨chainId, channelAddr, id', entry, built, hch, -, hr, -⟩
  · rw [herr]
    cases receiptChannel cfg idHex <;> simp
  · have hid := (resolveChannel_eq_ok.1 hch).2
    rw [hch, hr]
    dsimp only
    split
    · rename_i heq
      subst heq
      cases prevAck with
      | none => simp [hid, eq_comm]
      | some ack => simp [hid, receipts_ackedMarks, eq_comm]
    · rename_i hne
      have : channelIdFromHex idHex ≠ .ok id := fun h => hne (Except.ok.inj (hid.symm.trans h))
      simp [this]

/-- **The receipts of an event** are the one that is built in it, if it is for the channel. -/
theorem mem_receipts_marks : receipt ∈ receipts (marks cfg id e) ↔
    ∃ k now req response idHex, e.act = .respond k now ∧
      e.pre.flights k = some ⟨req, .answered response⟩ ∧ req.channelId = some idHex ∧
      channelIdFromHex idHex = .ok id ∧ (buildReceipt cfg e.pre.channels idHex req.backend
        req.sessionId response.usage req.prevAck).2 = .ok receipt := by
  constructor
  · intro hmem
    rcases receipts_marks cfg id e with
      hnil | ⟨k, now, req, response, idHex, -, -, hact, hflight, ⟨hbound, hid⟩, -, -⟩
    · rw [hnil] at hmem
      simp at hmem
    · simp only [marks, hact, hflight, hbound, Option.toList_some, List.flatMap_cons,
        List.flatMap_nil, List.append_nil] at hmem
      exact ⟨k, now, req, response, idHex, hact, hflight, hbound, hid,
        (mem_receipts_receiptMarks.1 hmem).2⟩
  · rintro ⟨k, now, req, response, idHex, hact, hflight, hbound, hid, hbuilt⟩
    simp only [marks, hact, hflight, hbound, Option.toList_some, List.flatMap_cons,
      List.flatMap_nil, List.append_nil]
    exact mem_receipts_receiptMarks.2 ⟨hid, hbuilt⟩

theorem mem_receipts_chronicle :
    receipt ∈ receipts (chronicle cfg id h) ↔ ∃ e ∈ h, receipt ∈ receipts (marks cfg id e) := by
  simp only [receipts, chronicle, List.filterMap_flatMap, List.mem_flatMap]

/-- A receipt names the channel it is for, and has the node's signature. -/
theorem buildReceipt_signed
    (h : (buildReceipt cfg channels idHex backend sessionId usage prevAck).2 = .ok receipt) :
    receipt.update.channelId = idHex ∧ (∃ id, channelIdFromHex idHex = .ok id) ∧
      SignedByNode cfg receipt := by
  rcases buildReceipt_spec idHex backend sessionId usage prevAck rfl with
    ⟨e, herr, -⟩ | ⟨chainId, channelAddr, id, entry, built, hch, hrec, hr, -⟩
  · rw [herr] at h
    simp at h
  · obtain ⟨hcontract, hid⟩ := resolveChannel_eq_ok.1 hch
    obtain ⟨canonical, hcanonical⟩ := channelUpdateCanonicalFor_charge cfg entry
      (roundTripCost usage (priceFor cfg.pricing backend)) chainId channelAddr hid
    simp only [buildReceipt, hch, hrec, hcanonical] at h
    obtain rfl := Except.ok.inj h
    exact ⟨rfl, ⟨id, hid⟩, chainId, channelAddr, canonical, hcontract, hcanonical, rfl⟩

/-- **The receipts of a channel** have the node's signature. -/
theorem signed_of_mem (h₁ : receipt ∈ receipts (chronicle cfg id h)) :
    SignedByNode cfg receipt := by
  obtain ⟨e, -, hmem⟩ := mem_receipts_chronicle.1 h₁
  obtain ⟨k, now, req, response, idHex, -, -, -, -, hbuilt⟩ := mem_receipts_marks.1 hmem
  exact (buildReceipt_signed hbuilt).2.2

/-- **What a client gets** is one of the receipts of the channel that it names. -/
theorem replied_receipt {k : ℕ} {req : EncryptedRequest} {reply : Reply}
    (r : Run (machine config) .start h t) (hk : t.flights k = some ⟨req, .done (.ok reply)⟩)
    (hreceipt : reply.receipt = some receipt) :
    ∃ id, channelIdFromHex receipt.update.channelId = .ok id ∧
      receipt ∈ receipts (chronicle config.toChannelConfig id h) := by
  have mono : ∀ {h : List (Step W)} {e : Step W} {receipt : NodeSignedReceipt},
      (∃ id, channelIdFromHex receipt.update.channelId = .ok id ∧
        receipt ∈ receipts (chronicle config.toChannelConfig id h)) →
      ∃ id, channelIdFromHex receipt.update.channelId = .ok id ∧
        receipt ∈ receipts (chronicle config.toChannelConfig id (h ++ [e])) := by
    rintro h e receipt ⟨id, hid, hmem⟩
    exact ⟨id, hid, by rw [chronicle_append, receipts_append]; exact List.mem_append_left _ hmem⟩
  refine request_invariant (fun h _ _ stage => ∀ reply receipt, stage = .done (.ok reply) →
      reply.receipt = some receipt → ∃ id, channelIdFromHex receipt.update.channelId = .ok id ∧
        receipt ∈ receipts (chronicle config.toChannelConfig id h)) (fun _ _ => True) r
    (fun _ _ _ _ => trivial) ?_ ?_ ?_ hk reply receipt rfl hreceipt
  · intro h t req now _ reply receipt hdone
    rcases arrival_cases config req with ⟨step, h⟩ | ⟨err, h⟩ <;> cases h.symm.trans hdone
  · intro h t a k req stage _ ih _ reply receipt hdone hreceipt
    exact mono (ih reply receipt hdone hreceipt)
  · intro h t a k req stage stage' run _ hflight ih _ progress reply receipt hdone hreceipt
    generalize hch : (next config t a).channels = channels at progress
    cases progress with
    | replied =>
      cases hdone
      cases hreceipt
    | charged bound hbuilt =>
      cases hdone
      cases hreceipt
      have hbuilt := congrArg Prod.snd hbuilt
      obtain ⟨hname, ⟨id, hid⟩, -⟩ := buildReceipt_signed hbuilt
      refine ⟨id, by rw [hname, hid], mem_receipts_chronicle.2
        ⟨_, List.mem_append_right _ (List.mem_singleton_self _), ?_⟩⟩
      exact mem_receipts_marks.2 ⟨k, _, req, _, _, rfl, hflight, bound, hid, hbuilt⟩
    | _ => cases hdone

/-! ## The chain -/

theorem reported_append (R R' : List NodeSignedReceipt) :
    reported (R ++ R') = reported R + reported R' := by
  simp [reported]

theorem reported_concat {cost : ℕ} (hcost : costOf receipt = some cost) :
    reported (R ++ [receipt]) = reported R + cost := by
  simp [reported, hcost]

/-- The receipts are a chain, and the state of the channel is at its end. -/
structure ChainedTo (id : Bytes32) (R : List NodeSignedReceipt) (c : ChannelState) : Prop where
  nonce : c.nonce.toNat = R.length
  cumOwed : c.cumOwed = reported R
  chained : Chained id R

/-- The next receipt. -/
theorem ChainedTo.charge {c : ChannelState} {cost : ℕ} (hc : ChainedTo id R c)
    (hid : channelIdFromHex idHex = .ok id)
    (hupdate : receipt.update = (c.charge cost).update idHex)
    (hcost : costOf receipt = some cost) (hcount : R.length + 1 < 2 ^ 64)
    (htotal : reported R + cost < 2 ^ 128) :
    ChainedTo id (R ++ [receipt]) (c.charge cost) := by
  have hnonce : (c.charge cost).nonce.toNat = R.length + 1 := by
    rw [ChannelState.charge, hc.nonce, saturatingAdd_of_lt hcount,
      UInt64.toNat_ofNat_of_lt' (by rw [UInt64.size]; omega)]
  have howed : (c.charge cost).cumOwed = reported R + cost := by
    rw [ChannelState.charge, hc.cumOwed, saturatingAdd_of_lt htotal]
  refine ⟨by simpa using hnonce, by rw [howed, reported_concat hcost], fun i r hr => ?_⟩
  rcases Nat.lt_trichotomy i R.length with hi | rfl | hi
  · rw [List.getElem?_append_left hi] at hr
    rw [List.take_append_of_le_length hi]
    exact hc.chained i r hr
  · obtain rfl : receipt = r := by simpa using hr
    rw [List.take_of_length_le (by simp), reported_concat hcost, hupdate, ← howed]
    exact ⟨hid, hnonce, owed_update (by omega) idHex⟩
  · rw [List.getElem?_eq_none (by simp; omega)] at hr
    cases hr

theorem chainedTo (h : Kept cfg id L) (hcount : (receipts L).length < 2 ^ 64)
    (htotal : reported (receipts L) < 2 ^ 128) : ChainedTo id (receipts L) (after L) := by
  refine h.receiptsInduction (P := fun c R => R.length < 2 ^ 64 → reported R < 2 ^ 128 →
    ChainedTo id R c) ?_ ?_ ?_ hcount htotal
  · intro _ _
    exact ⟨rfl, rfl, nofun⟩
  · intro c c' R ih hnonce howed hcount htotal
    obtain ⟨hn, ho, hchain⟩ := ih hcount htotal
    exact ⟨hnonce ▸ hn, howed ▸ ho, hchain⟩
  · intro c R receipt cost idHex ih hid hupdate hcost hcount htotal
    rw [List.length_append, List.length_singleton] at hcount
    rw [reported_concat hcost] at htotal
    exact (ih (by omega) (by omega)).charge hid hupdate hcost hcount htotal

/-- **No equivocation**: one nonce, one receipt. -/
theorem Chained.unique (hR : Chained id R) (h : receipt ∈ R) (h' : receipt' ∈ R)
    (hnonce : receipt.update.nonce = receipt'.update.nonce) : receipt = receipt' := by
  obtain ⟨i, hi⟩ := List.mem_iff_getElem?.1 h
  obtain ⟨j, hj⟩ := List.mem_iff_getElem?.1 h'
  obtain ⟨-, hin, -⟩ := hR i receipt hi
  obtain ⟨-, hjn, -⟩ := hR j receipt' hj
  obtain rfl : i = j := by
    rw [hnonce] at hin
    omega
  exact Option.some.inj (hi.symm.trans hj)

/-- The amounts of a chain do not decrease. -/
theorem Chained.mono {i j : ℕ} (hR : Chained id R) (h : R[i]? = some receipt)
    (h' : R[j]? = some receipt') (hij : i ≤ j) :
    ∃ m n, receipt.update.owed = some m ∧ receipt'.update.owed = some n ∧ m ≤ n := by
  refine ⟨_, _, (hR i receipt h).2.2, (hR j receipt' h').2.2, ?_⟩
  obtain ⟨d, rfl⟩ := Nat.exists_eq_add_of_le hij
  have htake : R.take (i + 1 + d) = R.take (i + 1) ++ (R.drop (i + 1)).take d := List.take_add
  rw [Nat.add_right_comm, htake, reported_append]
  exact Nat.le_add_right ..

/-- **The receipt chain.** In every run of the node, for every channel: as long as the node issued
fewer than `2 ^ 64` receipts for it, of less than `2 ^ 128` in total, the `i`-th has the nonce `i`
and owes what the first `i` report as their costs, with the node's signature on it; amounts do not
decrease, and no two receipts have the same nonce. What a client gets is one of these receipts of
the channel that it names, in whatever spelling. And a request or an ack that is refused by
`buildReceipt` or `verifyAndRecordAck` leaves every channel as it is, up to inserting an all-zero
entry. -/
theorem receipts_chained (r : Run (machine config) .start h t) (id : Bytes32)
    (hcount : (receipts (chronicle config.toChannelConfig id h)).length < 2 ^ 64)
    (htotal : reported (receipts (chronicle config.toChannelConfig id h)) < 2 ^ 128) :
    Chained id (receipts (chronicle config.toChannelConfig id h)) ∧
      (∀ receipt ∈ receipts (chronicle config.toChannelConfig id h),
        SignedByNode config.toChannelConfig receipt) ∧
      (∀ (i j : ℕ) (receipt receipt' : NodeSignedReceipt), i ≤ j →
        (receipts (chronicle config.toChannelConfig id h))[i]? = some receipt →
        (receipts (chronicle config.toChannelConfig id h))[j]? = some receipt' →
        ∃ m n, receipt.update.owed = some m ∧ receipt'.update.owed = some n ∧ m ≤ n) ∧
      (∀ receipt ∈ receipts (chronicle config.toChannelConfig id h),
        ∀ receipt' ∈ receipts (chronicle config.toChannelConfig id h),
          receipt.update.nonce = receipt'.update.nonce → receipt = receipt') ∧
      (∀ (k : ℕ) (req : EncryptedRequest) (reply : Reply) (receipt : NodeSignedReceipt),
        t.flights k = some ⟨req, .done (.ok reply)⟩ → reply.receipt = some receipt →
        ∃ id', channelIdFromHex receipt.update.channelId = .ok id' ∧
          receipt ∈ receipts (chronicle config.toChannelConfig id' h)) ∧
      ∀ e ∈ h, Refused config.toChannelConfig e →
        ∀ id', Untouched (e.pre.channels id') (e.post.channels id') := by
  obtain ⟨-, -, hchain⟩ := chainedTo (kept_chronicle r id).1 hcount htotal
  refine ⟨hchain, fun receipt => signed_of_mem, fun i j receipt receipt' hij h h' =>
    hchain.mono h h' hij, fun receipt h receipt' h' => hchain.unique h h',
    fun k req reply receipt => replied_receipt r, fun e he => untouched_of_refused r he⟩

open Deployment in
theorem receipts_chained_acked :
    Chained JobChannel.Deployment.channelId (receipts (chronicleOf parrot acked)) := by
  obtain ⟨flights, r₁, r₂, S, ⟨-, -, hcost₁⟩, -, -, hcost₂⟩ := standing_acked
  have hreceipts : receipts (chronicleOf parrot acked) = [r₁, r₂] := by
    rw [S.chronicle_eq]
    rfl
  have hcount : (receipts (chronicleOf parrot acked)).length < 2 ^ 64 := by
    rw [hreceipts]
    exact show 2 < 2 ^ 64 by omega
  have htotal : reported (receipts (chronicleOf parrot acked)) < 2 ^ 128 := by
    rw [hreceipts]
    simp [reported, hcost₁, hcost₂]
  exact (receipts_chained (run parrot acked) _ hcount htotal).1

end Flodex.Node
