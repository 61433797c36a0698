import Flodex.Contracts.Lifecycle
import Flodex.Node.Admission

/-!
# The gate and the deposits it keeps

The gate fetches the deposit of a channel once and keeps it. `refused_outdated` says when it
refuses a channel that can pay: the deposit it compared is the one of the answer it cached last,
and the channel was opened or topped up after that answer. `refused_solvent` are two requests that
it refuses so: on a channel that some request named before it was opened, and on one that was
topped up.
-/

namespace Flodex

namespace Node

variable {W : Type*}

/-! ## The property -/

/-- At this event the node answers the request on the channel that payment is required. -/
def Refuses (id : Bytes32) (k : ℕ) (f : Step W) : Prop :=
  ∃ req stage msg, f.pre.flights k = some ⟨req, stage⟩ ∧ (∀ reply, stage ≠ .done reply) ∧
    f.post.flights k = some ⟨req, .done (.error (.paymentRequired msg))⟩ ∧ req.OnChannel id

/-- The event caches a deposit of the channel. -/
def Caches (cfg : ChannelConfig) (id : Bytes32) (deposit : ℕ) (f : Step W) : Prop :=
  .cached deposit ∈ marks cfg id f

/-- At this event the channel is opened or topped up. -/
def Raises (contract : JobChannel.Config) (id : Bytes32) (g : Scene W) : Prop :=
  ∃ f log, g.left? = some f ∧ JobChannel.emitted contract f = some log ∧ log.channel = id ∧
    log.Raises

/-- The last event at which the node cached a deposit of the channel is the gate of the request
`j`, and the deposit is this one. -/
def CachedLast (cfg : ChannelConfig) (id : Bytes32) (j deposit : ℕ) (h : List (Scene W)) : Prop :=
  ∃ h₁ c h₂ f now, h = h₁ ++ c :: h₂ ∧ c.right? = some f ∧ f.act = .gateFetched j now ∧
    Caches cfg id deposit f ∧
    ∀ c' ∈ h₂, ∀ f' d, c'.right? = some f' → ¬ Caches cfg id d f'

/-- What the refusal of the gate is worth: the deposit that it compared is the one it cached last,
and it is outdated, since the channel was opened or topped up after the contract returned it. -/
structure Outdated (contract : JobChannel.Config) (cfg : ChannelConfig) (id : Bytes32)
    (h : List (Scene W)) (e : Scene W) (j deposit : ℕ) : Prop where
  exhausted : deposit ≤ (e.pre.2.channels.state id).cumOwed
  cached : CachedLast cfg id j deposit (h ++ [e])
  fetched : ∃ h₁ g h₂ data, h = h₁ ++ g :: h₂ ∧ g.act = .inr (.ethCall j (.ok data)) ∧
    Fetches id g ∧ (g.pre.1.channels id).deposit = deposit ∧ ∃ g' ∈ h₂, Raises contract id g'

/-! ## The gate refuses -/

variable {cfg : ChannelConfig} {config : Config W} {s t : State} {h : List (Step W)} {k : ℕ}
  {req req' : EncryptedRequest} {step : AgentStep} {now : ℤ} {id : Bytes32} {msg : String}
  {a : Action W} {deposit cumOwed : ℕ} {idHex : String}

/-- The error is not that payment is required. -/
def ApiError.NoPayment (e : ApiError) : Prop := ∀ msg, e ≠ .paymentRequired msg

theorem internal_noPayment (msg : String) (cause : Option Cause) :
    (ApiError.internal msg cause).NoPayment := nofun

theorem resolveChannel_noPayment (unset noChannel badAddress idHex : String) :
    FailsWith ApiError.NoPayment (resolveChannel cfg unset noChannel badAddress idHex) := by
  refine .bind (.orThrow fun _ => nofun) fun chain _ => ?_
  refine .bind (.orThrow fun _ => nofun) fun channelAddrHex _ => ?_
  refine .bind (.mapError fun _ _ => nofun) fun channelAddr _ => ?_
  exact .bind (.mapError fun _ _ => nofun) fun channelId _ => .pure _

theorem buildReceipt_noPayment {channels : ChannelMap} (idHex : String) (backend : BackendType)
    (sessionId : String) (usage : Usage) (prevAck : Option ClientAck) :
    FailsWith ApiError.NoPayment
      (buildReceipt cfg channels idHex backend sessionId usage prevAck).2 := by
  unfold buildReceipt
  split
  · rename_i e hch
    rintro _ ⟨⟩
    exact resolveChannel_noPayment _ _ _ _ e hch
  · dsimp only
    split
    · rintro _ ⟨⟩
      exact nofun
    · split
      · rintro _ ⟨⟩
        exact nofun
      · exact .of_ok rfl

theorem agentOf_noPayment (backend : BackendType) :
    FailsWith ApiError.NoPayment (agentOf config backend) := by
  cases backend with
  | MockTee | Local => exact .orThrow fun _ => nofun
  | Fhe | Mcp =>
    rintro _ ⟨⟩
    exact nofun

theorem fail_flights_self (e : ApiError) :
    (s.fail k req now e).flights k = some ⟨req, .done (.error e)⟩ :=
  Function.update_self ..

theorem noPayment_of_fail {e : ApiError} (he : e.NoPayment)
    (hk : (s.fail k req now e).flights k =
      some ⟨req', .done (.error (.paymentRequired msg))⟩) : False := by
  rw [fail_flights_self] at hk
  simp only [Option.some.injEq, Flight.mk.injEq, Stage.done.injEq, Except.error.injEq] at hk
  exact he msg hk.2

theorem passGate_refused {e : ApiError}
    (hk : (passGate s k req step now idHex deposit cumOwed).flights k =
      some ⟨req', .done (.error e)⟩) : deposit ≤ cumOwed := by
  unfold passGate at hk
  split at hk
  · rw [setStage_flights, Function.update_self] at hk
    simp at hk
  · rename_i hsolvent
    refine Nat.le_of_not_lt fun hbelow => ?_
    rw [(checkSolvent_eq_ok idHex).2 hbelow] at hsolvent
    cases hsolvent

theorem gate_refused (hk : (gate config s k req step now).flights k =
      some ⟨req', .done (.error (.paymentRequired msg))⟩) : ∃ id deposit, req.OnChannel id ∧
    (s.channels.state id).deposit = some deposit ∧
      deposit ≤ (s.channels.state id).cumOwed := by
  unfold gate at hk
  split at hk
  · rw [setStage_flights, Function.update_self] at hk
    simp at hk
  · rename_i idHex hbound
    split at hk
    · rename_i e hch
      exact (noPayment_of_fail (resolveChannel_noPayment _ _ _ _ e hch) hk).elim
    · rename_i chainId channelAddr id hch
      rw [gateRead_eq] at hk
      cases hdeposit : (s.channels.state id).deposit with
      | none =>
        rw [hdeposit] at hk
        dsimp only at hk
        rw [setStage_flights, Function.update_self] at hk
        simp at hk
      | some deposit =>
        rw [hdeposit] at hk
        exact ⟨id, deposit, ⟨idHex, hbound, (resolveChannel_eq_ok.1 hch).2⟩, hdeposit,
          passGate_refused hk⟩

theorem gateFetched_refused {returndata : Except String (List UInt8)}
    (hbefore : s.flights k ≠ some ⟨req', .done (.error (.paymentRequired msg))⟩)
    (hk : (gateFetched config s k req step now cumOwed returndata).flights k =
      some ⟨req', .done (.error (.paymentRequired msg))⟩) :
    ∃ data deposit, returndata = .ok data ∧ decodeChannelDeposit data = .ok deposit ∧
      deposit ≤ cumOwed ∧ ∃ idHex chainId channelAddr id, req.channelId = some idHex ∧
        gateChannel config.toChannelConfig idHex = .ok (chainId, channelAddr, id) := by
  unfold gateFetched at hk
  split at hk
  · exact absurd hk hbefore
  · rename_i idHex hbound
    split at hk
    · rename_i e hch
      exact (noPayment_of_fail (resolveChannel_noPayment _ _ _ _ e hch) hk).elim
    · rename_i chainId channelAddr id hch
      split at hk
      · exact (noPayment_of_fail (internal_noPayment _ _) hk).elim
      · rename_i data
        split at hk
        · exact (noPayment_of_fail (internal_noPayment _ _) hk).elim
        · rename_i deposit hdecode
          exact ⟨data, deposit, rfl, hdecode, passGate_refused hk, idHex, chainId, channelAddr, id,
            hbound, hch⟩

theorem caches_gateFetched {data : List UInt8} {chainId : UInt64} {channelAddr : Address}
    (hk : s.flights k = some ⟨req, .fetched step cumOwed (.ok data)⟩)
    (hbound : req.channelId = some idHex)
    (hch : gateChannel cfg idHex = .ok (chainId, channelAddr, id))
    (hdecode : decodeChannelDeposit data = .ok deposit) :
    Caches (W := W) cfg id deposit ⟨s, .gateFetched k now, t⟩ := by
  simp only [Caches, marks, hk, hbound, Option.toList_some, List.flatMap_cons, List.flatMap_nil,
    List.append_nil, cacheMarks, hch, Except.bind, hdecode, if_true, List.mem_singleton]

theorem backendStep_refused {fuel : ℕ} {w : W}
    (hbefore : s.flights k ≠ some ⟨req', .done (.error (.paymentRequired msg))⟩) :
    (backendStep config s k req step fuel w now).flights k ≠
      some ⟨req', .done (.error (.paymentRequired msg))⟩ := by
  intro hk
  unfold backendStep at hk
  split at hk
  · rename_i e hagent
    exact noPayment_of_fail (agentOf_noPayment _ e hagent) hk
  · dsimp only at hk
    split at hk
    · exact hbefore hk
    · split at hk
      · exact noPayment_of_fail (internal_noPayment _ _) hk
      · rw [setStage_flights, Function.update_self] at hk
        simp at hk

theorem respond_refused {response : AgentResponse} :
    (respond config s k req response now).flights k ≠
      some ⟨req', .done (.error (.paymentRequired msg))⟩ := by
  intro hk
  unfold respond at hk
  split at hk
  · rw [reply_flights, Function.update_self] at hk
    simp at hk
  · rename_i idHex _
    split at hk
    · rename_i channels e hbuilt
      refine noPayment_of_fail ?_ hk
      exact buildReceipt_noPayment idHex req.backend req.sessionId response.usage req.prevAck e
        (congrArg Prod.snd hbuilt)
    · rw [reply_flights, Function.update_self] at hk
      simp at hk

/-- **Payment is required by the gate alone**, on the deposit that it knows or on the one that it
fetched. -/
theorem refuses_cases (r : Run (machine config) .start h s)
    (hrefuses : Refuses id k ⟨s, a, next config s a⟩) :
    (∃ deposit, ReadsGate k ⟨s, a, next config s a⟩ ∧
      (s.channels.state id).deposit = some deposit ∧
      deposit ≤ (s.channels.state id).cumOwed) ∨
    ∃ now req step cumOwed data deposit, a = .gateFetched k now ∧
      s.flights k = some ⟨req, .fetched step cumOwed (.ok data)⟩ ∧ req.OnChannel id ∧
      decodeChannelDeposit data = .ok deposit ∧ deposit ≤ cumOwed ∧
      Caches config.toChannelConfig id deposit ⟨s, a, next config s a⟩ := by
  obtain ⟨req, stage, msg, hpre, hstage, hpost, hid⟩ := hrefuses
  change s.flights k = _ at hpre
  change (next config s a).flights k = _ at hpost
  have hbefore : s.flights k ≠ some ⟨req, .done (.error (.paymentRequired msg))⟩ := by
    rw [hpre]
    rintro ⟨⟩
    exact hstage _ rfl
  by_cases hreq : a.request = some k
  · cases a with
    | receive | ack | snapshot => simp [Action.request] at hreq
    | gate j now =>
      obtain rfl := Option.some.inj hreq
      simp only [next, hpre] at hpost
      cases stage with
      | opened step =>
        obtain ⟨id', deposit, hid', hdeposit, hle⟩ := gate_refused hpost
        obtain rfl := hid.unique hid'
        exact .inl ⟨deposit, ⟨⟨now, rfl⟩, req, step, hpre⟩, hdeposit, hle⟩
      | asked | fetched | admitted | answered | done => exact absurd hpost hbefore
    | ethCall j returndata =>
      obtain rfl := Option.some.inj hreq
      simp only [next, hpre] at hpost
      cases stage with
      | asked step cumOwed =>
        dsimp only at hpost
        rw [setStage_flights, Function.update_self] at hpost
        simp at hpost
      | opened | fetched | admitted | answered | done => exact absurd hpost hbefore
    | gateFetched j now =>
      obtain rfl := Option.some.inj hreq
      simp only [next, hpre] at hpost
      cases stage with
      | fetched step cumOwed returndata =>
        obtain ⟨data, deposit, rfl, hdecode, hle, idHex, chainId, channelAddr, id', hbound, hch⟩ :=
          gateFetched_refused hbefore hpost
        obtain rfl := hid.unique ⟨idHex, hbound, (resolveChannel_eq_ok.1 hch).2⟩
        exact .inr ⟨now, req, step, cumOwed, data, deposit, rfl, hpre, hid, hdecode, hle,
          caches_gateFetched hpre hbound hch hdecode⟩
      | opened | asked | admitted | answered | done => exact absurd hpost hbefore
    | backendStep j fuel w now =>
      obtain rfl := Option.some.inj hreq
      simp only [next, hpre] at hpost
      cases stage with
      | admitted step => exact absurd hpost (backendStep_refused hbefore)
      | opened | asked | fetched | answered | done => exact absurd hpost hbefore
    | respond j now =>
      obtain rfl := Option.some.inj hreq
      simp only [next, hpre] at hpost
      cases stage with
      | answered response => exact absurd hpost respond_refused
      | opened | asked | fetched | admitted | done => exact absurd hpost hbefore
  · rw [flights_next_of_ne r hpre hreq, ← hpre] at hpost
    exact absurd hpost hbefore

/-! ## The deposit that it knows -/

/-- An event that caches a deposit does nothing else to the channel. -/
theorem marks_of_caches {f : Step W} (hf : Caches cfg id deposit f) :
    marks cfg id f = [.cached deposit] := by
  obtain ⟨k, now, req, step, cumOwed, data, hact, hk, ⟨idHex, hbound, -⟩, hdecode⟩ :=
    cached_marks hf
  rw [Option.mem_def] at hbound
  simp only [Caches, marks, hact, hk, hbound, Option.toList_some, List.flatMap_cons,
    List.flatMap_nil, List.append_nil, cacheMarks, Except.bind, hdecode] at hf ⊢
  cases hch : gateChannel cfg idHex with
  | error e => simp [hch] at hf
  | ok v =>
    obtain ⟨chainId, channelAddr, id'⟩ := v
    simp only [hch] at hf ⊢
    split at hf
    · rename_i heq
      rw [if_pos heq]
    · simp at hf

theorem deposit_of_not_cached (L : List Mark) {ms : List Mark} (hms : ∀ d, .cached d ∉ ms) :
    (after (L ++ ms)).deposit = (after L).deposit := by
  induction ms using List.reverseRecOn with
  | nil => rw [List.append_nil]
  | append_singleton ms m ih =>
    rw [← List.append_assoc, after_concat,
      ← ih fun d hd => hms d (List.mem_append_left _ hd)]
    cases m with
    | cached d => exact absurd (List.mem_append_right _ (.head _)) (hms d)
    | acked | issued => rfl

/-- **The deposit that the node knows** is the one that it cached last. -/
theorem cached_last (r : Run (machine config) .start h t)
    (hknown : (t.channels.state id).deposit = some deposit) :
    ∃ before f, LastOf (fun f => ∃ d, Caches config.toChannelConfig id d f) h before f ∧
      Caches config.toChannelConfig id deposit f := by
  refine r.invariantHistory (fun h t => (t.channels.state id).deposit = some deposit →
    ∃ before f, LastOf (fun f => ∃ d, Caches config.toChannelConfig id d f) h before f ∧
      Caches config.toChannelConfig id deposit f) (fun _ _ => True)
    (fun _ _ _ _ => trivial) nofun ?_ hknown
  intro h t a run ih legal _ hknown
  have hpre := (kept_chronicle run id).2
  have hpost := (kept_chronicle (run.snoc legal) id).2
  generalize Event.mk t a ((machine config).next t a) = f at hpost ⊢
  rw [chronicle_append, show chronicle config.toChannelConfig id [f] =
    marks config.toChannelConfig id f from List.append_nil _] at hpost
  by_cases hcaches : ∃ d, Caches config.toChannelConfig id d f
  · obtain ⟨d, hd⟩ := hcaches
    rw [hpost, marks_of_caches hd, after_concat] at hknown
    obtain rfl := Option.some.inj hknown
    exact ⟨h, f, lastOf_concat ⟨_, hd⟩, hd⟩
  · rw [hpost, deposit_of_not_cached _ fun d hd => hcaches ⟨d, hd⟩, ← hpre] at hknown
    obtain ⟨before, f', hlast, hf'⟩ := ih hknown
    exact ⟨before, f', hlast.concat hcaches, hf'⟩

/-! ## The deposit on the chain -/

variable {contract : JobChannel.Config} {p : JobChannel.State × State}
  {l l₁ l₂ : List (Scene W)} {e g : Scene W}

/-- A deposit that grew since an event of the node was raised after it. -/
theorem raised_since (H : (network contract config).History (l₁ ++ g :: l₂) p) {b : Action W}
    (hact : g.act = .inr b)
    (hlt : (g.pre.1.channels id).deposit < (p.1.channels id).deposit) :
    ∃ g' ∈ l₂, Raises contract id g' := by
  obtain ⟨p₀, -, r⟩ := H
  obtain ⟨f, hf, log, hlog, habout, hraises⟩ := JobChannel.deposit_raised r.rest.left hlt
  obtain ⟨g', hg', hleft⟩ := List.mem_filterMap.1 hf
  rcases List.mem_cons.1 hg' with rfl | hg'
  · simp [Event.left?, hact] at hleft
  · exact ⟨g', hg', f, log, hleft, hlog, habout, hraises⟩

/-- A deposit that a request waits with is outdated when the contract holds more. -/
theorem fetched_since (H : (network contract config).History l p) {data : List UInt8}
    (hk : p.2.flights k = some ⟨req, .fetched step cumOwed (.ok data)⟩) (hid : req.OnChannel id)
    (hdecode : decodeChannelDeposit data = .ok deposit) :
    ∃ l₁ g l₂, l = l₁ ++ g :: l₂ ∧ g.act = .inr (.ethCall k (.ok data)) ∧ Fetches id g ∧
      (g.pre.1.channels id).deposit = deposit := by
  obtain ⟨g, hg, hfetches, hact, rfl⟩ := fetched_record H hk hid
  have hdeposit := decoded_deposit H hg hdecode
  obtain ⟨l₁, l₂, rfl⟩ := List.append_of_mem hg
  exact ⟨l₁, g, l₂, rfl, hact, hfetches, hdeposit⟩

/-- **The gate refuses a channel that can pay only on an outdated deposit.** -/
theorem refused_outdated (H : (network contract config).History l p) :
    Along (fun h e => ∀ id k f, e.right? = some f → Refuses id k f →
      (e.pre.2.channels.state id).cumOwed < (e.pre.1.channels id).deposit →
      ∃ j deposit, Outdated contract config.toChannelConfig id h e j deposit) l := by
  rintro h₁ ⟨⟨c, s⟩, a, q⟩ h₂ rfl id k f hright hrefuses hsolvent
  have H₁ := history_pre H
  obtain ⟨p₀, -, r⟩ := H
  obtain ⟨-, -, hpost, -⟩ := r.split
  cases a with
  | inl a => simp [Event.right?] at hright
  | inr a =>
    obtain rfl : f = ⟨s, a, next config s a⟩ := by
      obtain rfl : q = (c, next config s a) := hpost
      exact (Option.some.inj hright).symm
    have run := history_right H₁
    dsimp only at hsolvent
    rcases refuses_cases run hrefuses with
      ⟨deposit, ⟨⟨now, hgate⟩, -⟩, hknown, hle⟩ |
      ⟨now, req, step, cumOwed, data, deposit, rfl, hk, hid, hdecode, hle, hcaches⟩
    · -- the deposit was cached by the gate of some request, and nothing was cached since
      obtain ⟨l₁, f, ⟨-, l₂, hsplit, hlast⟩, hcaches⟩ := cached_last run hknown
      obtain ⟨j, now', req, step, cumOwed, data, hact, hj, hid, hdecode⟩ := cached_marks hcaches
      obtain ⟨k₁, c', k₂, rfl, hc', rfl, rfl⟩ := Event.split_right? hsplit
      have hpre : c'.pre.2.flights j = some ⟨req, .fetched step cumOwed (.ok data)⟩ := by
        rw [Event.pre_of_right? hc']
        exact hj
      obtain ⟨m₁, g, m₂, rfl, hg, hfetches, rfl⟩ := fetched_since (history_pre H₁) hpre hid hdecode
      refine ⟨j, _, hle, ⟨m₁ ++ g :: m₂, c', k₂ ++ [⟨(c, s), .inr a, q⟩], f,
        now', by simp, hc', hact, hcaches, ?_⟩,
        m₁, g, m₂ ++ c' :: k₂, data, by simp, hg, hfetches, rfl, ?_⟩
      · intro e he f' d hf' hcaches'
        rcases List.mem_append.1 he with he | he
        · exact hlast f' (List.mem_filterMap.2 ⟨e, he, hf'⟩) ⟨d, hcaches'⟩
        · obtain rfl := List.mem_singleton.1 he
          obtain rfl := Option.some.inj (hright.symm.trans hf')
          obtain ⟨_, _, _, _, _, _, hfetch, -⟩ := cached_marks hcaches'
          exact absurd (hgate.symm.trans hfetch) (by simp)
      · rw [List.append_assoc, List.cons_append] at H₁
        exact raised_since H₁ hg (hle.trans_lt hsolvent)
    · -- the deposit was fetched for this request, and the amount read before
      obtain ⟨m₁, g, m₂, rfl, hg, hfetches, rfl⟩ := fetched_since H₁ hk hid hdecode
      obtain ⟨l₁, f, l₂, hl, -, rfl⟩ := gated run id hk hid trivial
      have howed := cumOwed_le_append (chronicle config.toChannelConfig id l₁)
        (chronicle config.toChannelConfig id (f :: l₂))
      rw [← chronicle_append, ← hl, ← (kept_chronicle run id).2] at howed
      rw [hl] at run
      rw [← (kept_chronicle run.split.1 id).2] at howed
      exact ⟨k, _, hle.trans howed, ⟨_, _, [], _, now, rfl, hright, rfl, hcaches, by simp⟩, m₁, g,
        m₂, data, rfl, hg, hfetches, rfl, raised_since H₁ hg ((hle.trans howed).trans_lt hsolvent)⟩

/-! ## Two refusals -/

namespace Deployment

open JobChannel.Deployment (testnet client channelId legal_openingToward)

variable {agent : AgentLoop W} {c : JobChannel.State} {as : List (Action W)}
  {flights flights' : ℕ → Option Flight} {n n' : ℕ} {L L' : List Mark} {stage : Stage}

/-- The gate of the node refuses a request while the record of its channel and what is owed are
such. -/
def RefusedWhile (agent : AgentLoop W) (P : JobChannel.Channel → ℕ → Prop) : Prop :=
  ∃ h c s a k, (network testnet (node agent)).History h (c, s) ∧
    (network testnet (node agent)).Legal (c, s) (.inr a) ∧
    Refuses channelId k ⟨s, a, next (node agent) s a⟩ ∧
    P (c.channels channelId) (s.channels.state channelId).cumOwed

theorem Reached.refusedWhile {P : JobChannel.Channel → ℕ → Prop} (R : Reached agent c as)
    (S : Standing agent as flights n L) (S' : Standing agent (as ++ [a]) flights' n' L')
    (hk : flights k = some ⟨request, stage⟩) (hstage : ∀ reply, stage ≠ .done reply)
    (hk' : flights' k = some ⟨request, .done (.error (.paymentRequired msg))⟩)
    (faithful : Faithful (c, final agent as) (.inr a))
    (hP : P (c.channels channelId) (after L).cumOwed) : RefusedWhile agent P := by
  obtain ⟨h, H, -⟩ := R
  have hpost := S'.flights_eq
  rw [final, Machine.final_concat] at hpost
  refine ⟨h, c, final agent as, a, k, H, ⟨trivial, faithful⟩,
    ⟨request, stage, msg, ?_, hstage, ?_, _, rfl, channelIdFromHex_hexText channelId⟩,
    by rwa [S.state_eq]⟩
  · change (final agent as).flights k = _
    rw [S.flights_eq, hk]
  · change ((machine (node agent)).next (final agent as) a).flights k = _
    rw [hpost, hk']

/-- The client adds what it has left to its deposit. -/
def toppingUp : JobChannel.Action := .call ⟨client, 20⟩ (.topUp channelId 40)

/-- A request named the channel before it was opened. -/
theorem refused_unopened : RefusedWhile parrot fun c cumOwed =>
    c.node = JobChannel.Deployment.node ∧ c.status = .Open ∧ cumOwed < c.deposit ∧
      c.deposit < 2 ^ 128 := by
  have hdecode : decodeChannelDeposit (JobChannel.encodeChannel
      (JobChannel.Deployment.start.channels channelId)) = .ok 0 :=
    (decode_encodeChannel (by decide)).2 ⟨rfl, by omega⟩
  obtain ⟨as, R, S⟩ := (reached_nil parrot).fetch (standing_nil parrot) rfl rfl
  obtain ⟨msg, S₁⟩ := S.decline (Function.update_self ..) hdecode le_rfl
  -- the channel is opened, and the node knows that its deposit is nothing
  have R₁ := ((R.concat (.gateFetched 0 0) trivial).chain _
    (legal_openingToward JobChannel.Deployment.node)).concat (.receive request 0) trivial
  have S₂ := S₁.receive
  obtain ⟨msg', S₃⟩ := S₂.exhaust (Function.update_self ..) (d := 0) rfl le_rfl
  exact R₁.refusedWhile S₂ S₃ (Function.update_self ..) (by simp) (Function.update_self ..) trivial
    (by decide +kernel)

/-- The client topped up its channel after a request that spent the first deposit. -/
theorem refused_toppedUp : RefusedWhile chatty fun c cumOwed =>
    c.node = JobChannel.Deployment.node ∧ c.status = .Open ∧ cumOwed < c.deposit ∧
      c.deposit < 2 ^ 128 := by
  have hanswer : ∀ session, ∃ session' w', chatty.step 1 () session (.ofStep (stepOf [104, 105])) =
      some (.ok (.final "" ⟨60, 0, none, none⟩), session', w') := fun _ => ⟨_, _, rfl⟩
  obtain ⟨as, R, S⟩ := (reached_opened chatty JobChannel.Deployment.node).fetch
    (standing_nil chatty) rfl rfl
  have S₁ := S.fetch (Function.update_self ..) (decode_opened (by decide +kernel)) (by decide)
  obtain ⟨receipt, S₂, -, -⟩ := (S₁.answer (Function.update_self ..) hanswer).respond
    (Function.update_self ..)
  have S₂ : Standing chatty _ _ _ ([] ++ [.cached 60] ++ [.issued receipt 60]) := S₂
  have R₂ := ((R.concat (.gateFetched 0 0) trivial).concat (.backendStep 0 1 () 0) trivial).concat
    (.respond 0 0) trivial
  -- the deposit grows, and the node knows the first one
  have R₃ := (R₂.chain [toppingUp] ⟨trivial, trivial⟩).concat (.receive request 0) trivial
  have S₃ := S₂.receive
  obtain ⟨msg, S₄⟩ := S₃.exhaust (Function.update_self ..) (d := 60) rfl
    (show 60 ≤ 60 from le_rfl)
  have hrecord : (((JobChannel.machine testnet).final (opened JobChannel.Deployment.node)
      [toppingUp]).channels channelId).node = JobChannel.Deployment.node ∧
    (((JobChannel.machine testnet).final (opened JobChannel.Deployment.node)
      [toppingUp]).channels channelId).status = .Open ∧
    60 < (((JobChannel.machine testnet).final (opened JobChannel.Deployment.node)
      [toppingUp]).channels channelId).deposit ∧
    (((JobChannel.machine testnet).final (opened JobChannel.Deployment.node)
      [toppingUp]).channels channelId).deposit < 2 ^ 128 := by decide +kernel
  exact R₃.refusedWhile S₃ S₄ (Function.update_self ..) (by simp) (Function.update_self ..) trivial
    hrecord

end Deployment

open Deployment

open JobChannel.Deployment (testnet channelId)

/-- The refusal of a channel that was opened too late is one on an outdated deposit. -/
theorem refused_outdated_unopened : ∃ h e p, (network testnet (node parrot)).History (h ++ [e]) p ∧
    ∃ j deposit, Outdated testnet (node parrot).toChannelConfig channelId h e j deposit := by
  obtain ⟨h, c, s, a, k, H, hlegal, hrefuses, -, -, hsolvent, -⟩ := refused_unopened
  have H' := H.concat hlegal
  exact ⟨h, _, _, H', (refused_outdated H').last channelId k _ rfl hrefuses hsolvent⟩

/-- **The gate refuses channels that can pay**: one that was opened after a request named it, and
one that was topped up after its deposit was spent. -/
theorem refused_solvent :
    (∀ (agent : AgentLoop Unit) (message : List UInt8), (node agent).crypto.recoverEip191 message
      ((node agent).signEip191 message) = some JobChannel.Deployment.node) ∧
    (RefusedWhile parrot fun c cumOwed => c.node = JobChannel.Deployment.node ∧
      c.status = .Open ∧ cumOwed < c.deposit ∧ c.deposit < 2 ^ 128) ∧
    RefusedWhile chatty fun c cumOwed => c.node = JobChannel.Deployment.node ∧
      c.status = .Open ∧ cumOwed < c.deposit ∧ c.deposit < 2 ^ 128 :=
  ⟨recoverEip191_node, refused_unopened, refused_toppedUp⟩

end Node

end Flodex
