import Flodex.Foundations.Coupled
import Flodex.Node.Gate

/-!
# The gate and the chain

The node runs beside the contract, and anything may happen to a channel between two requests.
`covered` says what the gate's consent is worth: a deposit that the contract held when the node
fetched it, above the amount that the check read, and still there unless the channel is closed.
`admitted_uncollectible` are three requests that the gate lets through although the node cannot
collect: the channel is another node's, it is closed, or what is owed grew during the check.
-/

namespace Flodex.Node

variable {W : Type*}

/-! ## The node beside the contract -/

/-- What happens to the contract and the node together. -/
abbrev Scene (W : Type*) := Event (JobChannel.State × State) (JobChannel.Action ⊕ Action W)

/-- An `eth_call` for a channel returns its record at that moment, or fails. -/
def Faithful (p : JobChannel.State × State) : JobChannel.Action ⊕ Action W → Prop
  | .inr (.ethCall k (.ok data)) => ∀ req step cumOwed id,
    p.2.flights k = some ⟨req, .asked step cumOwed⟩ → req.OnChannel id →
      data = JobChannel.encodeChannel (p.1.channels id)
  | _ => True

/-- The node beside the contract. -/
def network (contract : JobChannel.Config) (cfg : Config W) :
    Machine (JobChannel.State × State) (JobChannel.Action ⊕ Action W) :=
  (JobChannel.machine contract).couple (machine cfg) Faithful

/-! ## The property -/

/-- At this event the node fetches the record of the channel. -/
def Fetches (id : Bytes32) (g : Scene W) : Prop :=
  ∃ k data req step cumOwed, g.act = .inr (.ethCall k (.ok data)) ∧
    g.pre.2.flights k = some ⟨req, .asked step cumOwed⟩ ∧ req.OnChannel id

/-- At this event the gate of the request reads what is owed on its channel. -/
def ReadsOwed (id : Bytes32) (k cumOwed : ℕ) (g : Scene W) : Prop :=
  ∃ f, g.right? = some f ∧ ReadsGate k f ∧ (g.pre.2.channels.state id).cumOwed = cumOwed

/-- What the consent of the gate is worth: the check read an amount below a deposit that the
contract held when the node fetched it, and that it holds until the channel is closed. -/
structure Covered (id : Bytes32) (k : ℕ) (h : List (Scene W)) (e : Scene W)
    (deposit cumOwed : ℕ) : Prop where
  below : cumOwed < deposit
  read : ∃ g ∈ h ++ [e], ReadsOwed id k cumOwed g
  current : ∀ n, ReadsOwed id k n e → n = cumOwed
  fetched : ∃ g ∈ h, Fetches id g ∧ (g.pre.1.channels id).Live ∧
    (g.pre.1.channels id).deposit = deposit
  held : (e.pre.1.channels id).status ≠ .Closed →
    (e.pre.1.channels id).Live ∧ deposit ≤ (e.pre.1.channels id).deposit

/-! ## From the gate to the chain -/

variable {contract : JobChannel.Config} {cfg : Config W} {h h₁ h₂ : List (Scene W)}
  {g : Scene W} {p : JobChannel.State × State} {k : ℕ} {req : EncryptedRequest} {id : Bytes32}

theorem history_left (H : (network contract cfg).History h p) :
    (JobChannel.machine contract).History (h.filterMap Event.left?) p.1 := by
  obtain ⟨p₀, ⟨init, -⟩, r⟩ := H
  exact ⟨p₀.1, init, r.left⟩

theorem history_right (H : (network contract cfg).History h p) :
    Run (machine cfg) .start (h.filterMap Event.right?) p.2 := by
  obtain ⟨p₀, ⟨-, hstart⟩, r⟩ := H
  have := r.right
  rwa [show p₀.2 = .start from hstart] at this

theorem history_pre (H : (network contract cfg).History (h₁ ++ g :: h₂) p) :
    (network contract cfg).History h₁ g.pre := by
  obtain ⟨p₀, init, r⟩ := H
  exact ⟨p₀, init, r.split.1⟩

/-- **The answer that a request waits with** is the record of its channel when it was asked for. -/
theorem fetched_record (H : (network contract cfg).History h p) {step : AgentStep} {cumOwed : ℕ}
    {data : List UInt8} (hk : p.2.flights k = some ⟨req, .fetched step cumOwed (.ok data)⟩)
    (hid : req.OnChannel id) :
    ∃ g ∈ h, Fetches id g ∧ g.act = .inr (.ethCall k (.ok data)) ∧
      data = JobChannel.encodeChannel (g.pre.1.channels id) := by
  obtain ⟨p₀, ⟨-, hstart⟩, r⟩ := H
  refine r.invariantHistory (fun h p => ∀ step cumOwed, p.2.flights k =
      some ⟨req, .fetched step cumOwed (.ok data)⟩ → ∃ g ∈ h, Fetches id g ∧
        g.act = .inr (.ethCall k (.ok data)) ∧
        data = JobChannel.encodeChannel (g.pre.1.channels id)) (fun _ _ => True)
    (fun _ _ _ _ => trivial) ?_ ?_ step cumOwed hk
  · intro step cumOwed hk
    rw [show p₀.2 = .start from hstart] at hk
    simp [State.start] at hk
  · rintro h ⟨c, s⟩ (a | a) run ih legal - step cumOwed hk
    · obtain ⟨g, hg, hfetches⟩ := ih step cumOwed hk
      exact ⟨g, List.mem_append_left _ hg, hfetches⟩
    · rcases fetched_next cfg hk with hbefore | ⟨rfl, hasked⟩
      · obtain ⟨g, hg, hfetches⟩ := ih step cumOwed hbefore
        exact ⟨g, List.mem_append_left _ hg, hfetches⟩
      · refine ⟨_, List.mem_append_right _ (.head _), ?_, rfl,
          legal.2 req step cumOwed id hasked hid⟩
        exact ⟨k, data, req, step, cumOwed, rfl, hasked, hid⟩

/-- What the node decodes is the deposit that the contract held. -/
theorem decoded_deposit (H : (network contract cfg).History h p) (hg : g ∈ h) {deposit : ℕ}
    (hdecode : decodeChannelDeposit (JobChannel.encodeChannel (g.pre.1.channels id)) =
      .ok deposit) : (g.pre.1.channels id).deposit = deposit := by
  obtain ⟨h₁, h₂, rfl⟩ := List.append_of_mem hg
  obtain ⟨c₀, init, r⟩ := history_left (history_pre H)
  exact ((decode_encodeChannel (JobChannel.deposit_word r init id).1).1 hdecode).1

/-- **A deposit that the node cached** is one that the contract held. -/
theorem cached_deposit (H : (network contract cfg).History h p) {deposit : ℕ}
    (hcached : .cached deposit ∈ chronicle cfg.toChannelConfig id (h.filterMap Event.right?)) :
    ∃ g ∈ h, Fetches id g ∧ (g.pre.1.channels id).deposit = deposit := by
  obtain ⟨f, hf, hmark⟩ := List.mem_flatMap.1 hcached
  obtain ⟨k, now, req, step, cumOwed, data, -, hk, hid, hdecode⟩ := cached_marks hmark
  obtain ⟨e, he, -, hpre, -⟩ := Event.mem_right? hf
  obtain ⟨h₁, h₂, rfl⟩ := List.append_of_mem he
  rw [← hpre] at hk
  obtain ⟨g, hg, hfetches, -, rfl⟩ := fetched_record (history_pre H) hk hid
  exact ⟨g, List.mem_append_left _ hg, hfetches, decoded_deposit (history_pre H) hg hdecode⟩

/-- A deposit that the contract held is one of a live channel, and still there unless the channel
is closed. -/
theorem deposit_held (H : (network contract cfg).History h p) (hg : g ∈ h)
    (hpos : 0 < (g.pre.1.channels id).deposit) : (g.pre.1.channels id).Live ∧
      ((p.1.channels id).status ≠ .Closed → (p.1.channels id).Live ∧
        (g.pre.1.channels id).deposit ≤ (p.1.channels id).deposit) := by
  obtain ⟨h₁, h₂, rfl⟩ := List.append_of_mem hg
  obtain ⟨c₀, init, run⟩ := history_left (history_pre H)
  have hlive := (JobChannel.deposit_word run init id).2 hpos
  obtain ⟨p₀, -, r⟩ := H
  exact ⟨hlive, JobChannel.live_until_closed r.rest.left hlive⟩

/-- **The gate lets a request through on a deposit that the contract held**, above what was owed
when the check read it. -/
theorem covered (H : (network contract cfg).History h p) :
    Along (fun h e => ∀ id k f, e.right? = some f → Admits id k f →
      ∃ deposit cumOwed, Covered id k h e deposit cumOwed) h := by
  rintro h₁ ⟨⟨c, s⟩, a, q⟩ h₂ rfl id k f hright hadmits
  have H₁ := history_pre H
  obtain ⟨p₀, -, r⟩ := H
  obtain ⟨-, -, hpost, -⟩ := r.split
  cases a with
  | inl a => simp [Event.right?] at hright
  | inr a =>
    obtain rfl : f = ⟨s, a, next cfg s a⟩ := by
      obtain rfl : q = (c, next cfg s a) := hpost
      exact (Option.some.inj hright).symm
    rcases admits_cases (history_right H₁) hadmits with
      ⟨deposit, hreads, hknown, hbelow⟩ |
      ⟨now, req, step, cumOwed, data, deposit, rfl, hk, hid, hdecode, hbelow⟩
    · -- the deposit was cached, and the amount is the one at this moment
      rw [(kept_chronicle (history_right H₁) id).2] at hknown
      obtain ⟨g, hg, hfetches, rfl⟩ := cached_deposit H₁ (cached_mem hknown)
      obtain ⟨hlive, hheld⟩ := deposit_held H₁ hg (Nat.zero_lt_of_lt hbelow)
      exact ⟨_, (s.channels.state id).cumOwed, hbelow,
        ⟨_, List.mem_append_right _ (.head _), _, hright, hreads, rfl⟩,
        fun n hn => by obtain ⟨_, _, _, rfl⟩ := hn; rfl, ⟨g, hg, hfetches, hlive, rfl⟩, hheld⟩
    · -- the deposit was fetched, and the amount is the one before the call
      obtain ⟨g, hg, hfetches, -, rfl⟩ := fetched_record H₁ hk hid
      obtain rfl := decoded_deposit H₁ hg hdecode
      obtain ⟨hlive, hheld⟩ := deposit_held H₁ hg (Nat.zero_lt_of_lt hbelow)
      obtain ⟨l₁, f, l₂, hl, hreads, hsaw⟩ := gated (history_right H₁) id hk hid trivial
      obtain ⟨e, he, hact, hpre, hpost'⟩ := Event.mem_right?
        (hl ▸ List.mem_append_right l₁ (.head _) : f ∈ h₁.filterMap Event.right?)
      refine ⟨_, cumOwed, hbelow, ⟨e, List.mem_append_left _ he, f, ?_, hreads, ?_⟩, ?_,
        ⟨g, hg, hfetches, hlive, rfl⟩, hheld⟩
      · simp [Event.right?, hact, hpre, hpost']
      · rw [hpre]
        exact hsaw.symm
      · rintro n ⟨_, hright', ⟨⟨_, hgate⟩, -⟩, -⟩
        obtain rfl := Option.some.inj (hright.symm.trans hright')
        simp at hgate

/-! ## Runs of the two -/

namespace Deployment

open JobChannel.Deployment (testnet client channelId openingToward legal_openingToward)

/-- The node runs beside the contract into the state that its actions lead to. -/
def Reached (agent : AgentLoop W) (c : JobChannel.State) (as : List (Action W)) : Prop :=
  ∃ h, (network testnet (node agent)).History h (c, final agent as) ∧
    h.filterMap Event.right? = trace agent as

variable {agent : AgentLoop W} {c c' : JobChannel.State} {as : List (Action W)} {a : Action W}
  {flights flights' : ℕ → Option Flight} {n n' : ℕ} {L L' : List Mark} {stage : Stage}
  {step : AgentStep}

theorem reached_nil (agent : AgentLoop W) : Reached agent JobChannel.Deployment.start [] :=
  ⟨[], ⟨(JobChannel.Deployment.start, .start), ⟨JobChannel.Deployment.init, rfl⟩, .nil⟩, rfl⟩

/-- The contract goes on. -/
theorem Reached.chain (R : Reached agent c as) (bs : List JobChannel.Action)
    (legal : (JobChannel.machine testnet).LegalFrom c bs) :
    Reached agent ((JobChannel.machine testnet).final c bs) as := by
  obtain ⟨h, H, hright⟩ := R
  obtain ⟨h', r, hidle⟩ := Run.inl (C := Faithful) (N := machine (node agent))
    (Run.of_legalFrom bs c legal) (final agent as) fun _ _ => trivial
  exact ⟨h ++ h', H.trans r, by rw [List.filterMap_append, hright, hidle, List.append_nil]⟩

/-- The node goes on. -/
theorem Reached.concat (R : Reached agent c as) (a : Action W)
    (faithful : Faithful (c, final agent as) (.inr a)) : Reached agent c (as ++ [a]) := by
  obtain ⟨h, H, hright⟩ := R
  have hlegal : (network testnet (node agent)).Legal (c, final agent as) (.inr a) :=
    ⟨trivial, faithful⟩
  rw [Reached, trace_concat, final, final, Machine.final_concat]
  refine ⟨_, H.concat hlegal, ?_⟩
  simp only [List.filterMap_append, hright, List.filterMap_cons, Event.right?, List.filterMap_nil]
  rfl

/-- The contract answers with the record of the channel. -/
theorem faithful_ethCall {cumOwed : ℕ} (S : Standing agent as flights n L)
    (hk : flights k = some ⟨request, .asked step cumOwed⟩) {data : List UInt8}
    (hdata : data = JobChannel.encodeChannel (c.channels channelId)) :
    Faithful (W := W) (c, final agent as) (.inr (.ethCall k (.ok data))) := by
  intro req step' cumOwed' id hk' hid
  rw [S.flights_eq, hk, Option.some.injEq, Flight.mk.injEq] at hk'
  obtain ⟨rfl, -⟩ := hk'
  obtain rfl := hid.unique ⟨_, rfl, channelIdFromHex_hexText channelId⟩
  exact hdata

/-- A request that arrives, up to the answer of the contract. -/
theorem Reached.fetch (R : Reached agent c as) (S : Standing agent as flights n L)
    (hdeposit : (after L).deposit = none) {data : List UInt8}
    (hdata : data = JobChannel.encodeChannel (c.channels channelId)) : ∃ as', Reached agent c as' ∧
      Standing agent as' (Function.update flights n
        (some ⟨request, .fetched (stepOf [104, 105]) (after L).cumOwed (.ok data)⟩)) (n + 1) L := by
  have S₁ := S.receive.ask (Function.update_self ..) hdeposit
  have S₂ := S₁.ethCall (Function.update_self ..) (.ok data)
  have R₁ : Reached agent c (as ++ [.receive request 0] ++ [.gate n 0]) :=
    (R.concat (.receive request 0) trivial).concat (.gate n 0) trivial
  simp only [Function.update_idem] at S₂
  exact ⟨_, R₁.concat _ (faithful_ethCall S₁ (Function.update_self ..) hdata), S₂⟩

/-- The gate of the node lets a request through while the record of its channel and what is owed
are such. -/
def AdmittedWhile (agent : AgentLoop W) (P : JobChannel.Channel → ℕ → Prop) : Prop :=
  ∃ h c s a k, (network testnet (node agent)).History h (c, s) ∧
    (network testnet (node agent)).Legal (c, s) (.inr a) ∧
    Admits channelId k ⟨s, a, next (node agent) s a⟩ ∧
    P (c.channels channelId) (s.channels.state channelId).cumOwed

theorem admits_of_standing (S : Standing agent as flights n L)
    (S' : Standing agent (as ++ [a]) flights' n' L') (hk : flights k = some ⟨request, stage⟩)
    (hstage : ∀ step', stage ≠ .admitted step')
    (hk' : flights' k = some ⟨request, .admitted step⟩) :
    Admits channelId k ⟨final agent as, a, next (node agent) (final agent as) a⟩ := by
  have hpost := S'.flights_eq
  rw [final, Machine.final_concat] at hpost
  refine ⟨request, stage, step, ?_, hstage, ?_, _, rfl, channelIdFromHex_hexText channelId⟩
  · change (final agent as).flights k = _
    rw [S.flights_eq, hk]
  · change ((machine (node agent)).next (final agent as) a).flights k = _
    rw [hpost, hk']

theorem Reached.admittedWhile {P : JobChannel.Channel → ℕ → Prop} (R : Reached agent c as)
    (S : Standing agent as flights n L)
    (hadmits : Admits channelId k ⟨final agent as, a, next (node agent) (final agent as) a⟩)
    (faithful : Faithful (c, final agent as) (.inr a))
    (hP : P (c.channels channelId) (after L).cumOwed) : AdmittedWhile agent P := by
  obtain ⟨h, H, -⟩ := R
  exact ⟨h, c, final agent as, a, k, H, ⟨trivial, faithful⟩, hadmits, by rwa [S.state_eq]⟩

/-- Another node. -/
def elsewhere : Address := .replicate 20 6

/-- The contract after the client opened its channel toward a node. -/
def opened (other : Address) : JobChannel.State := JobChannel.Deployment.final (openingToward other)

theorem reached_opened (agent : AgentLoop W) (other : Address) : Reached agent (opened other) [] :=
  (reached_nil agent).chain _ (legal_openingToward other)

/-- The client takes its deposit back. -/
def reclaiming : JobChannel.Action := .call ⟨client, 90000⟩ (.reclaim channelId)

/-- An agent that answers every prompt, for sixty tokens. -/
def chatty : AgentLoop Unit :=
  { parrot with provider := fun w _ => (.ok ⟨[], "end_turn", ⟨60, 0, none, none⟩⟩, w) }

theorem decode_opened {other : Address} (h : ((opened other).channels channelId).deposit = 60) :
    decodeChannelDeposit (JobChannel.encodeChannel ((opened other).channels channelId)) = .ok 60 :=
  (decode_encodeChannel (by omega)).2 ⟨h, by omega⟩

/-- The channel is another node's. -/
theorem admitted_elsewhere : AdmittedWhile parrot fun c cumOwed =>
    c.node ≠ JobChannel.Deployment.node ∧ c.status = .Open ∧ cumOwed < c.deposit := by
  obtain ⟨as, R, S⟩ := (reached_opened parrot elsewhere).fetch (standing_nil parrot) rfl rfl
  have S' := S.fetch (Function.update_self ..) (decode_opened (by decide +kernel)) (by decide)
  have hadmits := admits_of_standing S S' (Function.update_self ..) (by simp)
    (Function.update_self ..)
  exact R.admittedWhile S hadmits trivial (by decide +kernel)

/-- The channel is closed, and the gate knows its deposit. -/
theorem admitted_closed : AdmittedWhile parrot fun c _ =>
    c.node = JobChannel.Deployment.node ∧ c.status = .Closed := by
  obtain ⟨as, R, S⟩ := (reached_opened parrot JobChannel.Deployment.node).fetch
    (standing_nil parrot) rfl rfl
  have S₁ := (S.fetch (Function.update_self ..) (decode_opened (by decide +kernel))
    (by decide)).receive
  have R₁ := ((R.concat (.gateFetched 0 0) trivial).chain [reclaiming] ⟨trivial, trivial⟩).concat
    (.receive request 0) trivial
  have S₂ := S₁.pass (d := 60) (Function.update_self ..) rfl (by decide)
  have hadmits := admits_of_standing S₁ S₂ (Function.update_self ..) (by simp)
    (Function.update_self ..)
  exact R₁.admittedWhile S₁ hadmits trivial (by decide +kernel)

/-- What is owed grows over the deposit while the gate waits for it. -/
theorem admitted_overtaken : AdmittedWhile chatty fun c cumOwed =>
    c.node = JobChannel.Deployment.node ∧ c.status = .Open ∧ c.deposit ≤ cumOwed := by
  have hanswer : ∀ session, ∃ session' w', chatty.step 1 () session (.ofStep (stepOf [104, 105])) =
      some (.ok (.final "" ⟨60, 0, none, none⟩), session', w') := fun _ => ⟨_, _, rfl⟩
  obtain ⟨data, hdata⟩ : ∃ data, data = JobChannel.encodeChannel
    ((opened JobChannel.Deployment.node).channels channelId) := ⟨_, rfl⟩
  have hdecode : decodeChannelDeposit data = .ok 60 := by
    rw [hdata]
    exact decode_opened (by decide +kernel)
  -- both requests read that nothing is owed
  have S₁ := (standing_nil chatty).receive.receive
  have S₂ := (S₁.ask (k := 0) rfl rfl).ask (k := 1) rfl rfl
  have R₂ := ((((reached_opened chatty JobChannel.Deployment.node).concat (.receive request 0)
    trivial).concat (.receive request 0) trivial).concat (.gate 0 0) trivial).concat (.gate 1 0)
      trivial
  -- the first is served
  have R₃ := (R₂.concat _ (faithful_ethCall (k := 0) S₂ rfl hdata)).concat (.gateFetched 0 0)
    trivial
  have S₃ := (S₂.ethCall (k := 0) rfl (.ok data)).fetch (k := 0) rfl hdecode (by decide)
  obtain ⟨receipt, S₄, -, -⟩ := (S₃.answer (k := 0) rfl hanswer).respond (k := 0) rfl
  have S₄ : Standing chatty _ _ _ ([] ++ [.cached 60] ++ [.issued receipt 60]) := S₄
  have R₄ := (R₃.concat (.backendStep 0 1 () 0) trivial).concat (.respond 0 0) trivial
  -- the second is compared with what it read
  have R₅ := R₄.concat _ (faithful_ethCall (k := 1) S₄ rfl hdata)
  have S₅ := S₄.ethCall (k := 1) rfl (.ok data)
  have S₆ := S₅.fetch (k := 1) rfl hdecode (by decide)
  have hrecord : ((opened JobChannel.Deployment.node).channels channelId).node =
      JobChannel.Deployment.node ∧
    ((opened JobChannel.Deployment.node).channels channelId).status = .Open ∧
    ((opened JobChannel.Deployment.node).channels channelId).deposit ≤ 60 := by decide +kernel
  exact R₅.admittedWhile S₅ (admits_of_standing (k := 1) S₅ S₆ rfl (by simp) rfl) trivial hrecord

/-- The address that the node signs with. -/
theorem recoverEip191_node (agent : AgentLoop W) (message : List UInt8) :
    (node agent).crypto.recoverEip191 message ((node agent).signEip191 message) =
      some JobChannel.Deployment.node := Crypto.symbolic_recover_sign _ _

end Deployment

open Deployment

open JobChannel.Deployment (testnet channelId)

/-- The first request on a channel that the client opened is let through on its deposit. -/
theorem covered_opened : ∃ h e p, (network testnet (node parrot)).History (h ++ [e]) p ∧
    ∃ deposit cumOwed, Covered channelId 0 h e deposit cumOwed := by
  obtain ⟨as, R, S⟩ := (reached_opened parrot JobChannel.Deployment.node).fetch
    (standing_nil parrot) rfl rfl
  have S' := S.fetch (Function.update_self ..) (decode_opened (by decide +kernel)) (by decide)
  have hadmits := admits_of_standing S S' (Function.update_self ..) (by simp)
    (Function.update_self ..)
  obtain ⟨h, H, -⟩ := R
  have hlegal : (network testnet (node parrot)).Legal
    (opened JobChannel.Deployment.node, final parrot as) (.inr (.gateFetched 0 0)) :=
    ⟨trivial, trivial⟩
  have H' := H.concat hlegal
  exact ⟨h, _, _, H', (covered H').last channelId 0 _ rfl hadmits⟩

/-- **Requests that the node cannot collect for**: on a channel of another node, on a channel that
is closed, and on one that owes more than its deposit. -/
theorem admitted_uncollectible :
    (∀ (agent : AgentLoop Unit) (message : List UInt8), (node agent).crypto.recoverEip191 message
      ((node agent).signEip191 message) = some JobChannel.Deployment.node) ∧
    (AdmittedWhile parrot fun c cumOwed =>
      c.node ≠ JobChannel.Deployment.node ∧ c.status = .Open ∧ cumOwed < c.deposit) ∧
    (AdmittedWhile parrot fun c _ =>
      c.node = JobChannel.Deployment.node ∧ c.status = .Closed) ∧
    AdmittedWhile chatty fun c cumOwed =>
      c.node = JobChannel.Deployment.node ∧ c.status = .Open ∧ c.deposit ≤ cumOwed :=
  ⟨recoverEip191_node, admitted_elsewhere, admitted_closed, admitted_overtaken⟩

end Flodex.Node
