import Flodex.Contracts.Exit
import Flodex.Contracts.Solvency
import Flodex.Contracts.Staking

/-!
# The two contracts over one token

`Deploy.s.sol` deploys the registry and the channels over the same token, and the channels ask the
registry which nodes are active. The two contracts run as one machine, in which each sees the
other: as requests to the token, and as changes of the list.

`channel_simulates` and `registry_simulates` say that each contract of the suite runs as it does
alone, so what holds of each holds in the suite; `suite_solvent` and `opened_listed` are about both.
-/

namespace Flodex.Suite

open Function

/-- The addresses of the two contracts, and what they are deployed with. -/
structure Config where
  channel : JobChannel.Config
  registry : NodeRegistry.Config
  this_ne : registry.this ≠ channel.this

/-- The storage of both contracts. The ledger of the token is the one of the registry. -/
structure State where
  channels : Bytes32 → JobChannel.Channel
  registry : NodeRegistry.State

/-- What the channels see: the token, and the nodes that are active. -/
def State.channel (s : State) : JobChannel.State :=
  ⟨s.channels, s.registry.stakeToken, fun a => (s.registry.nodes a).active⟩

/-- The state after a call of the channels. -/
def State.ofChannel (s : State) (c : JobChannel.State) : State :=
  ⟨c.channels, { s.registry with stakeToken := c.usdc }⟩

/-- The actions of the environment. -/
inductive Action
  | channel (msg : JobChannel.Msg) (call : JobChannel.Call)
  | registry (sender : Address) (call : NodeRegistry.Call)
  | token (sender : Address) (request : Ledger.Request Address)
  /-- The party signs a state of a channel, off-chain. -/
  | sign (party : Address) (channelId : Bytes32) (nonce : UInt64) (cumOwed : BitVec 256)

variable (cfg : Config)

/-- The state after an action. -/
def next (s : State) : Action → State
  | .channel msg call =>
    match call.exec cfg.channel s.channel msg with
    | .ok (c, _) => s.ofChannel c
    | .error _ => s
  | .registry sender call =>
    match call.exec cfg.registry s.registry sender with
    | .ok (r, _) => { s with registry := r }
    | .error _ => s
  | .token sender request =>
    { s with registry.stakeToken := s.registry.stakeToken.apply sender request }
  | .sign .. => s

/-- The contracts among their users. -/
def machine : Machine State Action where
  Init s := (∀ id, s.channels id = JobChannel.Channel.zero) ∧
    (∃ minStake stakeToken, s.registry = .deployed minStake stakeToken) ∧
    (∀ a, s.registry.stakeToken.allowance cfg.channel.this a = 0) ∧
    ∀ a, s.registry.stakeToken.allowance cfg.registry.this a = 0
  Legal _
    | .token sender _ => sender ≠ cfg.channel.this ∧ sender ≠ cfg.registry.this
    | _ => True
  next := next cfg

/-- The events of the runs. -/
abbrev Step := Event State Action

/-- What an event emitted from the channels. -/
def channelLog (e : Step) : Option JobChannel.Log :=
  match e.act with
  | .channel msg call =>
    match call.exec cfg.channel e.pre.channel msg with
    | .ok (_, log) => some log
    | .error _ => none
  | _ => none

/-- What an event emitted from the registry. -/
def registryLog (e : Step) : Option NodeRegistry.Log :=
  match e.act with
  | .registry sender call =>
    match call.exec cfg.registry e.pre.registry sender with
    | .ok (_, log) => some log
    | .error _ => none
  | _ => none

/-! ## What each contract sees of the other -/

/-- What a call of the channels asks of the token. -/
def channelRequests (msg : JobChannel.Msg) (c : JobChannel.Channel) :
    JobChannel.Log → List (Ledger.Request Address)
  | .channelOpened _ _ _ _ deposit => [.transferFrom msg.sender cfg.channel.this deposit]
  | .channelToppedUp _ amount _ => [.transferFrom msg.sender cfg.channel.this amount]
  | .channelChallenged .. => []
  | .channelClosed _ _ paid refunded => [.transfer c.node paid, .transfer c.client refunded]
  | .channelReclaimed _ amount => [.transfer c.client amount]

/-- What a call of the registry asks of the token. -/
def registryRequests : NodeRegistry.Log → List (Ledger.Request Address)
  | .registered node _ _ _ stake => [.transferFrom node cfg.registry.this stake]
  | .unregistered node returnedStake => [.transfer node returnedStake]
  | .slashed _ recipient amount => [.transfer recipient amount]
  | _ => []

/-- The node that an event of the registry is about. -/
def registryNode : NodeRegistry.Log → Option Address
  | .registered node .. => some node
  | .updated node .. => some node
  | .unregistered node _ => some node
  | .slashed node .. => some node
  | _ => none

/-- An event as the channels see it. -/
def channelActions (e : Step) : List JobChannel.Action :=
  match e.act with
  | .channel msg call => [.call msg call]
  | .registry .. =>
    match registryLog cfg e with
    | some log => (registryRequests cfg log).map (.token cfg.registry.this) ++
        ((registryNode log).map fun n => .setActive n (e.post.registry.nodes n).active).toList
    | none => []
  | .token sender request => [.token sender request]
  | .sign party id nonce cumOwed => [.sign party id nonce cumOwed]

/-- An event as the registry sees it. -/
def registryActions (e : Step) : List NodeRegistry.Action :=
  match e.act with
  | .channel msg _ =>
    match channelLog cfg e with
    | some log => (channelRequests cfg msg (e.pre.channels log.channel) log).map
        (.token cfg.channel.this)
    | none => []
  | .registry sender call => [.call sender call]
  | .token sender request => [.token sender request]
  | .sign .. => []

variable {cfg} {s t : State} {h : List Step} {e : Step}

/-! ## The token -/

/-- Requests that succeed, in order. -/
theorem foldl_of_channel {msg : JobChannel.Msg} {c : JobChannel.Channel} {log : JobChannel.Log}
    {usdc usdc' : Ledger Address} (h : log.transfers cfg.channel msg c usdc = some usdc') :
    (channelRequests cfg msg c log).foldl (fun l q => l.apply cfg.channel.this q) usdc = usdc' := by
  cases log with
  | channelOpened | channelToppedUp | channelReclaimed =>
    simp only [JobChannel.Log.transfers] at h
    simp [channelRequests, Ledger.apply, h]
  | channelChallenged => exact Option.some.inj h
  | channelClosed =>
    obtain ⟨u, hnode, hclient⟩ := Option.bind_eq_some_iff.1 h
    simp [channelRequests, Ledger.apply, hnode, hclient]

theorem foldl_of_registry {log : NodeRegistry.Log} {token token' : Ledger Address}
    (h : log.transfers cfg.registry token = some token') :
    (registryRequests cfg log).foldl (fun l q => l.apply cfg.registry.this q) token = token' := by
  cases log with
  | registered | unregistered | slashed =>
    simp only [NodeRegistry.Log.transfers] at h
    simp [registryRequests, Ledger.apply, h]
  | updated | escrowSet | minStakeSet => exact Option.some.inj h

/-- Requests to the token are a run of the channels. -/
theorem run_channel_tokens {cfg : JobChannel.Config} {sender : Address} (hne : sender ≠ cfg.this)
    (requests : List (Ledger.Request Address)) (c : JobChannel.State) :
    ∃ k, Run (JobChannel.machine cfg) c k
        { c with usdc := requests.foldl (fun l q => l.apply sender q) c.usdc } ∧
      k.map Event.act = requests.map (.token sender) := by
  induction requests generalizing c with
  | nil => exact ⟨[], .nil, rfl⟩
  | cons q requests ih =>
    obtain ⟨k, hk, hacts⟩ := ih { c with usdc := c.usdc.apply sender q }
    obtain ⟨k₁, hk₁, hacts₁⟩ := Run.exists_single (M := JobChannel.machine cfg) (s := c)
      (a := .token sender q) hne rfl
    exact ⟨k₁ ++ k, hk₁.trans hk, by rw [List.map_append, hacts₁, hacts]; rfl⟩

/-- Requests to the token are a run of the registry. -/
theorem run_registry_tokens {cfg : NodeRegistry.Config} {sender : Address} (hne : sender ≠ cfg.this)
    (requests : List (Ledger.Request Address)) (r : NodeRegistry.State) :
    ∃ k, Run (NodeRegistry.machine cfg) r k
        { r with stakeToken := requests.foldl (fun l q => l.apply sender q) r.stakeToken } ∧
      k.map Event.act = requests.map (.token sender) := by
  induction requests generalizing r with
  | nil => exact ⟨[], .nil, rfl⟩
  | cons q requests ih =>
    obtain ⟨k, hk, hacts⟩ := ih { r with stakeToken := r.stakeToken.apply sender q }
    obtain ⟨k₁, hk₁, hacts₁⟩ := Run.exists_single (M := NodeRegistry.machine cfg) (s := r)
      (a := .token sender q) hne rfl
    exact ⟨k₁ ++ k, hk₁.trans hk, by rw [List.map_append, hacts₁, hacts]; rfl⟩

/-! ## Each contract in the suite -/

/-- A call of the registry changes whether one node is active at most. -/
theorem active_of_success {r r' : NodeRegistry.State} {sender : Address} {call : NodeRegistry.Call}
    {log : NodeRegistry.Log} (succ : NodeRegistry.Success cfg.registry r sender call r' log) :
    (fun a => (r'.nodes a).active) = (registryNode log).elim (fun a => (r.nodes a).active)
      fun n => update (fun a => (r.nodes a).active) n (r'.nodes n).active := by
  have hset : ∀ (node : Address) (n : NodeRegistry.Node),
      (fun a => (update r.nodes node n a).active) =
        update (fun a => (r.nodes a).active) node (update r.nodes node n node).active := by
    intro node n
    funext a
    by_cases ha : a = node
    · subst ha
      simp
    · simp [ha]
  cases succ with
  | setEscrow | setMinStake => rfl
  | register | update | unregister | slash | drain => exact hset _ _

/-- A call of the channels leaves the list of nodes. -/
theorem isActive_of_success {c c' : JobChannel.State} {msg : JobChannel.Msg}
    {call : JobChannel.Call} {log : JobChannel.Log}
    (succ : JobChannel.Success cfg.channel c msg call c' log) : c'.isActive = c.isActive := by
  rw [succ.put, JobChannel.State.put_isActive]

/-- **The channels run as they do alone**, whatever the registry does. -/
theorem channel_simulates (r : Run (machine cfg) s h t) :
    ∃ k, Run (JobChannel.machine cfg.channel) s.channel k t.channel ∧
      k.map Event.act = h.flatMap (channelActions cfg) := by
  refine r.simulates State.channel (channelActions cfg) fun h t a _ legal => ?_
  change ∃ k, Run _ _ k (next cfg t a).channel ∧ _ = channelActions cfg ⟨t, a, next cfg t a⟩
  cases a with
  | channel msg call =>
    refine Run.exists_single trivial ?_
    change JobChannel.next cfg.channel t.channel (.call msg call) = (next cfg t _).channel
    simp only [JobChannel.next, next]
    cases hexec : call.exec cfg.channel t.channel msg with
    | error e => rfl
    | ok p =>
      have hactive := isActive_of_success (JobChannel.Call.exec_eq_ok hexec)
      obtain ⟨⟨channels, usdc, isActive⟩, log⟩ := p
      subst hactive
      rfl
  | registry sender call =>
    simp only [channelActions, registryLog, next]
    cases hexec : call.exec cfg.registry t.registry sender with
    | error e => exact ⟨[], .nil, rfl⟩
    | ok p =>
      obtain ⟨r', log⟩ := p
      have succ := NodeRegistry.Call.exec_eq_ok.1 hexec
      have hactive := active_of_success succ
      have htoken := foldl_of_registry succ.transfers
      obtain ⟨k, hk, hacts⟩ := run_channel_tokens cfg.this_ne (registryRequests cfg log) t.channel
      rw [show t.channel.usdc = t.registry.stakeToken from rfl, htoken] at hk
      cases hnode : registryNode log with
      | none =>
        rw [hnode] at hactive
        refine ⟨k, ?_, by simp [hacts, hnode]⟩
        have hchannel : State.channel { t with registry := r' } =
            { t.channel with usdc := r'.stakeToken } := by
          simp only [State.channel, JobChannel.State.mk.injEq, true_and]
          exact hactive
        rwa [hchannel]
      | some n =>
        rw [hnode] at hactive
        obtain ⟨k₁, hk₁, hacts₁⟩ := Run.exists_single (M := JobChannel.machine cfg.channel)
          (s := { t.channel with usdc := r'.stakeToken })
          (a := .setActive n (r'.nodes n).active) trivial rfl
        refine ⟨k ++ k₁, ?_, by simp [hacts, hacts₁, hnode]⟩
        have hchannel : State.channel { t with registry := r' } =
            (JobChannel.machine cfg.channel).next { t.channel with usdc := r'.stakeToken }
              (.setActive n (r'.nodes n).active) := by
          change JobChannel.State.mk _ _ _ = JobChannel.State.mk _ _ _
          simp only [JobChannel.State.mk.injEq]
          exact ⟨rfl, trivial, hactive⟩
        rw [hchannel]
        exact hk.trans hk₁
  | token sender request => exact Run.exists_single legal.1 rfl
  | sign => exact Run.exists_single trivial rfl

/-- **The registry runs as it does alone**, whatever the channels do. -/
theorem registry_simulates (r : Run (machine cfg) s h t) :
    ∃ k, Run (NodeRegistry.machine cfg.registry) s.registry k t.registry ∧
      k.map Event.act = h.flatMap (registryActions cfg) := by
  refine r.simulates State.registry (registryActions cfg) fun h t a _ legal => ?_
  change ∃ k, Run _ _ k (next cfg t a).registry ∧ _ = registryActions cfg ⟨t, a, next cfg t a⟩
  cases a with
  | channel msg call =>
    simp only [registryActions, channelLog, next]
    cases hexec : call.exec cfg.channel t.channel msg with
    | error e => exact ⟨[], .nil, rfl⟩
    | ok p =>
      obtain ⟨c', log⟩ := p
      have succ := JobChannel.Call.exec_eq_ok hexec
      have htoken := foldl_of_channel succ.transfers
      obtain ⟨k, hk, hacts⟩ := run_registry_tokens cfg.this_ne.symm
        (channelRequests cfg msg (t.channels log.channel) log) t.registry
      rw [show t.registry.stakeToken = t.channel.usdc from rfl,
        show t.channels log.channel = t.channel.channels log.channel from rfl, htoken] at hk
      exact ⟨k, hk, hacts⟩
  | registry sender call =>
    refine Run.exists_single trivial ?_
    change NodeRegistry.next cfg.registry t.registry (.call sender call) = (next cfg t _).registry
    simp only [NodeRegistry.next, next]
    cases call.exec cfg.registry t.registry sender <;> rfl
  | token sender request => exact Run.exists_single legal.2 rfl
  | sign => exact ⟨[], .nil, rfl⟩

/-! ## Both contracts -/

theorem init_channel (init : (machine cfg).Init s) :
    (JobChannel.machine cfg.channel).Init s.channel := ⟨init.1, init.2.2.1⟩

theorem init_registry (init : (machine cfg).Init s) :
    (NodeRegistry.machine cfg.registry).Init s.registry := ⟨init.2.1, init.2.2.2⟩

/-- **The suite is solvent**: in every state it can reach, over the one token, the channels hold
their deposits and the registry its stakes; a challenged channel is paid out after its deadline and
a node gets its whole stake back, whatever the other contract paid before. -/
theorem suite_solvent (r : Run (machine cfg) s h t) (init : (machine cfg).Init s) :
    ∑ id, (t.channels id).deposit ≤ t.registry.stakeToken.balanceOf cfg.channel.this ∧
      ∑ a, (t.registry.nodes a).stake ≤ t.registry.stakeToken.balanceOf cfg.registry.this ∧
      (∀ id msg t', (t.channels id).status = .Challenged →
        (t.channels id).challengeDeadline ≤ msg.now →
        channelLog cfg ⟨t, .channel msg (.finalize id), t'⟩ =
          some (.channelClosed id (t.channels id).latestNonce (t.channels id).paid
            ((t.channels id).deposit - (t.channels id).paid))) ∧
      ∀ node t', (t.registry.nodes node).active = true →
        registryLog cfg ⟨t, .registry node .unregister, t'⟩ =
          some (.unregistered node (t.registry.nodes node).stake) := by
  obtain ⟨k, hk, -⟩ := channel_simulates r
  obtain ⟨k', hk', -⟩ := registry_simulates r
  have hchannels := JobChannel.balanceOf_this hk (init_channel init)
  have hstakes := NodeRegistry.balanceOf_this hk' (init_registry init)
  refine ⟨?_, by omega, fun id msg t' challenged elapsed => ?_, fun node t' active => ?_⟩
  · change t.registry.stakeToken.balanceOf cfg.channel.this =
      ∑ id, (t.channels id).deposit + _ at hchannels
    omega
  · exact JobChannel.emitted_finalize (e := ⟨t.channel, .call msg (.finalize id), t.channel⟩) hk
      (init_channel init) rfl rfl challenged elapsed
  · obtain ⟨r', hexec⟩ := NodeRegistry.exec_unregister hk' (init_registry init) active
    simp only [registryLog, hexec]

/-! ## Who a channel is opened toward -/

/-- The least stake is positive. -/
def StakeRequired (h : List Step) : Prop := ∀ e ∈ h, 0 < e.pre.registry.minStake

/-- The active nodes have a stake. -/
def AllStaked (r : NodeRegistry.State) : Prop :=
  ∀ a, (r.nodes a).active = true → 0 < (r.nodes a).stake

/-- The record of one node changes. -/
theorem AllStaked.setNode {r : NodeRegistry.State} (hr : AllStaked r) {node : Address}
    {n : NodeRegistry.Node} {l : NodeRegistry.NodeList} {token : Ledger Address}
    (hn : n.active = true → 0 < n.stake) :
    AllStaked { r.setNode node n with toNodeList := l, stakeToken := token } := by
  intro a active
  simp only [NodeRegistry.setNode_active, NodeRegistry.setNode_stake] at active ⊢
  split
  · rename_i ha
    exact hn (by rwa [if_pos ha] at active)
  · rename_i ha
    exact hr a (by rwa [if_neg ha] at active)

theorem allStaked_of_success {r r' : NodeRegistry.State} {sender : Address}
    {call : NodeRegistry.Call} {log : NodeRegistry.Log}
    (succ : NodeRegistry.Success cfg.registry r sender call r' log) (hmin : 0 < r.minStake)
    (hr : AllStaked r) : AllStaked r' := by
  cases succ with
  | setEscrow | setMinStake => exact hr
  | register enough => exact hr.setNode fun _ => hmin.trans_le enough
  | update active => exact hr.setNode fun _ => hr sender active
  | unregister => exact hr.setNode nofun
  | slash _ _ less => exact hr.setNode fun _ => Nat.sub_pos_of_lt less
  | drain => exact hr.setNode nofun

/-- A node that is active has a stake, if one is required. -/
theorem allStaked (r : Run (machine cfg) s h t) (init : (machine cfg).Init s)
    (required : StakeRequired h) : AllStaked t.registry := by
  induction r with
  | nil =>
    obtain ⟨-, ⟨minStake, stakeToken, hdeployed⟩, -⟩ := init
    intro a active
    rw [hdeployed] at active
    cases active
  | @snoc h t a run legal ih =>
    have ih := ih fun e he => required e (List.mem_append_left _ he)
    have hmin : 0 < t.registry.minStake :=
      required _ (List.mem_append_right _ (List.mem_singleton_self _))
    change AllStaked (next cfg t a).registry
    cases a with
    | channel msg call =>
      simp only [next]
      split <;> exact ih
    | registry sender call =>
      simp only [next]
      split
      · rename_i hexec
        exact allStaked_of_success (NodeRegistry.Call.exec_eq_ok.1 hexec) hmin ih
      · exact ih
    | token | sign => exact ih

/-- A call changes the parties of a channel only when it opens it. -/
theorem opens_of_success {c c' : JobChannel.State} {msg : JobChannel.Msg} {call : JobChannel.Call}
    {log : JobChannel.Log} (hexec : call.exec cfg.channel c msg = .ok (c', log)) (id : Bytes32)
    (opened : (c'.channels id).status ≠ .None) :
    ((c.channels id).status ≠ .None ∧ (c'.channels id).client = (c.channels id).client ∧
        (c'.channels id).node = (c.channels id).node) ∨
      ∃ channelNonce deposit, c.isActive (c'.channels id).node = true ∧
        log = .channelOpened id (c'.channels id).client (c'.channels id).node channelNonce
          deposit ∧
        id = JobChannel.channelIdOf cfg.channel (c'.channels id).client (c'.channels id).node
          channelNonce := by
  have succ := JobChannel.Call.exec_eq_ok hexec
  have hid := JobChannel.Call.channel_of_exec hexec
  by_cases hlog : id = log.channel
  · by_cases hstatus : (c.channels id).status = .None
    · right
      have change := succ.change
      have active := succ.active
      rw [← hlog] at change
      generalize hc : c.channels id = rec at change hstatus
      generalize hc' : c'.channels id = rec' at change
      cases change with
      | openChannel node channelNonce deposit =>
        exact ⟨channelNonce.toNat, deposit.toNat, active node _ _ rfl, rfl, hid⟩
      | topUp _ hopen | challengeClose _ _ _ _ hopen | reclaim hopen =>
        exact absurd (hstatus.symm.trans hopen) nofun
      | submitChallenge _ _ _ _ hchallenged | finalize hchallenged =>
        exact absurd (hstatus.symm.trans hchallenged) nofun
      | cooperativeClose _ _ _ _ live =>
        rcases live with h | h <;> exact absurd (hstatus.symm.trans h) nofun
    · have same := succ.change.sameParties (by rwa [← hlog])
      rw [← hlog] at same
      exact .inl ⟨hstatus, same.client, same.node⟩
  · rw [succ.put, JobChannel.State.put_channels_of_ne _ _ _ _ hlog] at opened ⊢
    exact .inl ⟨opened, rfl, rfl⟩

/-- The event opened the channel with the record `c`, toward an active node on the list of the
registry; with a stake, if one is `required`. -/
structure OpenedAt (cfg : Config) (required : Prop) (id : Bytes32) (c : JobChannel.Channel)
    (e : Step) : Prop where
  opened : ∃ channelNonce deposit,
    channelLog cfg e = some (.channelOpened id c.client c.node channelNonce deposit) ∧
      id = JobChannel.channelIdOf cfg.channel c.client c.node channelNonce
  active : (e.pre.registry.nodes c.node).active = true
  listed : c.node ∈ e.pre.registry.nodeList
  staked : required → 0 < (e.pre.registry.nodes c.node).stake

theorem OpenedAt.later {required required' : Prop} {id : Bytes32} {c c' : JobChannel.Channel}
    (o : OpenedAt cfg required id c e) (client : c'.client = c.client) (node : c'.node = c.node)
    (himp : required' → required) : OpenedAt cfg required' id c' e := by
  refine ⟨?_, ?_, ?_, ?_⟩
  · rw [client, node]
    exact o.opened
  · rw [node]
    exact o.active
  · rw [node]
    exact o.listed
  · rw [node]
    exact fun h => o.staked (himp h)

/-- **Who a channel is opened toward.** Every channel that was ever opened was opened by its client
toward its node, at a moment at which the registry had the node active and on its list; with a
stake, if the registry always required one. What the registry does to the node afterwards changes
neither. -/
theorem opened_listed (r : Run (machine cfg) s h t) (init : (machine cfg).Init s) (id : Bytes32)
    (opened : (t.channels id).status ≠ .None) :
    ∃ e ∈ h, OpenedAt cfg (StakeRequired h) id (t.channels id) e := by
  induction r with
  | nil => exact absurd (congrArg JobChannel.Channel.status (init.1 id)) opened
  | @snoc h t a run legal ih =>
    change ((next cfg t a).channels id).status ≠ .None at opened
    change ∃ e ∈ _, OpenedAt cfg _ id ((next cfg t a).channels id) e
    have hpre : (⟨t, a, (machine cfg).next t a⟩ : Step).pre = t := rfl
    have hact : (⟨t, a, (machine cfg).next t a⟩ : Step).act = a := rfl
    generalize (⟨t, a, (machine cfg).next t a⟩ : Step) = last at hpre hact ⊢
    have hshorter : StakeRequired (h ++ [last]) → StakeRequired h :=
      fun required e he => required e (List.mem_append_left _ he)
    -- the channel is older than the event
    have older : (t.channels id).status ≠ .None →
        ((next cfg t a).channels id).client = (t.channels id).client →
        ((next cfg t a).channels id).node = (t.channels id).node →
        ∃ e ∈ h ++ [last], OpenedAt cfg (StakeRequired (h ++ [last])) id
          ((next cfg t a).channels id) e := by
      intro hold hclient hnode
      obtain ⟨e, he, hopened⟩ := ih hold
      exact ⟨e, List.mem_append_left _ he, hopened.later hclient hnode hshorter⟩
    cases a with
    | channel msg call =>
      cases hexec : call.exec cfg.channel t.channel msg with
      | error e =>
        have hsame : next cfg t (.channel msg call) = t := by simp only [next, hexec]
        rw [hsame] at opened older
        rw [hsame]
        exact older opened rfl rfl
      | ok p =>
        obtain ⟨c', log⟩ := p
        have hnext : next cfg t (.channel msg call) = t.ofChannel c' := by
          simp only [next, hexec]
        rw [hnext] at opened older ⊢
        obtain ⟨hold, hclient, hnode⟩ | ⟨n, d, active, hlog, hid⟩ :=
          opens_of_success hexec id opened
        · exact older hold hclient hnode
        · refine ⟨last, List.mem_append_right _ (List.mem_singleton_self _), ⟨n, d, ?_, hid⟩,
            ?_, ?_, ?_⟩
          · simp only [channelLog, hact, hpre, hexec, hlog]
            rfl
          · rw [hpre]
            exact active
          · obtain ⟨k, hk, -⟩ := registry_simulates run
            rw [hpre]
            exact ((NodeRegistry.listed_run hk (init_registry init)).active _).2 active
          · rw [hpre]
            exact fun required => allStaked run init (hshorter required) _ active
    | registry sender call =>
      have hsame : (next cfg t (.registry sender call)).channels = t.channels := by
        simp only [next]
        split <;> rfl
      rw [hsame] at opened older
      rw [hsame]
      exact older opened rfl rfl
    | token | sign => exact older opened rfl rfl

/-! ## A deployment -/

namespace Deployment

def testnet : Config where
  channel := JobChannel.Deployment.testnet
  registry := ⟨.replicate 20 7, .replicate 20 8⟩
  this_ne := by decide

def client : Address := JobChannel.Deployment.client

def node : Address := JobChannel.Deployment.node

def start : State := ⟨fun _ => .zero, .deployed 1 ⟨fun _ => 0, fun _ _ => 0⟩⟩

theorem init : (machine testnet).Init start :=
  ⟨fun _ => rfl, ⟨_, _, rfl⟩, fun _ => rfl, fun _ => rfl⟩

/-- An account funds itself and approves a contract. -/
def funding (a contract : Address) : List Action :=
  [.token a (.mint a 100), .token a (.approve contract 100)]

/-- A node registers, a client opens a channel toward it, and the node is slashed of its stake. -/
def slashing : List Action :=
  funding node testnet.registry.this ++
    [.registry node (.register NodeRegistry.Deployment.metadata 10)] ++
    funding client testnet.channel.this ++ [.channel ⟨client, 1000⟩ (.openChannel node 1 60),
      .registry testnet.registry.owner (.slash node client 10)]

abbrev trace (as : List Action) : List Step := (machine testnet).trace start as

abbrev final (as : List Action) : State := (machine testnet).final start as

theorem legal_slashing : (machine testnet).LegalFrom start slashing := by
  have hnode : node ≠ testnet.channel.this ∧ node ≠ testnet.registry.this := by decide
  have hclient : client ≠ testnet.channel.this ∧ client ≠ testnet.registry.this := by decide
  exact ⟨hnode, hnode, trivial, hclient, hclient, trivial, trivial, trivial⟩

theorem run_slashing : Run (machine testnet) start (trace slashing) (final slashing) :=
  Run.of_legalFrom slashing start legal_slashing

def channelId : Bytes32 := JobChannel.Deployment.channelId

theorem status_slashing : ((final slashing).channels channelId).status = .Open ∧
    ((final slashing).registry.nodes node).active = false := by decide +kernel

end Deployment

open Deployment in
theorem suite_solvent_slashing :
    ∑ id, ((final slashing).channels id).deposit ≤
        (final slashing).registry.stakeToken.balanceOf testnet.channel.this ∧
      ∑ a, ((final slashing).registry.nodes a).stake ≤
        (final slashing).registry.stakeToken.balanceOf testnet.registry.this :=
  let ⟨hchannel, hregistry, _⟩ := suite_solvent run_slashing init
  ⟨hchannel, hregistry⟩

open Deployment in
/-- The channel was opened toward the node that has been slashed since. -/
theorem opened_listed_slashing : ∃ e ∈ trace slashing, OpenedAt testnet
    (StakeRequired (trace slashing)) channelId ((final slashing).channels channelId) e :=
  opened_listed run_slashing init channelId (by rw [status_slashing.1]; nofun)

end Flodex.Suite
