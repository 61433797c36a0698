import Flodex.Contracts.JobChannel
import Flodex.Foundations.Run

/-!
# Runs of the `JobChannel` contract

The contract among its users: any account may call it at any block time, ask anything of the
token, sign states off-chain, and the registry may list any node. A call that reverts leaves no
trace.

`outcome` says what an action does to the state and `outcome_channel` what it does to the record
of one channel; the invariants of single channels are inductions over the second.
-/

namespace Flodex.JobChannel

open Function

/-- The actions of the environment. -/
inductive Action
  | call (msg : Msg) (call : Call)
  | token (sender : Address) (request : Ledger.Request Address)
  | setActive (node : Address) (active : Bool)
  /-- The party signs a state of a channel, off-chain. -/
  | sign (party : Address) (channelId : Bytes32) (nonce : UInt64) (cumOwed : BitVec 256)

variable (cfg : Config)

/-- The state after an action. -/
def next (s : State) : Action → State
  | .call msg call =>
    match call.exec cfg s msg with
    | .ok (s', _) => s'
    | .error _ => s
  | .token sender request => { s with usdc := s.usdc.apply sender request }
  | .setActive node active => { s with isActive := update s.isActive node active }
  | .sign .. => s

/-- The contract among its users. The contract itself asks nothing of the token but what its code
does, and has approved no spender. -/
def machine : Machine State Action where
  Init s := (∀ id, s.channels id = Channel.zero) ∧ ∀ a, s.usdc.allowance cfg.this a = 0
  Legal _
    | .token sender _ => sender ≠ cfg.this
    | _ => True
  next := next cfg

/-- The events of the runs. -/
abbrev Step := Event State Action

/-- What an event of a run emitted: the log of a call that succeeds. -/
def emitted (e : Step) : Option Log :=
  match e.act with
  | .call msg call =>
    match call.exec cfg e.pre msg with
    | .ok (_, log) => some log
    | .error _ => none
  | _ => none

/-- What an action can do. -/
inductive Outcome (s : State) : Action → State → Option Log → Prop
  | success {msg : Msg} {call : Call} {s' : State} {log : Log}
    (succ : Success cfg s msg call s' log) : Outcome s (.call msg call) s' (some log)
  | revert {msg : Msg} {call : Call} : Outcome s (.call msg call) s none
  | token {sender : Address} {request : Ledger.Request Address} :
    Outcome s (.token sender request) { s with usdc := s.usdc.apply sender request } none
  | setActive {node : Address} {active : Bool} :
    Outcome s (.setActive node active) { s with isActive := update s.isActive node active } none
  | sign {party : Address} {id : Bytes32} {nonce : UInt64} {cumOwed : BitVec 256} :
    Outcome s (.sign party id nonce cumOwed) s none

/-- **What the actions do.** -/
theorem outcome (s : State) (a : Action) :
    Outcome cfg s a (next cfg s a) (emitted cfg ⟨s, a, next cfg s a⟩) := by
  cases a with
  | call msg call =>
    simp only [next, emitted]
    split
    · rename_i s' log hexec
      exact .success (Call.exec_eq_ok hexec)
    · exact .revert
  | token sender request => exact .token
  | setActive node active => exact .setActive
  | sign party id nonce cumOwed => exact .sign

/-- What an action can do to the record of the channel `id`. -/
inductive ChannelOutcome (id : Bytes32) (c : Channel) : Action → Channel → Option Log → Prop
  | change {msg : Msg} {call : Call} {c' : Channel} {log : Log} (about : log.channel = id)
    (change : Change cfg msg id c call c' log) : ChannelOutcome id c (.call msg call) c' (some log)
  | frame {a : Action} {o : Option Log} (about : ∀ log ∈ o, log.channel ≠ id) :
    ChannelOutcome id c a c o

variable {cfg} {s s' t : State} {a : Action} {log : Log} {o : Option Log} {msg : Msg}
  {call : Call} {id : Bytes32} {h : List Step} {e : Step}

/-- **What an action does to one channel**: a call about it changes its record, and nothing else
does. -/
theorem Outcome.channel (out : Outcome cfg s a s' o) (id : Bytes32) :
    ChannelOutcome cfg id (s.channels id) a (s'.channels id) o := by
  cases out with
  | success succ =>
    rename_i msg call log
    by_cases h : log.channel = id
    · subst h
      exact .change rfl succ.change
    · rw [succ.put, State.put_channels_of_ne _ _ _ _ (Ne.symm h)]
      exact .frame (by simpa using h)
  | revert => exact .frame (by simp)
  | token => exact .frame (by simp)
  | setActive => exact .frame (by simp)
  | sign => exact .frame (by simp)

theorem outcome_channel (cfg : Config) (s : State) (a : Action) (id : Bytes32) :
    ChannelOutcome cfg id (s.channels id) a ((next cfg s a).channels id)
      (emitted cfg ⟨s, a, next cfg s a⟩) := (outcome cfg s a).channel id

/-- The events of a run are outcomes. -/
theorem outcome_of_mem (r : Run (machine cfg) s h t) (he : e ∈ h) :
    Outcome cfg e.pre e.act e.post (emitted cfg e) := by
  obtain ⟨u, a, v⟩ := e
  obtain rfl : v = next cfg u a := r.post_eq he
  exact outcome cfg u a

/-- An event that emitted a log is a successful call. -/
theorem success_of_emitted (r : Run (machine cfg) s h t) (he : e ∈ h)
    (hlog : emitted cfg e = some log) :
    ∃ msg call, e.act = .call msg call ∧ Success cfg e.pre msg call e.post log := by
  have out := outcome_of_mem r he
  rw [hlog] at out
  obtain ⟨u, a, v⟩ := e
  change Outcome cfg u a v (some log) at out
  cases out with
  | success succ => exact ⟨_, _, rfl, succ⟩

/-! ## What holds of every record -/

/-- **Invariants of the record of a channel and the history that led to it**: an event that emits
nothing about the channel preserves them, and so do the changes of the record. -/
theorem channelHistory (I : List Step → Channel → Prop) (r : Run (machine cfg) s h t)
    (init : I [] (s.channels id))
    (frame : ∀ h e c, I h c → e.pre.channels id = c → e.post.channels id = c →
      (∀ log ∈ emitted cfg e, log.channel ≠ id) → I (h ++ [e]) c)
    (change : ∀ h e c c' msg call log, I h c → e.pre.channels id = c → e.post.channels id = c' →
      e.act = .call msg call → emitted cfg e = some log → log.channel = id →
      Change cfg msg id c call c' log → I (h ++ [e]) c') : I h (t.channels id) := by
  refine r.invariantHistory (fun h t => I h (t.channels id)) (fun _ _ => True)
    (fun _ _ _ _ => trivial) init fun h t a _ ih _ _ => ?_
  have out := outcome_channel cfg t a id
  have hpost : (Event.mk t a (next cfg t a)).post.channels id = (next cfg t a).channels id := rfl
  change I (h ++ [⟨t, a, next cfg t a⟩]) ((next cfg t a).channels id)
  generalize he : Event.mk t a (next cfg t a) = e at out hpost ⊢
  have hpre : e.pre.channels id = t.channels id := by rw [← he]
  have hact : e.act = a := by rw [← he]
  generalize ho : emitted cfg e = o at out
  generalize (next cfg t a).channels id = c' at out hpost ⊢
  cases out with
  | change about hchange => exact change h e _ _ _ _ _ ih hpre hpost hact ho about hchange
  | frame about => exact frame h e _ ih hpre hpost (by rwa [ho])

/-- What every change of the record of a channel preserves holds along every run. -/
theorem channel_invariant (I : Channel → Prop) (r : Run (machine cfg) s h t)
    (init : I (s.channels id))
    (change : ∀ c c' msg call log, I c → Change cfg msg id c call c' log → I c') :
    I (t.channels id) :=
  channelHistory (fun _ c => I c) r init (fun _ _ _ hc _ _ _ => hc)
    fun _ _ c c' msg call log hc _ _ _ _ _ => change c c' msg call log hc

/-- A channel that is not opened has the record nobody wrote. -/
theorem channels_of_none (r : Run (machine cfg) s h t) (init : (machine cfg).Init s)
    (id : Bytes32) (hid : (t.channels id).status = .None) : t.channels id = Channel.zero := by
  refine channel_invariant (fun c => c.status = .None → c = Channel.zero) r
    (fun _ => init.1 id) ?_ hid
  intro c c' msg call log _ change
  cases change <;> simp_all

/-- The parties of an opened channel never change, and it is never unopened. -/
structure SameParties (c c' : Channel) : Prop where
  client : c'.client = c.client
  node : c'.node = c.node
  openedAt : c'.openedAt = c.openedAt
  status : c'.status ≠ .None

theorem Change.sameParties {c c' : Channel} (change : Change cfg msg id c call c' log)
    (hc : c.status ≠ .None) : SameParties c c' := by
  cases change with
  | openChannel _ _ _ none => exact absurd none hc
  | topUp _ opened => exact ⟨rfl, rfl, rfl, hc⟩
  | cooperativeClose _ _ _ _ _ _ _ hsigned =>
    subst hsigned
    exact ⟨rfl, rfl, rfl, nofun⟩
  | challengeClose => exact ⟨rfl, rfl, rfl, nofun⟩
  | submitChallenge => exact ⟨rfl, rfl, rfl, hc⟩
  | finalize => exact ⟨rfl, rfl, rfl, nofun⟩
  | reclaim => exact ⟨rfl, rfl, rfl, nofun⟩

theorem sameParties (r : Run (machine cfg) s h t) (hs : (s.channels id).status ≠ .None) :
    SameParties (s.channels id) (t.channels id) := by
  refine channel_invariant (SameParties (s.channels id)) r ⟨rfl, rfl, rfl, hs⟩ ?_
  intro c c' msg call log ih change
  have same := change.sameParties ih.status
  exact ⟨same.client.trans ih.client, same.node.trans ih.node,
    same.openedAt.trans ih.openedAt, same.status⟩

/-- The contract holds the deposit of a channel. -/
def Channel.Live (c : Channel) : Prop := c.status = .Open ∨ c.status = .Challenged

/-- The deposit of a record is a word, and nothing unless the contract holds it. -/
theorem deposit_word (r : Run (machine cfg) s h t) (init : (machine cfg).Init s) (id : Bytes32) :
    (t.channels id).deposit < 2 ^ 256 ∧ (0 < (t.channels id).deposit → (t.channels id).Live) := by
  refine channel_invariant (fun c => c.deposit < 2 ^ 256 ∧ (0 < c.deposit → c.Live)) r ?_ ?_
  · rw [init.1 id]
    exact ⟨by simp [Channel.zero], fun h => absurd h (Nat.lt_irrefl 0)⟩
  intro c c' msg call log ih change
  cases change with
  | openChannel _ _ deposit _ => exact ⟨deposit.isLt, fun _ => .inl rfl⟩
  | topUp amount opened fits => exact ⟨fits, fun _ => .inl opened⟩
  | challengeClose => exact ⟨ih.1, fun _ => .inr rfl⟩
  | submitChallenge _ _ _ _ challenged => exact ⟨ih.1, fun _ => .inr challenged⟩
  | cooperativeClose | finalize | reclaim =>
    exact ⟨Nat.two_pow_pos 256, fun h => absurd h (Nat.lt_irrefl 0)⟩

/-- **A deposit is held until the channel is closed**, and only grows. -/
theorem live_until_closed (r : Run (machine cfg) s h t) (hs : (s.channels id).Live)
    (ht : (t.channels id).status ≠ .Closed) :
    (t.channels id).Live ∧ (s.channels id).deposit ≤ (t.channels id).deposit := by
  have : (t.channels id).status = .Closed ∨
      (t.channels id).Live ∧ (s.channels id).deposit ≤ (t.channels id).deposit := by
    refine channel_invariant (fun c => c.status = .Closed ∨
      c.Live ∧ (s.channels id).deposit ≤ c.deposit) r (.inr ⟨hs, le_rfl⟩) ?_
    intro c c' msg call log ih change
    cases change with
    | openChannel _ _ _ none => simp [none, Channel.Live] at ih
    | topUp amount opened _ =>
      rcases ih with hclosed | ⟨hlive, hle⟩
      · simp [hclosed] at opened
      · exact .inr ⟨hlive, hle.trans (Nat.le_add_right ..)⟩
    | challengeClose _ _ _ _ opened =>
      rcases ih with hclosed | ⟨-, hle⟩
      · simp [hclosed] at opened
      · exact .inr ⟨.inr rfl, hle⟩
    | submitChallenge => exact ih
    | cooperativeClose | finalize | reclaim => exact .inl rfl
  exact this.resolve_left ht

/-! ## A deployment -/

namespace Deployment

def testnet : Config :=
  ⟨Crypto.symbolic, 84532, .replicate 20 9, 3600, 86400⟩

def client : Address := .replicate 20 1

def node : Address := .replicate 20 2

def start : State := ⟨fun _ => Channel.zero, ⟨fun _ => 0, fun _ _ => 0⟩, fun _ => false⟩

theorem init : (machine testnet).Init start := ⟨fun _ => rfl, fun _ => rfl⟩

/-- The channel the client opens toward the node. -/
def channelId : Bytes32 := channelIdOf testnet client node 1

/-- The client funds itself and opens a channel of 60 toward a node. -/
def openingToward (node : Address) : List Action :=
  [.token client (.mint client 100), .token client (.approve testnet.this 100),
    .setActive node true, .call ⟨client, 10⟩ (.openChannel node 1 60)]

def opening : List Action := openingToward node

/-- A party's signature on a state of the channel. -/
def signature (party : Address) (nonce cumOwed : ℕ) : List UInt8 :=
  Crypto.symbolicSign party (updateDigest testnet channelId nonce cumOwed)

/-- Both parties sign a state. -/
def coSign (nonce : UInt64) (cumOwed : BitVec 256) : List Action :=
  [.sign node channelId nonce cumOwed, .sign client channelId nonce cumOwed]

/-- A call on a state both parties signed. -/
def closeOn (time nonce : UInt64) (cumOwed : BitVec 256) : Action :=
  .call ⟨client, time⟩ (.cooperativeClose channelId nonce cumOwed
    (signature client nonce.toNat cumOwed.toNat) (signature node nonce.toNat cumOwed.toNat))

/-- A channel that is closed on the first state its parties signed. -/
def settling : List Action := opening ++ coSign 1 25 ++ [closeOn 20 1 25]

abbrev trace (as : List Action) : List Step := (machine testnet).trace start as

abbrev final (as : List Action) : State := (machine testnet).final start as

theorem run (as : List Action) (legal : (machine testnet).LegalFrom start as) :
    Run (machine testnet) start (trace as) (final as) := Run.of_legalFrom as start legal

theorem legal_openingToward (node : Address) :
    (machine testnet).LegalFrom start (openingToward node) := by
  refine ⟨?_, ?_, trivial, trivial, trivial⟩ <;> exact show client ≠ testnet.this by decide

theorem legal_settling : (machine testnet).LegalFrom start settling := by
  refine ⟨?_, ?_, trivial, trivial, trivial, trivial, trivial, trivial⟩ <;>
    exact show client ≠ testnet.this by decide

example : (final settling).usdc.balanceOf node = 25 := by decide +kernel

end Deployment

end Flodex.JobChannel
