import Flodex.Crypto.Scheme
import Flodex.Foundations.Checked
import Flodex.Foundations.Ledger

/-!
# The `JobChannel` contract

Payment channels between a client and a node over one token. The seven external calls are total
functions from the state, the message and their arguments to a revert or to the next state and
the event they emit; `Call.exec` dispatches them.

A successful call changes the record of one channel and moves the tokens its event names:
`Change` lists the changes, each with the guards that passed, and `Log.transfers` says which
tokens an event moves. `Call.exec_eq_ok` is the inversion the proofs about runs use in place of
the code.
-/

namespace Flodex.JobChannel

open Function

/-! ## State -/

/-- The status of a channel. -/
inductive Status
  | None
  | Open
  | Challenged
  | Closed
  deriving DecidableEq, Repr

/-- The record of a channel. -/
structure Channel where
  client : Address
  node : Address
  deposit : ℕ
  latestCumOwed : ℕ
  latestNonce : ℕ
  challengeDeadline : ℕ
  openedAt : ℕ
  status : Status
  deriving DecidableEq, Repr

/-- The record nobody wrote. -/
def Channel.zero : Channel := ⟨.replicate 20 0, .replicate 20 0, 0, 0, 0, 0, 0, .None⟩

@[simp] theorem Channel.zero_status : Channel.zero.status = .None := rfl

/-- The immutables of the contract, its address, and the chain it is deployed on. -/
structure Config where
  crypto : Crypto
  chainid : ℕ
  this : Address
  challengeWindow : UInt64
  reclaimTimeout : UInt64

/-- The storage of the contract, the ledger of the token, and the nodes the registry lists as
active. -/
structure State where
  channels : Bytes32 → Channel
  usdc : Ledger Address
  isActive : Address → Bool

/-- What a call sees of its transaction. A block header has 64 bits for its time, so
`uint64(block.timestamp)` is the time itself. -/
structure Msg where
  sender : Address
  timestamp : UInt64

/-- The time of the block. -/
def Msg.now (msg : Msg) : ℕ := msg.timestamp.toNat

/-- The reasons to revert. The last three are those of the language and of the libraries. -/
inductive Revert
  | channelExists
  | channelNotOpen
  | channelNotChallengeable
  | channelNotFinalizable
  | nodeNotActive
  | notClient
  | staleNonce (supplied latest : ℕ)
  | invalidClientSig (recovered expected : Address)
  | invalidNodeSig (recovered expected : Address)
  | challengeWindowOpen (deadline : ℕ)
  | challengeWindowClosed (deadline : ℕ)
  | reclaimTooEarly (reclaimAt : ℕ)
  | ecdsaInvalidSignature
  | safeERC20FailedOperation
  | arithmeticOverflow
  deriving DecidableEq, Repr

/-- The events of the contract. -/
inductive Log
  | channelOpened (channelId : Bytes32) (client node : Address) (channelNonce deposit : ℕ)
  | channelToppedUp (channelId : Bytes32) (amount newDeposit : ℕ)
  | channelChallenged (channelId : Bytes32) (nonce cumOwed deadline : ℕ)
  | channelClosed (channelId : Bytes32) (finalNonce paid refunded : ℕ)
  | channelReclaimed (channelId : Bytes32) (amount : ℕ)
  deriving DecidableEq, Repr

/-- The channel an event is about. -/
@[simp] def Log.channel : Log → Bytes32
  | .channelOpened id .. => id
  | .channelToppedUp id .. => id
  | .channelChallenged id .. => id
  | .channelClosed id .. => id
  | .channelReclaimed id .. => id

/-- The state after the record of one channel and the ledger changed. -/
def State.put (s : State) (channelId : Bytes32) (c : Channel) (usdc : Ledger Address) : State :=
  { s with channels := update s.channels channelId c, usdc := usdc }

namespace State

variable (s : State) (channelId : Bytes32) (c : Channel) (usdc : Ledger Address)

@[simp] theorem put_channels_self : (s.put channelId c usdc).channels channelId = c :=
  update_self ..

theorem put_channels_of_ne {channelId' : Bytes32} (h : channelId' ≠ channelId) :
    (s.put channelId c usdc).channels channelId' = s.channels channelId' := update_of_ne h ..

@[simp] theorem put_usdc : (s.put channelId c usdc).usdc = usdc := rfl

@[simp] theorem put_isActive : (s.put channelId c usdc).isActive = s.isActive := rfl

end State

variable (cfg : Config) (s : State) (msg : Msg)

/-! ## Identifiers and digests -/

/-- The ABI encoding of an address. -/
def addressWord (a : Address) : List UInt8 := List.replicate 12 0 ++ a.toList

/-- The ABI encoding of an unsigned integer. -/
def uintWord (n : ℕ) : List UInt8 := beBytes 32 n

/-- `CHANNEL_UPDATE_DOMAIN`. -/
def channelUpdateDomain : Bytes32 :=
  cfg.crypto.keccak256 (Text.utf8 "fldx-v0-channel-update".toList)

/-- The id of the channel a pair of parties opens under a number. -/
def channelIdOf (client node : Address) (channelNonce : ℕ) : Bytes32 :=
  cfg.crypto.keccak256 (addressWord client ++ addressWord node ++ uintWord channelNonce)

/-- The six words both parties sign. -/
def updateWords (channelId : Bytes32) (nonce cumOwed : ℕ) : List UInt8 :=
  (channelUpdateDomain cfg).toList ++ uintWord cfg.chainid ++ addressWord cfg.this ++
    channelId.toList ++ uintWord nonce ++ uintWord cumOwed

/-- The digest both parties sign. -/
def updateDigest (channelId : Bytes32) (nonce cumOwed : ℕ) : Bytes32 :=
  let hash := cfg.crypto.keccak256 (updateWords cfg channelId nonce cumOwed)
  cfg.crypto.toEthSignedMessageHash hash

/-! ## The code -/

/-- `_verifySigs`. -/
def verifySigs (channelId : Bytes32) (nonce cumOwed : ℕ) (clientSig nodeSig : List UInt8)
    (expectedClient expectedNode : Address) : Except Revert Unit := do
  let ethHash := updateDigest cfg channelId nonce cumOwed
  let recoveredClient ← orThrow (cfg.crypto.recover ethHash clientSig) .ecdsaInvalidSignature
  require (recoveredClient = expectedClient) (.invalidClientSig recoveredClient expectedClient)
  let recoveredNode ← orThrow (cfg.crypto.recover ethHash nodeSig) .ecdsaInvalidSignature
  require (recoveredNode = expectedNode) (.invalidNodeSig recoveredNode expectedNode)

/-- `if (v > 0) usdc.safeTransfer(dst, v)`. -/
def safeTransferPos (usdc : Ledger Address) (dst : Address) (v : ℕ) :
    Except Revert (Ledger Address) :=
  if 0 < v then orThrow (usdc.transfer cfg.this dst v) .safeERC20FailedOperation else pure usdc

/-- `_settle`, on the record `c` that the caller wrote. -/
def settle (channelId : Bytes32) (c : Channel) : Except Revert (State × Log) := do
  let deposit := c.deposit
  let paid := if deposit < c.latestCumOwed then deposit else c.latestCumOwed
  let refund := deposit - paid
  let closed := { c with status := .Closed, deposit := 0 }
  let usdc ← safeTransferPos cfg s.usdc c.node paid
  let usdc ← safeTransferPos cfg usdc c.client refund
  pure (s.put channelId closed usdc, .channelClosed channelId c.latestNonce paid refund)

def openChannel (node : Address) (channelNonce deposit : ℕ) : Except Revert (State × Log) := do
  let id := channelIdOf cfg msg.sender node channelNonce
  let c := s.channels id
  require (c.status = .None) .channelExists
  require (s.isActive node = true) .nodeNotActive
  let usdc ← orThrow (s.usdc.transferFrom cfg.this msg.sender cfg.this deposit)
    .safeERC20FailedOperation
  let c := { c with
    client := msg.sender, node := node, deposit := deposit, openedAt := msg.now, status := .Open }
  pure (s.put id c usdc, .channelOpened id msg.sender node channelNonce deposit)

def topUp (channelId : Bytes32) (amount : ℕ) : Except Revert (State × Log) := do
  let c := s.channels channelId
  require (c.status = .Open) .channelNotOpen
  let usdc ← orThrow (s.usdc.transferFrom cfg.this msg.sender cfg.this amount)
    .safeERC20FailedOperation
  let newDeposit ← checkedAdd 256 c.deposit amount .arithmeticOverflow
  let c := { c with deposit := newDeposit }
  pure (s.put channelId c usdc, .channelToppedUp channelId amount newDeposit)

def cooperativeClose (channelId : Bytes32) (nonce cumOwed : ℕ) (clientSig nodeSig : List UInt8) :
    Except Revert (State × Log) := do
  let c := s.channels channelId
  require (c.status = .Open ∨ c.status = .Challenged) .channelNotOpen
  require (c.latestNonce ≤ nonce) (.staleNonce nonce c.latestNonce)
  verifySigs cfg channelId nonce cumOwed clientSig nodeSig c.client c.node
  let c := { c with latestNonce := nonce, latestCumOwed := cumOwed }
  settle cfg s channelId c

def challengeClose (channelId : Bytes32) (nonce cumOwed : ℕ) (clientSig nodeSig : List UInt8) :
    Except Revert (State × Log) := do
  let c := s.channels channelId
  require (c.status = .Open) .channelNotOpen
  verifySigs cfg channelId nonce cumOwed clientSig nodeSig c.client c.node
  let deadline ← checkedAdd 64 msg.now cfg.challengeWindow.toNat .arithmeticOverflow
  let c := { c with
    latestNonce := nonce, latestCumOwed := cumOwed, challengeDeadline := deadline,
    status := .Challenged }
  pure (s.put channelId c s.usdc, .channelChallenged channelId nonce cumOwed deadline)

def submitChallenge (channelId : Bytes32) (nonce cumOwed : ℕ) (clientSig nodeSig : List UInt8) :
    Except Revert (State × Log) := do
  let c := s.channels channelId
  require (c.status = .Challenged) .channelNotChallengeable
  require (msg.now < c.challengeDeadline) (.challengeWindowClosed c.challengeDeadline)
  require (c.latestNonce < nonce) (.staleNonce nonce c.latestNonce)
  verifySigs cfg channelId nonce cumOwed clientSig nodeSig c.client c.node
  let c := { c with latestNonce := nonce, latestCumOwed := cumOwed }
  pure (s.put channelId c s.usdc, .channelChallenged channelId nonce cumOwed c.challengeDeadline)

def finalize (channelId : Bytes32) : Except Revert (State × Log) := do
  let c := s.channels channelId
  require (c.status = .Challenged) .channelNotFinalizable
  require (c.challengeDeadline ≤ msg.now) (.challengeWindowOpen c.challengeDeadline)
  settle cfg s channelId c

def reclaim (channelId : Bytes32) : Except Revert (State × Log) := do
  let c := s.channels channelId
  require (c.status = .Open) .channelNotOpen
  require (msg.sender = c.client) .notClient
  let reclaimAt ← checkedAdd 64 c.openedAt cfg.reclaimTimeout.toNat .arithmeticOverflow
  require (reclaimAt ≤ msg.now) (.reclaimTooEarly reclaimAt)
  let amount := c.deposit
  let closed := { c with deposit := 0, status := .Closed }
  let usdc ← safeTransferPos cfg s.usdc c.client amount
  pure (s.put channelId closed usdc, .channelReclaimed channelId amount)

/-- The external calls, with arguments of the width of their types. -/
inductive Call
  | openChannel (node : Address) (channelNonce : UInt64) (deposit : BitVec 256)
  | topUp (channelId : Bytes32) (amount : BitVec 256)
  | cooperativeClose (channelId : Bytes32) (nonce : UInt64) (cumOwed : BitVec 256)
    (clientSig nodeSig : List UInt8)
  | challengeClose (channelId : Bytes32) (nonce : UInt64) (cumOwed : BitVec 256)
    (clientSig nodeSig : List UInt8)
  | submitChallenge (channelId : Bytes32) (nonce : UInt64) (cumOwed : BitVec 256)
    (clientSig nodeSig : List UInt8)
  | finalize (channelId : Bytes32)
  | reclaim (channelId : Bytes32)
  deriving DecidableEq

/-- The number of a status. -/
def Status.toNat : Status → ℕ
  | .None => 0
  | .Open => 1
  | .Challenged => 2
  | .Closed => 3

/-- What the view `channels` returns for a record: its eight words. -/
def encodeChannel (c : Channel) : List UInt8 :=
  addressWord c.client ++ addressWord c.node ++ uintWord c.deposit ++ uintWord c.latestCumOwed ++
    uintWord c.latestNonce ++ uintWord c.challengeDeadline ++ uintWord c.openedAt ++
    uintWord c.status.toNat

/-- The effect of a call. -/
def Call.exec : Call → Except Revert (State × Log)
  | .openChannel node channelNonce deposit =>
    JobChannel.openChannel cfg s msg node channelNonce.toNat deposit.toNat
  | .topUp channelId amount => JobChannel.topUp cfg s msg channelId amount.toNat
  | .cooperativeClose channelId nonce cumOwed clientSig nodeSig =>
    JobChannel.cooperativeClose cfg s channelId nonce.toNat cumOwed.toNat clientSig nodeSig
  | .challengeClose channelId nonce cumOwed clientSig nodeSig =>
    JobChannel.challengeClose cfg s msg channelId nonce.toNat cumOwed.toNat clientSig nodeSig
  | .submitChallenge channelId nonce cumOwed clientSig nodeSig =>
    JobChannel.submitChallenge cfg s msg channelId nonce.toNat cumOwed.toNat clientSig nodeSig
  | .finalize channelId => JobChannel.finalize cfg s msg channelId
  | .reclaim channelId => JobChannel.reclaim cfg s msg channelId

/-! ## What a call does -/

/-- Both signatures are the parties' own on the state. -/
def CoSignature (c : Channel) (channelId : Bytes32) (nonce cumOwed : ℕ)
    (clientSig nodeSig : List UInt8) : Prop :=
  cfg.crypto.recover (updateDigest cfg channelId nonce cumOwed) clientSig = some c.client ∧
    cfg.crypto.recover (updateDigest cfg channelId nonce cumOwed) nodeSig = some c.node

/-- The part of the deposit that goes to the node. -/
def Channel.paid (c : Channel) : ℕ := min c.latestCumOwed c.deposit

/-- The part of the deposit that goes back to the client. -/
def Channel.refund (c : Channel) : ℕ := c.deposit - c.paid

theorem Channel.paid_add_refund (c : Channel) : c.paid + c.refund = c.deposit := by
  unfold Channel.refund Channel.paid
  omega

/-- The changes of the record `c` of the channel `id`, with the guards they passed. -/
inductive Change (cfg : Config) (msg : Msg) (id : Bytes32) (c : Channel) :
    Call → Channel → Log → Prop
  | openChannel (node : Address) (channelNonce : UInt64) (deposit : BitVec 256)
    (none : c.status = .None) :
    Change cfg msg id c (.openChannel node channelNonce deposit)
      { c with
        client := msg.sender, node := node, deposit := deposit.toNat, openedAt := msg.now,
        status := .Open }
      (.channelOpened id msg.sender node channelNonce.toNat deposit.toNat)
  | topUp (amount : BitVec 256) (opened : c.status = .Open)
    (fits : c.deposit + amount.toNat < 2 ^ 256) :
    Change cfg msg id c (.topUp id amount) { c with deposit := c.deposit + amount.toNat }
      (.channelToppedUp id amount.toNat (c.deposit + amount.toNat))
  | cooperativeClose (nonce : UInt64) (cumOwed : BitVec 256) (clientSig nodeSig : List UInt8)
    {signed : Channel} (live : c.status = .Open ∨ c.status = .Challenged)
    (fresh : c.latestNonce ≤ nonce.toNat)
    (sigs : CoSignature cfg c id nonce.toNat cumOwed.toNat clientSig nodeSig)
    (hsigned : signed = { c with latestNonce := nonce.toNat, latestCumOwed := cumOwed.toNat }) :
    Change cfg msg id c (.cooperativeClose id nonce cumOwed clientSig nodeSig)
      { signed with status := .Closed, deposit := 0 }
      (.channelClosed id nonce.toNat signed.paid signed.refund)
  | challengeClose (nonce : UInt64) (cumOwed : BitVec 256) (clientSig nodeSig : List UInt8)
    (opened : c.status = .Open)
    (sigs : CoSignature cfg c id nonce.toNat cumOwed.toNat clientSig nodeSig)
    (fits : msg.now + cfg.challengeWindow.toNat < 2 ^ 64) :
    Change cfg msg id c (.challengeClose id nonce cumOwed clientSig nodeSig)
      { c with
        latestNonce := nonce.toNat, latestCumOwed := cumOwed.toNat,
        challengeDeadline := msg.now + cfg.challengeWindow.toNat, status := .Challenged }
      (.channelChallenged id nonce.toNat cumOwed.toNat (msg.now + cfg.challengeWindow.toNat))
  | submitChallenge (nonce : UInt64) (cumOwed : BitVec 256) (clientSig nodeSig : List UInt8)
    (challenged : c.status = .Challenged) (inWindow : msg.now < c.challengeDeadline)
    (fresh : c.latestNonce < nonce.toNat)
    (sigs : CoSignature cfg c id nonce.toNat cumOwed.toNat clientSig nodeSig) :
    Change cfg msg id c (.submitChallenge id nonce cumOwed clientSig nodeSig)
      { c with latestNonce := nonce.toNat, latestCumOwed := cumOwed.toNat }
      (.channelChallenged id nonce.toNat cumOwed.toNat c.challengeDeadline)
  | finalize (challenged : c.status = .Challenged) (elapsed : c.challengeDeadline ≤ msg.now) :
    Change cfg msg id c (.finalize id) { c with status := .Closed, deposit := 0 }
      (.channelClosed id c.latestNonce c.paid c.refund)
  | reclaim (opened : c.status = .Open) (byClient : msg.sender = c.client)
    (fits : c.openedAt + cfg.reclaimTimeout.toNat < 2 ^ 64)
    (elapsed : c.openedAt + cfg.reclaimTimeout.toNat ≤ msg.now) :
    Change cfg msg id c (.reclaim id) { c with deposit := 0, status := .Closed }
      (.channelReclaimed id c.deposit)

/-- The transfers of a call that emits the event for a channel with the record `c`. -/
def Log.transfers (c : Channel) (usdc : Ledger Address) : Log → Option (Ledger Address)
  | .channelOpened _ _ _ _ deposit => usdc.transferFrom cfg.this msg.sender cfg.this deposit
  | .channelToppedUp _ amount _ => usdc.transferFrom cfg.this msg.sender cfg.this amount
  | .channelChallenged .. => some usdc
  | .channelClosed _ _ paid refunded =>
    (usdc.transfer cfg.this c.node paid).bind fun usdc =>
      usdc.transfer cfg.this c.client refunded
  | .channelReclaimed _ amount => usdc.transfer cfg.this c.client amount

/-- A successful call: it changes one record and makes the transfers of its event. -/
structure Success (call : Call) (s' : State) (log : Log) : Prop where
  change : Change cfg msg log.channel (s.channels log.channel) call (s'.channels log.channel) log
  transfers : log.transfers cfg msg (s.channels log.channel) s.usdc = some s'.usdc
  active : ∀ node channelNonce deposit, call = .openChannel node channelNonce deposit →
    s.isActive node = true
  put : s' = s.put log.channel (s'.channels log.channel) s'.usdc

variable {cfg s msg} {channelId : Bytes32} {nonce cumOwed : ℕ} {clientSig nodeSig : List UInt8}
  {c c' : Channel} {s' : State} {log : Log} {call : Call} {usdc usdc' : Ledger Address}

theorem verifySigs_eq_ok {u : Unit} :
    verifySigs cfg channelId nonce cumOwed clientSig nodeSig c.client c.node = .ok u ↔
      CoSignature cfg c channelId nonce cumOwed clientSig nodeSig := by
  simp only [verifySigs, bind_eq_ok, orThrow_eq_ok, require_eq_ok, CoSignature]
  constructor
  · rintro ⟨_, hc, _, rfl, _, hn, rfl⟩
    exact ⟨hc, hn⟩
  · rintro ⟨hc, hn⟩
    exact ⟨_, hc, (), rfl, _, hn, rfl⟩

/-- A transfer of nothing is no transfer. -/
theorem safeTransferPos_eq_ok {dst : Address} {v : ℕ} :
    safeTransferPos cfg usdc dst v = .ok usdc' ↔ usdc.transfer cfg.this dst v = some usdc' := by
  unfold safeTransferPos
  split
  · exact orThrow_eq_ok
  · obtain rfl : v = 0 := by omega
    rw [pure_eq_ok, Ledger.transfer_eq_some, Ledger.move_zero]
    simp [eq_comm]

theorem settle_eq_ok (msg : Msg) : settle cfg s channelId c = .ok (s', log) ↔
    log = .channelClosed channelId c.latestNonce c.paid c.refund ∧
    ∃ usdc, log.transfers cfg msg c s.usdc = some usdc ∧
      s' = s.put channelId { c with status := .Closed, deposit := 0 } usdc := by
  have hpaid : (if c.deposit < c.latestCumOwed then c.deposit else c.latestCumOwed) = c.paid := by
    unfold Channel.paid
    split <;> omega
  simp only [settle, hpaid, bind_eq_ok, safeTransferPos_eq_ok, pure_eq_ok, Prod.mk.injEq]
  constructor
  · rintro ⟨u, hn, v, hc, rfl, rfl⟩
    refine ⟨rfl, v, ?_, rfl⟩
    rw [Log.transfers, hn]
    exact hc
  · rintro ⟨rfl, v, hv, rfl⟩
    obtain ⟨u, hn, hc⟩ := Option.bind_eq_some_iff.1 hv
    exact ⟨u, hn, v, hc, rfl, rfl⟩

theorem Success.mk' (change : Change cfg msg channelId (s.channels channelId) call c' log)
    (transfers : log.transfers cfg msg (s.channels channelId) s.usdc = some usdc)
    (active : ∀ node channelNonce deposit, call = .openChannel node channelNonce deposit →
      s.isActive node = true)
    (hid : channelId = log.channel) : Success cfg s msg call (s.put channelId c' usdc) log := by
  subst hid
  exact ⟨by simpa using change, by simpa using transfers, active, by simp⟩

/-- **The successful calls**, with their guards and effects. -/
theorem Call.exec_eq_ok (h : call.exec cfg s msg = .ok (s', log)) :
    Success cfg s msg call s' log := by
  cases call with
  | openChannel node channelNonce deposit =>
    simp only [Call.exec, JobChannel.openChannel, bind_eq_ok, require_eq_ok, orThrow_eq_ok,
      pure_eq_ok, Prod.mk.injEq] at h
    obtain ⟨_, none, _, active, usdc, hpull, rfl, rfl⟩ := h
    refine .mk' (.openChannel node channelNonce deposit none) hpull ?_ rfl
    rintro _ _ _ ⟨⟩
    exact active
  | topUp channelId amount =>
    simp only [Call.exec, JobChannel.topUp, bind_eq_ok, require_eq_ok, orThrow_eq_ok,
      checkedAdd_eq_ok, pure_eq_ok, Prod.mk.injEq] at h
    obtain ⟨_, opened, usdc, hpull, _, ⟨fits, rfl⟩, rfl, rfl⟩ := h
    exact .mk' (.topUp amount opened fits) hpull (by simp) rfl
  | cooperativeClose channelId nonce cumOwed clientSig nodeSig =>
    simp only [Call.exec, JobChannel.cooperativeClose, bind_eq_ok, require_eq_ok,
      verifySigs_eq_ok, settle_eq_ok msg] at h
    obtain ⟨_, live, _, fresh, _, sigs, rfl, usdc, hpay, rfl⟩ := h
    exact .mk' (.cooperativeClose nonce cumOwed clientSig nodeSig live fresh sigs rfl) hpay
      (by simp) rfl
  | challengeClose channelId nonce cumOwed clientSig nodeSig =>
    simp only [Call.exec, JobChannel.challengeClose, bind_eq_ok, require_eq_ok,
      verifySigs_eq_ok, checkedAdd_eq_ok, pure_eq_ok, Prod.mk.injEq] at h
    obtain ⟨_, opened, _, sigs, _, ⟨fits, rfl⟩, rfl, rfl⟩ := h
    exact .mk' (.challengeClose nonce cumOwed clientSig nodeSig opened sigs fits) rfl (by simp) rfl
  | submitChallenge channelId nonce cumOwed clientSig nodeSig =>
    simp only [Call.exec, JobChannel.submitChallenge, bind_eq_ok, require_eq_ok,
      verifySigs_eq_ok, pure_eq_ok, Prod.mk.injEq] at h
    obtain ⟨_, challenged, _, inWindow, _, fresh, _, sigs, rfl, rfl⟩ := h
    exact .mk' (.submitChallenge nonce cumOwed clientSig nodeSig challenged inWindow fresh sigs)
      rfl (by simp) rfl
  | finalize channelId =>
    simp only [Call.exec, JobChannel.finalize, bind_eq_ok, require_eq_ok,
      settle_eq_ok msg] at h
    obtain ⟨_, challenged, _, elapsed, rfl, usdc, hpay, rfl⟩ := h
    exact .mk' (.finalize challenged elapsed) hpay (by simp) rfl
  | reclaim channelId =>
    simp only [Call.exec, JobChannel.reclaim, bind_eq_ok, require_eq_ok, checkedAdd_eq_ok,
      safeTransferPos_eq_ok, pure_eq_ok, Prod.mk.injEq] at h
    obtain ⟨_, opened, _, byClient, _, ⟨fits, rfl⟩, _, elapsed, usdc, hpay, rfl, rfl⟩ := h
    exact .mk' (.reclaim opened byClient fits elapsed) hpay (by simp) rfl

/-- A cooperative close that passes the guards and can be paid succeeds. -/
theorem exec_cooperativeClose {nonce : UInt64} {cumOwed : BitVec 256}
    (live : (s.channels channelId).status = .Open ∨ (s.channels channelId).status = .Challenged)
    (fresh : (s.channels channelId).latestNonce ≤ nonce.toNat)
    (sigs : CoSignature cfg (s.channels channelId) channelId nonce.toNat cumOwed.toNat clientSig
      nodeSig)
    (hc : c = { s.channels channelId with
      latestNonce := nonce.toNat, latestCumOwed := cumOwed.toNat })
    (transfers : (Log.channelClosed channelId nonce.toNat c.paid c.refund).transfers cfg msg c
      s.usdc = some usdc) :
    (Call.cooperativeClose channelId nonce cumOwed clientSig nodeSig).exec cfg s msg =
      .ok (s.put channelId { c with status := .Closed, deposit := 0 } usdc,
        .channelClosed channelId nonce.toNat c.paid c.refund) := by
  subst hc
  simp only [Call.exec, JobChannel.cooperativeClose, bind_eq_ok, require_eq_ok,
    verifySigs_eq_ok, settle_eq_ok msg]
  exact ⟨(), live, (), fresh, (), sigs, trivial, usdc, transfers, rfl⟩

/-- A challenge with a higher nonce that passes the guards succeeds. -/
theorem exec_submitChallenge {nonce : UInt64} {cumOwed : BitVec 256}
    (challenged : (s.channels channelId).status = .Challenged)
    (inWindow : msg.now < (s.channels channelId).challengeDeadline)
    (fresh : (s.channels channelId).latestNonce < nonce.toNat)
    (sigs : CoSignature cfg (s.channels channelId) channelId nonce.toNat cumOwed.toNat clientSig
      nodeSig) :
    (Call.submitChallenge channelId nonce cumOwed clientSig nodeSig).exec cfg s msg =
      .ok (s.put channelId { s.channels channelId with
          latestNonce := nonce.toNat, latestCumOwed := cumOwed.toNat } s.usdc,
        .channelChallenged channelId nonce.toNat cumOwed.toNat
          (s.channels channelId).challengeDeadline) := by
  simp only [Call.exec, JobChannel.submitChallenge, bind_eq_ok, require_eq_ok, verifySigs_eq_ok,
    pure_eq_ok]
  exact ⟨(), challenged, (), inWindow, (), fresh, (), sigs, trivial⟩

/-- A challenge that is over is finalized, if it can be paid. -/
theorem exec_finalize (challenged : (s.channels channelId).status = .Challenged)
    (elapsed : (s.channels channelId).challengeDeadline ≤ msg.now)
    (hc : c = s.channels channelId)
    (transfers : (Log.channelClosed channelId c.latestNonce c.paid c.refund).transfers cfg msg c
      s.usdc = some usdc) :
    (Call.finalize channelId).exec cfg s msg =
      .ok (s.put channelId { c with status := .Closed, deposit := 0 } usdc,
        .channelClosed channelId c.latestNonce c.paid c.refund) := by
  subst hc
  simp only [Call.exec, JobChannel.finalize, bind_eq_ok, require_eq_ok, settle_eq_ok msg]
  exact ⟨(), challenged, (), elapsed, trivial, usdc, transfers, rfl⟩

/-- The client reclaims an open channel after the timeout, if it can be paid. -/
theorem exec_reclaim (opened : (s.channels channelId).status = .Open)
    (byClient : msg.sender = (s.channels channelId).client)
    (fits : (s.channels channelId).openedAt + cfg.reclaimTimeout.toNat < 2 ^ 64)
    (elapsed : (s.channels channelId).openedAt + cfg.reclaimTimeout.toNat ≤ msg.now)
    (transfers : (Log.channelReclaimed channelId (s.channels channelId).deposit).transfers cfg msg
      (s.channels channelId) s.usdc = some usdc) :
    (Call.reclaim channelId).exec cfg s msg =
      .ok (s.put channelId { s.channels channelId with deposit := 0, status := .Closed } usdc,
        .channelReclaimed channelId (s.channels channelId).deposit) := by
  simp only [Call.exec, JobChannel.reclaim, bind_eq_ok, require_eq_ok, checkedAdd_eq_ok,
    safeTransferPos_eq_ok, pure_eq_ok]
  exact ⟨(), opened, (), byClient, _, ⟨fits, rfl⟩, (), elapsed, usdc, transfers, rfl⟩

end Flodex.JobChannel
