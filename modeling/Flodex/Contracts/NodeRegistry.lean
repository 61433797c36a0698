import Flodex.Crypto.Scheme
import Flodex.Foundations.Checked
import Flodex.Foundations.IndexedList
import Flodex.Foundations.Ledger

/-!
# The `NodeRegistry` contract

The registry of compute nodes: each node stakes the token and advertises how to reach it. The
external calls that write are total functions from the state, the sender and their arguments to a
revert or to the next state and the event they emit, with the panics of the language where the
code indexes, pops or subtracts.

`Call.exec_eq_ok` is the inversion the proofs about runs use in place of the code, and
`removeFromList_eq_ok` says what the removal from the list does when every position is where the
index says.
-/

namespace Flodex.NodeRegistry

/-! ## State -/

/-- `BACKEND_COUNT`. -/
def backendCount : ℕ := 4

/-- The backends: the bits of `backendBitmap`, and the places of `pricePer1k`. -/
inductive Backend
  | MockTee
  | Fhe
  | Mcp
  | Local
  deriving DecidableEq, Repr

/-- `uint8(backend)`. -/
def Backend.toUInt8 : Backend → UInt8
  | MockTee => 0
  | Fhe => 1
  | Mcp => 2
  | Local => 3

theorem Backend.toUInt8_lt (b : Backend) : b.toUInt8.toNat < backendCount := by
  cases b <;> decide

/-- What a node advertises: the part of its record that `update` writes. -/
structure Metadata where
  url : List UInt8
  ecdhPubkey : Bytes32
  backendBitmap : UInt8
  maxTokens : UInt64
  pricePer1k : Vector (BitVec 256) backendCount
  deriving DecidableEq

/-- The record of a node. -/
structure Node extends Metadata where
  stake : ℕ
  active : Bool
  deriving DecidableEq

/-- The record nobody wrote. -/
def Node.zero : Node := ⟨⟨[], .replicate 32 0, 0, 0, .replicate _ 0⟩, 0, false⟩

/-- The list of the nodes, and the position of each node in it, counted from one. -/
structure NodeList where
  nodeList : List Address
  nodeListIndex : Address → ℕ

/-- The storage of the contract and the ledger of the token. -/
structure State extends NodeList where
  nodes : Address → Node
  escrow : Address
  minStake : ℕ
  stakeToken : Ledger Address

/-- The owner and the address of the contract. -/
structure Config where
  owner : Address
  this : Address

/-- The reasons to revert. The last two are those of the libraries and of the language. -/
inductive Revert
  | notOwner
  | notAuthorized
  | alreadyRegistered
  | notRegistered
  | stakeBelowMin (provided required : ℕ)
  | amountExceedsStake (amount stake : ℕ)
  | safeERC20FailedOperation
  | panic (code : ℕ)
  deriving DecidableEq, Repr

/-- The events of the contract. -/
inductive Log
  | registered (node : Address) (url : List UInt8) (ecdhPubkey : Bytes32) (backendBitmap : UInt8)
    (stake : ℕ)
  | updated (node : Address) (url : List UInt8) (backendBitmap : UInt8)
    (pricePer1k : Vector (BitVec 256) backendCount)
  | unregistered (node : Address) (returnedStake : ℕ)
  | slashed (node recipient : Address) (amount : ℕ)
  | escrowSet (escrow : Address)
  | minStakeSet (minStake : ℕ)
  deriving DecidableEq

variable (cfg : Config) (s : State) (sender : Address)

/-- The state after the record of one node changed. -/
def State.setNode (node : Address) (n : Node) : State :=
  { s with nodes := Function.update s.nodes node n }

/-! ## The code -/

/-- The list after `register`: a node without a position is pushed. -/
def addToList (l : NodeList) (node : Address) : Except Revert NodeList :=
  if l.nodeListIndex node = 0 then do
    require (l.nodeList.length < 2 ^ 64) (.panic 0x41)
    let nodeList := l.nodeList ++ [node]
    pure ⟨nodeList, Function.update l.nodeListIndex node nodeList.length⟩
  else pure l

/-- `_removeFromList`, where the last element moves into the place of another one. -/
def moveLast (l : NodeList) (idx lastIdx : ℕ) : Except Revert NodeList := do
  let lastPos ← checkedSub lastIdx 1 (.panic 0x11)
  let last ← orThrow l.nodeList[lastPos]? (.panic 0x32)
  let pos ← checkedSub idx 1 (.panic 0x11)
  require (pos < l.nodeList.length) (.panic 0x32)
  pure ⟨l.nodeList.set pos last, Function.update l.nodeListIndex last idx⟩

/-- `_removeFromList`. -/
def removeFromList (l : NodeList) (node : Address) : Except Revert NodeList :=
  let idx := l.nodeListIndex node
  if idx = 0 then pure l
  else do
    let lastIdx := l.nodeList.length
    let l ← (if idx ≠ lastIdx then moveLast l idx lastIdx else pure l)
    require (0 < l.nodeList.length) (.panic 0x31)
    pure ⟨l.nodeList.dropLast, Function.update l.nodeListIndex node 0⟩

/-- The end of a slash: a node without stake becomes inactive. -/
def deactivateDrained (l : NodeList) (node : Address) (n : Node) :
    Except Revert (NodeList × Node) :=
  if n.stake = 0 then do
    let l ← removeFromList l node
    pure (l, { n with active := false })
  else pure (l, n)

/-- `if (v > 0) stakeToken.safeTransfer(dst, v)`. -/
def safeTransferPos (stakeToken : Ledger Address) (dst : Address) (v : ℕ) :
    Except Revert (Ledger Address) :=
  if 0 < v then orThrow (stakeToken.transfer cfg.this dst v) .safeERC20FailedOperation
  else pure stakeToken

def setEscrow (escrow : Address) : Except Revert (State × Log) := do
  require (sender = cfg.owner) .notOwner
  pure ({ s with escrow := escrow }, .escrowSet escrow)

def setMinStake (minStake : ℕ) : Except Revert (State × Log) := do
  require (sender = cfg.owner) .notOwner
  pure ({ s with minStake := minStake }, .minStakeSet minStake)

def register (m : Metadata) (stake : ℕ) : Except Revert (State × Log) := do
  require (s.minStake ≤ stake) (.stakeBelowMin stake s.minStake)
  let n := s.nodes sender
  require (n.active = false) .alreadyRegistered
  let stakeToken ← orThrow (s.stakeToken.transferFrom cfg.this sender cfg.this stake)
    .safeERC20FailedOperation
  let n := { n with toMetadata := m, stake := stake, active := true }
  let l ← addToList s.toNodeList sender
  pure ({ s.setNode sender n with toNodeList := l, stakeToken := stakeToken },
    .registered sender m.url m.ecdhPubkey m.backendBitmap stake)

def update (m : Metadata) : Except Revert (State × Log) := do
  let n := s.nodes sender
  require (n.active = true) .notRegistered
  let n := { n with toMetadata := m }
  pure (s.setNode sender n, .updated sender m.url m.backendBitmap m.pricePer1k)

def unregister : Except Revert (State × Log) := do
  let n := s.nodes sender
  require (n.active = true) .notRegistered
  let returned := n.stake
  let n := { n with stake := 0, active := false }
  let l ← removeFromList s.toNodeList sender
  let stakeToken ← safeTransferPos cfg s.stakeToken sender returned
  pure ({ s.setNode sender n with toNodeList := l, stakeToken := stakeToken },
    .unregistered sender returned)

def slash (node recipient : Address) (amount : ℕ) : Except Revert (State × Log) := do
  require (sender = s.escrow ∨ sender = cfg.owner) .notAuthorized
  let n := s.nodes node
  require (n.active = true) .notRegistered
  require (amount ≤ n.stake) (.amountExceedsStake amount n.stake)
  let stake ← checkedSub n.stake amount (.panic 0x11)
  let n := { n with stake := stake }
  let (l, n) ← deactivateDrained s.toNodeList node n
  let stakeToken ← safeTransferPos cfg s.stakeToken recipient amount
  pure ({ s.setNode node n with toNodeList := l, stakeToken := stakeToken },
    .slashed node recipient amount)

/-- The view `nodeCount`. -/
def nodeCount : ℕ := s.nodeList.length

/-- The view `priceFor`. -/
def priceFor (node : Address) (backend : Backend) : BitVec 256 :=
  (s.nodes node).pricePer1k.get ⟨backend.toUInt8.toNat, backend.toUInt8_lt⟩

/-- The view `supportsBackend`. -/
def supportsBackend (node : Address) (backend : Backend) : Bool :=
  (s.nodes node).backendBitmap &&& ((1 : UInt8) <<< backend.toUInt8) != 0

/-- The external calls that write, with arguments of the width of their types. -/
inductive Call
  | setEscrow (escrow : Address)
  | setMinStake (minStake : BitVec 256)
  | register (m : Metadata) (stake : BitVec 256)
  | update (m : Metadata)
  | unregister
  | slash (node recipient : Address) (amount : BitVec 256)
  deriving DecidableEq

/-- The effect of a call. -/
def Call.exec : Call → Except Revert (State × Log)
  | .setEscrow escrow => NodeRegistry.setEscrow cfg s sender escrow
  | .setMinStake minStake => NodeRegistry.setMinStake cfg s sender minStake.toNat
  | .register m stake => NodeRegistry.register cfg s sender m stake.toNat
  | .update m => NodeRegistry.update s sender m
  | .unregister => NodeRegistry.unregister cfg s sender
  | .slash node recipient amount => NodeRegistry.slash cfg s sender node recipient amount.toNat

/-! ## What a call does -/

/-- The successful calls, with their guards and effects. -/
inductive Success : Call → State → Log → Prop
  | setEscrow {escrow : Address} (byOwner : sender = cfg.owner) :
    Success (.setEscrow escrow) { s with escrow := escrow } (.escrowSet escrow)
  | setMinStake {minStake : BitVec 256} (byOwner : sender = cfg.owner) :
    Success (.setMinStake minStake) { s with minStake := minStake.toNat }
      (.minStakeSet minStake.toNat)
  | register {m : Metadata} {stake : BitVec 256} {l : NodeList} {token : Ledger Address}
    (enough : s.minStake ≤ stake.toNat) (inactive : (s.nodes sender).active = false)
    (pulled : s.stakeToken.transferFrom cfg.this sender cfg.this stake.toNat = some token)
    (listed : addToList s.toNodeList sender = .ok l) :
    Success (.register m stake)
      { s.setNode sender ⟨m, stake.toNat, true⟩ with toNodeList := l, stakeToken := token }
      (.registered sender m.url m.ecdhPubkey m.backendBitmap stake.toNat)
  | update {m : Metadata} (active : (s.nodes sender).active = true) :
    Success (.update m) (s.setNode sender { s.nodes sender with toMetadata := m })
      (.updated sender m.url m.backendBitmap m.pricePer1k)
  | unregister {l : NodeList} {token : Ledger Address} (active : (s.nodes sender).active = true)
    (removed : removeFromList s.toNodeList sender = .ok l)
    (paid : s.stakeToken.transfer cfg.this sender (s.nodes sender).stake = some token) :
    Success .unregister
      { s.setNode sender { s.nodes sender with stake := 0, active := false } with
        toNodeList := l, stakeToken := token }
      (.unregistered sender (s.nodes sender).stake)
  | slash {node recipient : Address} {amount : BitVec 256} {l : NodeList} {token : Ledger Address}
    (authorized : sender = s.escrow ∨ sender = cfg.owner) (active : (s.nodes node).active = true)
    (less : amount.toNat < (s.nodes node).stake) (same : l = s.toNodeList)
    (paid : s.stakeToken.transfer cfg.this recipient amount.toNat = some token) :
    Success (.slash node recipient amount)
      { s.setNode node { s.nodes node with stake := (s.nodes node).stake - amount.toNat } with
        toNodeList := l, stakeToken := token }
      (.slashed node recipient amount.toNat)
  | drain {node recipient : Address} {amount : BitVec 256} {l : NodeList} {token : Ledger Address}
    (authorized : sender = s.escrow ∨ sender = cfg.owner) (active : (s.nodes node).active = true)
    (all : amount.toNat = (s.nodes node).stake) (removed : removeFromList s.toNodeList node = .ok l)
    (paid : s.stakeToken.transfer cfg.this recipient amount.toNat = some token) :
    Success (.slash node recipient amount)
      { s.setNode node { s.nodes node with stake := 0, active := false } with
        toNodeList := l, stakeToken := token }
      (.slashed node recipient amount.toNat)

variable {cfg s sender} {s' : State} {log : Log} {call : Call} {token token' : Ledger Address}
  {l l' : NodeList} {node a : Address}

/-- A transfer of nothing is no transfer. -/
theorem safeTransferPos_eq_ok {dst : Address} {v : ℕ} :
    safeTransferPos cfg token dst v = .ok token' ↔
      token.transfer cfg.this dst v = some token' := by
  unfold safeTransferPos
  split
  · exact orThrow_eq_ok
  · obtain rfl : v = 0 := by omega
    rw [pure_eq_ok, Ledger.transfer_eq_some, Ledger.move_zero]
    simp [eq_comm]

/-! ## The list -/

/-- Every position is where the index says. -/
def NodeList.Indexed (l : NodeList) : Prop := Indexes l.nodeListIndex l.nodeList

theorem addToList_eq_ok (hl : l.Indexed) (h : addToList l node = .ok l') :
    l'.Indexed ∧ ∀ a, a ∈ l'.nodeList ↔ a ∈ l.nodeList ∨ a = node := by
  unfold addToList at h
  split at h
  · rename_i hidx
    simp only [bind_eq_ok, require_eq_ok, pure_eq_ok] at h
    obtain ⟨_, -, rfl⟩ := h
    rw [List.length_append]
    exact ⟨hl.concat hidx, by simp⟩
  · rename_i hidx
    obtain rfl := pure_eq_ok.1 h
    refine ⟨hl, fun a => ⟨.inl, ?_⟩⟩
    rintro (ha | rfl)
    · exact ha
    · exact hl.mem_iff.2 hidx

/-- The last element moves into the place of another one. -/
theorem moveLast_eq_ok {init : List Address} {index : Address → ℕ} {i : ℕ} (hi : i < init.length) :
    moveLast ⟨init ++ [a], index⟩ (i + 1) (init ++ [a]).length =
      .ok ⟨init.set i a ++ [a], Function.update index a (i + 1)⟩ := by
  have hlen : (init ++ [a]).length = init.length + 1 := List.length_append
  simp only [moveLast, bind_eq_ok, checkedSub_eq_ok, orThrow_eq_ok, require_eq_ok, pure_eq_ok]
  refine ⟨init.length, ⟨by omega, by omega⟩, a, by simp, i, ⟨by omega, by omega⟩, (), by omega, ?_⟩
  rw [List.set_append_left _ _ hi]

theorem removeFromList_of_moved {init : List Address} {index : Address → ℕ} {i : ℕ}
    (hidx : l.nodeListIndex node = i + 1)
    (moved : (if i + 1 ≠ l.nodeList.length then moveLast l (i + 1) l.nodeList.length else pure l) =
      .ok ⟨init ++ [a], index⟩) :
    removeFromList l node = .ok ⟨init, Function.update index node 0⟩ := by
  simp only [removeFromList, hidx, if_neg (Nat.succ_ne_zero i), bind_eq_ok, require_eq_ok,
    pure_eq_ok]
  exact ⟨_, moved, (), by simp, by simp⟩

/-- **The removal from the list** takes out the node and no other, and never fails. -/
theorem removeFromList_eq_ok (hl : l.Indexed) (node : Address) :
    ∃ l', removeFromList l node = .ok l' ∧ l'.Indexed ∧
      ∀ a, a ∈ l'.nodeList ↔ a ∈ l.nodeList ∧ a ≠ node := by
  obtain ⟨list, index⟩ := l
  change Indexes index list at hl
  cases hidx : index node with
  | zero =>
    refine ⟨⟨list, index⟩, by simp [removeFromList, hidx], hl, fun a => ?_⟩
    have hmem := hl.eq_zero_iff.1 hidx
    exact ⟨fun ha => ⟨ha, fun e => hmem (e ▸ ha)⟩, And.left⟩
  | succ i =>
    have hi := hl.lt_length hidx
    rcases List.eq_nil_or_concat list with rfl | ⟨init, b, rfl⟩
    · exact absurd hi (Nat.not_lt_zero i)
    rw [List.concat_eq_append] at hl hi ⊢
    have hlen : (init ++ [b]).length = init.length + 1 := List.length_append
    by_cases hlast : i = init.length
    · -- the node is the last element
      obtain rfl : b = node := by
        have := (hl node i).1 hidx
        rw [hlast, List.getElem?_append_right le_rfl, Nat.sub_self] at this
        exact Option.some.inj this
      have hrem := hl.remove_last
      refine ⟨_, removeFromList_of_moved hidx (if_neg (by dsimp only; omega)), hrem, ?_⟩
      refine hl.mem_removed hrem fun c => ?_
      by_cases hc : c = b
      · simp [hc]
      · simp [hc]
    · have hlt : i < init.length := by omega
      have hb : index b = init.length + 1 := (hl b init.length).2 (by simp)
      have hrem := hl.remove_swap hidx hlt
      refine ⟨_, removeFromList_of_moved hidx ((if_pos (by dsimp only; omega)).trans
        (moveLast_eq_ok hlt)), hrem, hl.mem_removed hrem fun c => ?_⟩
      by_cases hc : c = node
      · simp [hc]
      · by_cases hcb : c = b
        · subst hcb
          simp [hc, hb]
        · simp [Function.update_of_ne hcb, hc]

/-! ## The inversion -/

theorem deactivateDrained_eq_ok {n n' : Node} : deactivateDrained l node n = .ok (l', n') ↔
    (n.stake ≠ 0 ∧ l' = l ∧ n' = n) ∨
      n.stake = 0 ∧ removeFromList l node = .ok l' ∧ n' = { n with active := false } := by
  unfold deactivateDrained
  split
  · rename_i h
    simp only [bind_eq_ok, pure_eq_ok, Prod.mk.injEq]
    constructor
    · rintro ⟨_, removed, rfl, rfl⟩
      exact .inr ⟨h, removed, rfl⟩
    · rintro (⟨hne, -⟩ | ⟨-, removed, rfl⟩)
      · exact absurd h hne
      · exact ⟨_, removed, rfl, rfl⟩
  · rename_i h
    simp only [pure_eq_ok, Prod.mk.injEq, h, ne_eq, not_false_eq_true, true_and, false_and,
      or_false]
    exact and_congr eq_comm eq_comm

section

variable {m : Metadata} {stake minStake amount : ℕ} {escrow recipient : Address}

theorem setEscrow_eq_ok : NodeRegistry.setEscrow cfg s sender escrow = .ok (s', log) ↔
    sender = cfg.owner ∧ s' = { s with escrow := escrow } ∧ log = .escrowSet escrow := by
  simp only [NodeRegistry.setEscrow, bind_eq_ok, require_eq_ok, pure_eq_ok, Prod.mk.injEq]
  constructor
  · rintro ⟨_, byOwner, rfl, rfl⟩
    exact ⟨byOwner, rfl, rfl⟩
  · rintro ⟨byOwner, rfl, rfl⟩
    exact ⟨(), byOwner, rfl, rfl⟩

theorem setMinStake_eq_ok : NodeRegistry.setMinStake cfg s sender minStake = .ok (s', log) ↔
    sender = cfg.owner ∧ s' = { s with minStake := minStake } ∧ log = .minStakeSet minStake := by
  simp only [NodeRegistry.setMinStake, bind_eq_ok, require_eq_ok, pure_eq_ok, Prod.mk.injEq]
  constructor
  · rintro ⟨_, byOwner, rfl, rfl⟩
    exact ⟨byOwner, rfl, rfl⟩
  · rintro ⟨byOwner, rfl, rfl⟩
    exact ⟨(), byOwner, rfl, rfl⟩

theorem register_eq_ok : NodeRegistry.register cfg s sender m stake = .ok (s', log) ↔
    ∃ token l, s.minStake ≤ stake ∧ (s.nodes sender).active = false ∧
      s.stakeToken.transferFrom cfg.this sender cfg.this stake = some token ∧
      addToList s.toNodeList sender = .ok l ∧
      s' = { s.setNode sender ⟨m, stake, true⟩ with toNodeList := l, stakeToken := token } ∧
      log = .registered sender m.url m.ecdhPubkey m.backendBitmap stake := by
  simp only [NodeRegistry.register, bind_eq_ok, require_eq_ok, orThrow_eq_ok, pure_eq_ok,
    Prod.mk.injEq]
  constructor
  · rintro ⟨_, enough, _, inactive, token, pulled, l, listed, rfl, rfl⟩
    exact ⟨token, l, enough, inactive, pulled, listed, rfl, rfl⟩
  · rintro ⟨token, l, enough, inactive, pulled, listed, rfl, rfl⟩
    exact ⟨(), enough, (), inactive, token, pulled, l, listed, rfl, rfl⟩

theorem update_eq_ok : NodeRegistry.update s sender m = .ok (s', log) ↔
    (s.nodes sender).active = true ∧
      s' = s.setNode sender { s.nodes sender with toMetadata := m } ∧
      log = .updated sender m.url m.backendBitmap m.pricePer1k := by
  simp only [NodeRegistry.update, bind_eq_ok, require_eq_ok, pure_eq_ok, Prod.mk.injEq]
  constructor
  · rintro ⟨_, active, rfl, rfl⟩
    exact ⟨active, rfl, rfl⟩
  · rintro ⟨active, rfl, rfl⟩
    exact ⟨(), active, rfl, rfl⟩

theorem unregister_eq_ok : NodeRegistry.unregister cfg s sender = .ok (s', log) ↔
    ∃ l token, (s.nodes sender).active = true ∧ removeFromList s.toNodeList sender = .ok l ∧
      s.stakeToken.transfer cfg.this sender (s.nodes sender).stake = some token ∧
      s' = { s.setNode sender { s.nodes sender with stake := 0, active := false } with
        toNodeList := l, stakeToken := token } ∧
      log = .unregistered sender (s.nodes sender).stake := by
  simp only [NodeRegistry.unregister, bind_eq_ok, require_eq_ok, safeTransferPos_eq_ok, pure_eq_ok,
    Prod.mk.injEq]
  constructor
  · rintro ⟨_, active, l, removed, token, paid, rfl, rfl⟩
    exact ⟨l, token, active, removed, paid, rfl, rfl⟩
  · rintro ⟨l, token, active, removed, paid, rfl, rfl⟩
    exact ⟨(), active, l, removed, token, paid, rfl, rfl⟩

/-- What is left of the stake decides whether the node stays. -/
theorem slash_eq_ok : NodeRegistry.slash cfg s sender node recipient amount = .ok (s', log) ↔
    ∃ l n token, (sender = s.escrow ∨ sender = cfg.owner) ∧ (s.nodes node).active = true ∧
      amount ≤ (s.nodes node).stake ∧
      deactivateDrained s.toNodeList node
        { s.nodes node with stake := (s.nodes node).stake - amount } = .ok (l, n) ∧
      s.stakeToken.transfer cfg.this recipient amount = some token ∧
      s' = { s.setNode node n with toNodeList := l, stakeToken := token } ∧
      log = .slashed node recipient amount := by
  simp only [NodeRegistry.slash, bind_eq_ok, require_eq_ok, checkedSub_eq_ok,
    safeTransferPos_eq_ok, pure_eq_ok, Prod.mk.injEq]
  constructor
  · rintro ⟨_, authorized, _, active, _, within, _, ⟨-, rfl⟩, ⟨l, n⟩, hn, token, paid, rfl, rfl⟩
    exact ⟨l, n, token, authorized, active, within, hn, paid, rfl, rfl⟩
  · rintro ⟨l, n, token, authorized, active, within, hn, paid, rfl, rfl⟩
    exact ⟨(), authorized, (), active, (), within, _, ⟨within, rfl⟩, (l, n), hn, token, paid, rfl,
      rfl⟩

end

/-- **The successful calls**, with their guards and effects. -/
theorem Call.exec_eq_ok : call.exec cfg s sender = .ok (s', log) ↔
    Success cfg s sender call s' log := by
  constructor
  · intro h
    cases call with
    | setEscrow escrow =>
      obtain ⟨byOwner, rfl, rfl⟩ := setEscrow_eq_ok.1 h
      exact .setEscrow byOwner
    | setMinStake minStake =>
      obtain ⟨byOwner, rfl, rfl⟩ := setMinStake_eq_ok.1 h
      exact .setMinStake byOwner
    | register m stake =>
      obtain ⟨token, l, enough, inactive, pulled, listed, rfl, rfl⟩ := register_eq_ok.1 h
      exact .register enough inactive pulled listed
    | update m =>
      obtain ⟨active, rfl, rfl⟩ := update_eq_ok.1 h
      exact .update active
    | unregister =>
      obtain ⟨l, token, active, removed, paid, rfl, rfl⟩ := unregister_eq_ok.1 h
      exact .unregister active removed paid
    | slash node recipient amount =>
      obtain ⟨l, n, token, authorized, active, within, hn, paid, rfl, rfl⟩ := slash_eq_ok.1 h
      rcases deactivateDrained_eq_ok.1 hn with ⟨hne, rfl, rfl⟩ | ⟨hzero, removed, rfl⟩
      · exact .slash authorized active (by dsimp only at hne; omega) rfl paid
      · dsimp only at hzero ⊢
        rw [hzero]
        exact .drain authorized active (by omega) removed paid
  · intro h
    cases h with
    | setEscrow byOwner => exact setEscrow_eq_ok.2 ⟨byOwner, rfl, rfl⟩
    | setMinStake byOwner => exact setMinStake_eq_ok.2 ⟨byOwner, rfl, rfl⟩
    | register enough inactive pulled listed =>
      exact register_eq_ok.2 ⟨_, _, enough, inactive, pulled, listed, rfl, rfl⟩
    | update active => exact update_eq_ok.2 ⟨active, rfl, rfl⟩
    | unregister active removed paid =>
      exact unregister_eq_ok.2 ⟨_, _, active, removed, paid, rfl, rfl⟩
    | slash authorized active less same paid =>
      subst same
      refine slash_eq_ok.2 ⟨_, _, _, authorized, active, less.le, ?_, paid, rfl, rfl⟩
      exact deactivateDrained_eq_ok.2 (.inl ⟨by dsimp only; omega, rfl, rfl⟩)
    | drain authorized active all removed paid =>
      refine slash_eq_ok.2 ⟨_, _, _, authorized, active, all.le, ?_, paid, rfl, rfl⟩
      refine deactivateDrained_eq_ok.2 (.inr ⟨by dsimp only; omega, removed, ?_⟩)
      rw [all, Nat.sub_self]

/-- Not a panic, but that of a push to a list that is too long. -/
def Revert.PushOnly (e : Revert) : Prop := ∀ code, e = .panic code → code = 0x41

theorem safeTransferPos_pushOnly (dst : Address) (v : ℕ) :
    FailsWith Revert.PushOnly (safeTransferPos cfg token dst v) := by
  unfold safeTransferPos
  split
  · exact .orThrow fun _ => nofun
  · exact .pure _

theorem removeFromList_pushOnly (hl : l.Indexed) (node : Address) :
    FailsWith Revert.PushOnly (removeFromList l node) := by
  obtain ⟨l', h, -⟩ := removeFromList_eq_ok hl node
  exact .of_ok h

/-- **The panics**: no call indexes the list, pops from it or subtracts out of bounds. -/
theorem Call.exec_pushOnly (hl : s.Indexed) (call : Call) :
    FailsWith Revert.PushOnly (call.exec cfg s sender) := by
  cases call with
  | setEscrow escrow => exact .bind (.require fun _ => nofun) fun _ _ => .pure _
  | setMinStake minStake => exact .bind (.require fun _ => nofun) fun _ _ => .pure _
  | register m stake =>
    refine .bind (.require fun _ => nofun) fun _ _ => .bind (.require fun _ => nofun) fun _ _ =>
      .bind (.orThrow fun _ => nofun) fun _ _ => .bind ?_ fun _ _ => .pure _
    unfold addToList
    split
    · refine .bind (.require fun _ code h => ?_) fun _ _ => .pure _
      exact (Revert.panic.inj h).symm
    · exact .pure _
  | update m => exact .bind (.require fun _ => nofun) fun _ _ => .pure _
  | unregister =>
    exact .bind (.require fun _ => nofun) fun _ _ => .bind (removeFromList_pushOnly hl _) fun _ _ =>
      .bind (safeTransferPos_pushOnly _ _) fun _ _ => .pure _
  | slash node recipient amount =>
    refine .bind (.require fun _ => nofun) fun _ _ => .bind (.require fun _ => nofun) fun _ _ =>
      .bind (.require fun _ => nofun) fun _ within => ?_
    have within := require_eq_ok.1 within
    refine .bind (.checkedSub fun h => by omega) fun _ _ => .bind ?_ fun _ _ =>
      .bind (safeTransferPos_pushOnly _ _) fun _ _ => .pure _
    unfold deactivateDrained
    split
    · exact .bind (removeFromList_pushOnly hl _) fun _ _ => .pure _
    · exact .pure _

end Flodex.NodeRegistry
