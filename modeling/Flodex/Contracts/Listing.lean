import Flodex.Contracts.NodeRegistry
import Flodex.Foundations.Run

/-!
# Runs of the `NodeRegistry` contract, and its list

The registry among its users: any account may call it and ask anything of the token. A call that
reverts leaves no trace.

`Listed` is the invariant of the list: every position is where the index says, and the list has
the active nodes. A call keeps it (`Success.listed`), and so does every run; the removal from the
list, which indexes it without a check of its own, relies on it.
-/

namespace Flodex.NodeRegistry

/-- The actions of the environment. -/
inductive Action
  | call (sender : Address) (call : Call)
  | token (sender : Address) (request : Ledger.Request Address)

variable (cfg : Config)

/-- The state after an action. -/
def next (s : State) : Action → State
  | .call sender call =>
    match call.exec cfg s sender with
    | .ok (s', _) => s'
    | .error _ => s
  | .token sender request => { s with stakeToken := s.stakeToken.apply sender request }

/-- The storage after the constructor. -/
def State.deployed (minStake : ℕ) (stakeToken : Ledger Address) : State where
  nodeList := []
  nodeListIndex _ := 0
  nodes _ := Node.zero
  escrow := .replicate 20 0
  minStake := minStake
  stakeToken := stakeToken

/-- The registry among its users. The contract itself asks nothing of the token but what its code
does, and has approved no spender. -/
def machine : Machine State Action where
  Init s := (∃ minStake stakeToken, s = .deployed minStake stakeToken) ∧
    ∀ a, s.stakeToken.allowance cfg.this a = 0
  Legal _
    | .token sender _ => sender ≠ cfg.this
    | _ => True
  next := next cfg

/-- The events of the runs. -/
abbrev Step := Event State Action

/-- What an event of a run emitted: the log of a call that succeeds. -/
def emitted (e : Step) : Option Log :=
  match e.act with
  | .call sender call =>
    match call.exec cfg e.pre sender with
    | .ok (_, log) => some log
    | .error _ => none
  | _ => none

/-- What an action can do. -/
inductive Outcome (s : State) : Action → State → Option Log → Prop
  | success {sender : Address} {call : Call} {s' : State} {log : Log}
    (succ : Success cfg s sender call s' log) : Outcome s (.call sender call) s' (some log)
  | revert {sender : Address} {call : Call} : Outcome s (.call sender call) s none
  | token {sender : Address} {request : Ledger.Request Address} :
    Outcome s (.token sender request)
      { s with stakeToken := s.stakeToken.apply sender request } none

/-- **What the actions do.** -/
theorem outcome (s : State) (a : Action) :
    Outcome cfg s a (next cfg s a) (emitted cfg ⟨s, a, next cfg s a⟩) := by
  cases a with
  | call sender call =>
    simp only [next, emitted]
    split
    · rename_i s' log hexec
      exact .success (Call.exec_eq_ok.1 hexec)
    · exact .revert
  | token sender request => exact .token

/-- Every position is where the index says, and the list has the active nodes. -/
structure Listed (s : State) : Prop where
  indexed : s.Indexed
  active : ∀ a, a ∈ s.nodeList ↔ (s.nodes a).active = true

variable {cfg} {s s' t : State} {a : Action} {o : Option Log} {log : Log} {call : Call}
  {sender : Address} {h : List Step}

@[simp] theorem setNode_active (node : Address) (n : Node) (b : Address) :
    ((s.setNode node n).nodes b).active = if b = node then n.active else (s.nodes b).active := by
  unfold State.setNode
  by_cases hb : b = node
  · simp [hb]
  · simp [hb]

theorem Success.listed (succ : Success cfg s sender call s' log) (hs : Listed s) : Listed s' := by
  cases succ with
  | setEscrow | setMinStake => exact ⟨hs.indexed, hs.active⟩
  | register _ _ _ listed =>
    obtain ⟨indexed, hmem⟩ := addToList_eq_ok hs.indexed listed
    refine ⟨indexed, fun b => ?_⟩
    rw [hmem b, hs.active b]
    by_cases hb : b = sender <;> simp [hb]
  | update active =>
    refine ⟨hs.indexed, fun b => (hs.active b).trans ?_⟩
    by_cases hb : b = sender <;> simp [hb, active]
  | unregister _ removed =>
    obtain ⟨l, hl, indexed, hmem⟩ := removeFromList_eq_ok hs.indexed sender
    obtain rfl := Except.ok.inj (removed.symm.trans hl)
    refine ⟨indexed, fun b => ?_⟩
    rw [hmem b, hs.active b]
    by_cases hb : b = sender <;> simp [hb]
  | @slash node _ _ _ _ _ active _ same =>
    subst same
    refine ⟨hs.indexed, fun b => (hs.active b).trans ?_⟩
    by_cases hb : b = node <;> simp [hb, active]
  | @drain node _ _ _ _ _ _ _ removed =>
    obtain ⟨l, hl, indexed, hmem⟩ := removeFromList_eq_ok hs.indexed node
    obtain rfl := Except.ok.inj (removed.symm.trans hl)
    refine ⟨indexed, fun b => ?_⟩
    rw [hmem b, hs.active b]
    by_cases hb : b = node <;> simp [hb]

theorem Outcome.listed (out : Outcome cfg s a s' o) (hs : Listed s) : Listed s' := by
  cases out with
  | success succ => exact succ.listed hs
  | revert => exact hs
  | token => exact ⟨hs.indexed, hs.active⟩

/-- **The list of the registry** is indexed and has the active nodes, along every run. -/
theorem listed_run (r : Run (machine cfg) s h t) (init : (machine cfg).Init s) : Listed t := by
  refine r.invariant Listed ?_ fun t a ih _ => (outcome cfg t a).listed ih
  obtain ⟨⟨minStake, stakeToken, rfl⟩, -⟩ := init
  exact ⟨Indexes.nil, fun a => by simp [State.deployed, Node.zero]⟩

/-- The nodes are counted. -/
theorem Listed.nodeCount (hs : Listed s) :
    nodeCount s = (Finset.univ.filter fun a => (s.nodes a).active = true).card := by
  have hset : s.nodeList.toFinset = Finset.univ.filter fun a => (s.nodes a).active = true := by
    ext a
    rw [List.mem_toFinset, Finset.mem_filter_univ, hs.active a]
  rw [← hset, List.toFinset_card_of_nodup (Indexes.nodup hs.indexed), NodeRegistry.nodeCount]

/-- **The list of nodes.** In every state the registry can reach: the list has no duplicates, the
index has the position of each of its elements and `0` for every other address, and its elements
are the active nodes, so that `nodeCount` is their number; and no call indexes the list, pops from
it or subtracts out of bounds. -/
theorem listing (r : Run (machine cfg) s h t) (init : (machine cfg).Init s) :
    t.nodeList.Nodup ∧
      (∀ a i, t.nodeListIndex a = i + 1 ↔ t.nodeList[i]? = some a) ∧
      (∀ a, a ∉ t.nodeList → t.nodeListIndex a = 0) ∧
      (∀ a, a ∈ t.nodeList ↔ (t.nodes a).active = true) ∧
      nodeCount t = (Finset.univ.filter fun a => (t.nodes a).active = true).card ∧
      (∀ node, ∃ l, removeFromList t.toNodeList node = .ok l) ∧
      ∀ sender (call : Call) code, call.exec cfg t sender = .error (.panic code) →
        code = 0x41 := by
  have ht := listed_run r init
  refine ⟨Indexes.nodup ht.indexed, ht.indexed, fun a => (Indexes.eq_zero_iff ht.indexed).2,
    ht.active, ht.nodeCount, fun node => ?_, fun sender call code hcode => ?_⟩
  · obtain ⟨l, hl, -⟩ := removeFromList_eq_ok ht.indexed node
    exact ⟨l, hl⟩
  · exact Call.exec_pushOnly ht.indexed call _ hcode code rfl

/-! ## A deployment -/

namespace Deployment

def testnet : Config := ⟨.replicate 20 7, .replicate 20 9⟩

def node (b : UInt8) : Address := .replicate 20 b

def start : State := .deployed 0 ⟨fun _ => 0, fun _ _ => 0⟩

theorem init : (machine testnet).Init start := ⟨⟨_, _, rfl⟩, fun _ => rfl⟩

def metadata : Metadata := ⟨Text.utf8 "http://n".toList, .replicate 32 1, 9, 4096, .replicate _ 50⟩

/-- A node funds itself and registers. -/
def registering (b : UInt8) (stake : BitVec 256) : List Action :=
  [.token (node b) (.mint (node b) 100), .token (node b) (.approve testnet.this 100),
    .call (node b) (.register metadata stake)]

/-- Three nodes register; the first leaves, the third is slashed of its whole stake in two parts
and the second of a part of it, and the first comes back without a stake. -/
def churning : List Action :=
  registering 1 10 ++ registering 2 20 ++ registering 3 30 ++
    [.call (node 1) .unregister, .call testnet.owner (.slash (node 3) (node 4) 25),
      .call testnet.owner (.slash (node 3) (node 4) 5),
      .call testnet.owner (.slash (node 2) (node 4) 8), .call (node 1) (.register metadata 0)]

abbrev trace (as : List Action) : List Step := (machine testnet).trace start as

abbrev final (as : List Action) : State := (machine testnet).final start as

theorem run (as : List Action) (legal : (machine testnet).LegalFrom start as) :
    Run (machine testnet) start (trace as) (final as) := Run.of_legalFrom as start legal

theorem node_ne_this {b : UInt8} (hb : b ≠ 9) : node b ≠ testnet.this := by
  intro h
  have := congrArg (fun a : Address => a.toList.head?) h
  exact hb (by simpa [node, testnet, Bytes.replicate, List.replicate_succ] using this)

theorem legal_churning : (machine testnet).LegalFrom start churning := by
  refine ⟨?_, ?_, trivial, ?_, ?_, trivial, ?_, ?_, trivial, trivial, trivial, trivial, trivial,
    trivial, trivial⟩ <;> exact node_ne_this (by decide)

example : (final churning).nodeList = [node 2, node 1] := by decide +kernel

end Deployment

theorem listing_churning : (Deployment.final Deployment.churning).nodeList.Nodup :=
  (listing (Deployment.run _ Deployment.legal_churning) Deployment.init).1

end Flodex.NodeRegistry
