import Flodex.Coordinator.Books

/-!
# The loops of a node at a coordinator

A node keeps itself at a coordinator by two loops: one registers it and sends heartbeats, the other
refreshes its bids. They go on among everything that others send the coordinator, its sweeps and
its restarts, and any request can fail, before the coordinator has it or after. From every state
both loops can go through a round without a failure (`works_round`, `works_bids`).
-/

namespace Flodex.Presence

open Text Coordinator

/-- The nanoseconds of a second. -/
def second : ℕ := 1000000000

/-- What a node signs with. -/
structure NodeIdentity (crypto : IdentityCrypto) where
  publicCompressed : List UInt8
  sign : List UInt8 → List UInt8
  verify_sign : ∀ message,
    crypto.verifyIdentitySignature publicCompressed message (sign message) = true

structure RegistrationConfig where
  identityPubkey : String
  ecdhPubkey : String
  advertiseUrl : String
  backends : List BackendType
  maxTokens : UInt32
  pricing : List BackendPrice

variable {crypto : IdentityCrypto}

/-- A node, with the text of its own key in its configuration. -/
structure Node (crypto : IdentityCrypto) where
  identity : NodeIdentity crypto
  cfg : RegistrationConfig
  identityPubkey_eq : cfg.identityPubkey = .ofList (hexEncode identity.publicCompressed)

variable (node : Node crypto)

/-! ## The messages of a node -/

def signedRegistration (nonce : String) : NodeRegistration :=
  let reg : NodeRegistration := ⟨node.cfg.identityPubkey, node.cfg.ecdhPubkey,
    node.cfg.advertiseUrl, node.cfg.backends, node.cfg.maxTokens, node.cfg.pricing, nonce, ""⟩
  { reg with
    signature := .ofList (hexEncode (node.identity.sign (canonicalRegisterBytes reg))) }

def signedHeartbeat (nonce : String) : NodeHeartbeat :=
  let hb : NodeHeartbeat := ⟨node.cfg.identityPubkey, nonce, ""⟩
  { hb with signature := .ofList (hexEncode (node.identity.sign (canonicalHeartbeatBytes hb))) }

/-- A standing offer for a backend, if it has a price. -/
def signedBid (backend : BackendType) (validForSecs nowSecs : ℕ) (nonce : String) :
    Option Bid := do
  let price ← (node.cfg.pricing.find? fun p => p.backend = backend).map BackendPrice.pricePer1k
  let validUntil := saturatingAdd 64 nowSecs validForSecs
  let bid : Bid := ⟨node.cfg.identityPubkey, backend, price, node.cfg.maxTokens,
    .ofNat validUntil, nonce, ""⟩
  pure { bid with
    signature := .ofList (hexEncode (node.identity.sign (canonicalBidBytes bid))) }

/-! ## The loops -/

/-- A request on its way to the coordinator, or the answer to it on its way back. -/
inductive Exchange (μ : Type)
  | idle
  | request (m : μ)
  | response (r : Except Rejection Unit)

/-- Where the registration loop is: in its first loop, before a heartbeat, or after the coordinator
answered that it does not know the node. -/
inductive Phase
  | registering
  | beating
  | reregistering
  deriving DecidableEq, Repr

structure Registrar where
  phase : Phase
  /-- The time at which it wakes up. -/
  wake : ℕ
  exchange : Exchange Message

structure Bidder where
  /-- The backends for which a bid is still to be posted. -/
  todo : List BackendType
  wake : ℕ
  exchange : Exchange Bid

/-- The pause after a registration that failed. -/
def retryInterval : ℕ := 3 * second

/-- The pause before a heartbeat. -/
def heartbeatInterval : ℕ := 10 * second

/-- `REFRESH`. -/
def refresh : ℕ := 60 * second

/-- `VALID_FOR`, in seconds. -/
def validFor : ℕ := 180

/-- The message that the registration loop sends. -/
def Phase.message (nonce : String) : Phase → Message
  | .registering => .register (signedRegistration node nonce)
  | .beating => .heartbeat (signedHeartbeat node nonce)
  | .reregistering => .register (signedRegistration node nonce)

def Registrar.post (r : Registrar) (nonce : String) : Registrar :=
  { r with exchange := .request (r.phase.message node nonce) }

/-- The registration loop with the result of its request: the answer, or none if it failed. -/
def Registrar.finish (r : Registrar) (now : ℕ) (result : Option (Except Rejection Unit)) :
    Registrar :=
  match r.phase, result with
  | .registering, some (.ok ()) => ⟨.beating, now + heartbeatInterval, .idle⟩
  | .registering, _ => ⟨.registering, now + retryInterval, .idle⟩
  | .beating, some (.error rejection) =>
    if rejection.status = .notFound then ⟨.reregistering, r.wake, .idle⟩
    else ⟨.beating, now + heartbeatInterval, .idle⟩
  | .beating, _ => ⟨.beating, now + heartbeatInterval, .idle⟩
  | .reregistering, _ => ⟨.beating, now + heartbeatInterval, .idle⟩

/-- The bid loop goes on: it posts the next bid, or sleeps. -/
def Bidder.post (b : Bidder) (now : ℕ) (nonce : String) : Bidder :=
  match b.todo with
  | [] => ⟨node.cfg.backends, now + refresh, .idle⟩
  | backend :: rest =>
    match signedBid node backend validFor (now / second) nonce with
    | none => { b with todo := rest }
    | some bid => { b with exchange := .request bid }

/-- The bid loop after a request, whatever became of it. -/
def Bidder.finish (b : Bidder) : Bidder := ⟨b.todo.tail, b.wake, .idle⟩

/-! ## The system -/

/-- The time in nanoseconds, the two loops of the node, and the coordinator. -/
structure World where
  clock : ℕ
  registrar : Registrar
  bidder : Bidder
  coord : State

inductive Action
  | wait (t : ℕ)
  | post (nonce : String)
  | handle
  | answer
  | fail
  | postBid (nonce : String)
  | handleBid (nowSecs : ℕ)
  | answerBid
  | failBid
  /-- What the coordinator does for others, and its sweeps. -/
  | input (i : Input)
  | restart

/-- The result of a handler, and its answer. -/
def answered (coord : State) : Except Rejection State → State × Except Rejection Unit
  | .ok s => (s, .ok ())
  | .error r => (coord, .error r)

def next (w : World) : Action → World
  | .wait t => { w with clock := w.clock + t }
  | .post nonce => { w with registrar := w.registrar.post node nonce }
  | .handle =>
    match w.registrar.exchange with
    | .request m =>
      let (coord, r) := answered w.coord (receive crypto w.coord w.clock m)
      { w with coord := coord, registrar := { w.registrar with exchange := .response r } }
    | _ => w
  | .answer =>
    match w.registrar.exchange with
    | .response r => { w with registrar := w.registrar.finish w.clock (some r) }
    | _ => w
  | .fail => { w with registrar := w.registrar.finish w.clock none }
  | .postBid nonce => { w with bidder := w.bidder.post node w.clock nonce }
  | .handleBid nowSecs =>
    match w.bidder.exchange with
    | .request bid =>
      let (coord, r) := answered w.coord (Coordinator.postBid crypto w.coord nowSecs bid)
      { w with coord := coord, bidder := { w.bidder with exchange := .response r } }
    | _ => w
  | .answerBid => { w with bidder := w.bidder.finish }
  | .failBid => { w with bidder := w.bidder.finish }
  | .input i => { w with coord := (books crypto).next w.coord i }
  | .restart => { w with coord := .start }

/-- How fast the parties are: the nanoseconds within which a round of requests is over, and the
seconds by which the clock of the coordinator can be ahead. -/
structure Timing where
  delay : ℕ
  skew : ℕ

variable (timing : Timing)

/-- The seconds that the coordinator can read. -/
def Reads (w : World) (nowSecs : ℕ) : Prop := nowSecs ≤ w.clock / second + timing.skew

/-- The times that an input can read. -/
def Timely (w : World) : Input → Prop
  | .message now _ => now = w.clock
  | .postBid nowSecs _ => Reads timing w nowSecs
  | .gcNodes _ now => now ≤ w.clock
  | .gcBids _ nowSecs => Reads timing w nowSecs

/-- The runs of a node that just started, at a coordinator in any state. A loop goes on when it is
awake and has no request under way, and no later than `delay` after it woke up it sleeps again. -/
def machine : Machine World Action where
  Init w := w.registrar = ⟨.registering, w.clock, .idle⟩ ∧
    w.bidder = ⟨node.cfg.backends, w.clock, .idle⟩
  Legal w
    | .wait t => w.clock + t ≤ w.registrar.wake + timing.delay ∧
        w.clock + t ≤ w.bidder.wake + timing.delay
    | .post _ => w.registrar.wake ≤ w.clock ∧ w.registrar.exchange = .idle
    | .handle => ∃ m, w.registrar.exchange = .request m
    | .answer => ∃ r, w.registrar.exchange = .response r
    | .fail => w.registrar.exchange ≠ .idle
    | .postBid _ => w.bidder.wake ≤ w.clock ∧ w.bidder.exchange = .idle
    | .handleBid nowSecs => (∃ bid, w.bidder.exchange = .request bid) ∧ Reads timing w nowSecs
    | .answerBid => ∃ r, w.bidder.exchange = .response r
    | .failBid => w.bidder.exchange ≠ .idle
    | .input i => Timely timing w i
    | .restart => True
  next := next node


/-! ## What a node sends -/

/-- What a node signs verifies under the text of its key. -/
theorem verifySigned_sign (canonical : List UInt8) : verifySigned crypto node.cfg.identityPubkey
    (.ofList (hexEncode (node.identity.sign canonical))) canonical =
      .ok node.identity.publicCompressed := by
  rw [node.identityPubkey_eq]
  simp only [verifySigned, String.toList_ofList, hexDecode_hexEncode, bind_eq_ok, mapError_eq_ok,
    require_eq_ok, pure_eq_ok]
  exact ⟨_, rfl, _, rfl, (), node.identity.verify_sign canonical, rfl⟩

/-- A message that a node sends verifies, and is about it. -/
theorem verified_message (phase : Phase) (nonce : String) :
    Verified crypto (phase.message node nonce) ∧
      (phase.message node nonce).identity = node.cfg.identityPubkey := by
  cases phase with
  | registering => exact ⟨⟨_, verifySigned_sign node _⟩, rfl⟩
  | beating => exact ⟨⟨_, verifySigned_sign node _⟩, rfl⟩
  | reregistering => exact ⟨⟨_, verifySigned_sign node _⟩, rfl⟩

variable {node timing} {w : World} {a : Action}

theorem Registrar.finish_spec (r : Registrar) (now : ℕ) (result : Option (Except Rejection Unit)) :
    (r.finish now result).exchange = .idle ∧
      ((r.finish now result).phase = .reregistering ∧ (r.finish now result).wake = r.wake ∨
        (r.finish now result).phase ≠ .reregistering ∧ now ≤ (r.finish now result).wake ∧
          (r.finish now result).wake ≤ now + heartbeatInterval) := by
  have hretry : retryInterval ≤ heartbeatInterval := by decide
  unfold Registrar.finish
  split
  case h_3 rejection _ _ =>
    split_ifs
    · exact ⟨rfl, .inl ⟨rfl, rfl⟩⟩
    · exact ⟨rfl, .inr ⟨nofun, Nat.le_add_right .., le_rfl⟩⟩
  case h_2 => exact ⟨rfl, .inr ⟨nofun, Nat.le_add_right .., Nat.add_le_add_left hretry now⟩⟩
  all_goals exact ⟨rfl, .inr ⟨nofun, Nat.le_add_right .., le_rfl⟩⟩

/-! ## The system goes on -/

/-- The events of the runs. -/
abbrev Scene := Event World Action

/-- An action that is not a failure, and not one of somebody else. -/
def Action.Quiet : Action → Prop
  | .fail => False
  | .failBid => False
  | .input _ => False
  | .restart => False
  | _ => True

theorem Action.Quiet.ne_restart (quiet : a.Quiet) : a ≠ .restart := by
  rintro rfl
  exact quiet

theorem Action.Quiet.ne_fail (quiet : a.Quiet) : a ≠ .fail := by
  rintro rfl
  exact quiet

theorem Action.Quiet.ne_failBid (quiet : a.Quiet) : a ≠ .failBid := by
  rintro rfl
  exact quiet

theorem Action.Quiet.ne_input (quiet : a.Quiet) (i : Input) : a ≠ .input i := by
  rintro rfl
  exact quiet

variable (node timing) in
/-- The system can get from one state to another by quiet actions. -/
def Works (w w' : World) : Prop :=
  ∃ h : List Scene, Run (machine node timing) w h w' ∧ ∀ e ∈ h, e.act.Quiet

variable {w' w'' : World} {m : Message} {s : State} {nonce : String}

theorem Works.refl : Works node timing w w := ⟨[], .nil, by simp⟩

theorem Works.trans (hw : Works node timing w w') (hw' : Works node timing w' w'') :
    Works node timing w w'' := by
  obtain ⟨h, r, quiet⟩ := hw
  obtain ⟨h', r', quiet'⟩ := hw'
  refine ⟨h ++ h', r.trans r', fun e he => ?_⟩
  obtain he | he := List.mem_append.1 he
  · exact quiet e he
  · exact quiet' e he

theorem Works.step (legal : (machine node timing).Legal w a) (quiet : a.Quiet)
    (hnext : next node w a = w') : Works node timing w w' := by
  obtain ⟨h, r, hacts⟩ := Run.exists_single legal hnext
  refine ⟨h, r, fun e he => ?_⟩
  have hact : e.act ∈ h.map Event.act := List.mem_map_of_mem he
  rw [hacts, List.mem_singleton] at hact
  rwa [hact]

/-- Time passes. -/
theorem works_wait {t : ℕ} (hregistrar : w.clock + t ≤ w.registrar.wake + timing.delay)
    (hbidder : w.clock + t ≤ w.bidder.wake + timing.delay) :
    Works node timing w { w with clock := w.clock + t } :=
  .step (a := .wait t) ⟨hregistrar, hbidder⟩ trivial rfl

/-- A request of the registration loop is answered. -/
theorem works_request (phase : Phase) {wake : ℕ} {r : Except Rejection Unit}
    (hidle : w.registrar = ⟨phase, wake, .idle⟩) (awake : wake ≤ w.clock)
    (hanswered : answered w.coord (receive crypto w.coord w.clock (phase.message node nonce)) =
      (s, r)) : Works node timing w { w with
        coord := s
        registrar := (⟨phase, wake, .idle⟩ : Registrar).finish w.clock (some r) } := by
  have hpost : Works node timing w { w with
      registrar := ⟨phase, wake, .request (phase.message node nonce)⟩ } := by
    have legal : w.registrar.wake ≤ w.clock ∧ w.registrar.exchange = .idle := by
      rw [hidle]
      exact ⟨awake, rfl⟩
    refine .step (a := .post nonce) legal trivial ?_
    rw [next, hidle, Registrar.post]
  have hhandle : Works node timing { w with
        registrar := ⟨phase, wake, .request (phase.message node nonce)⟩ }
      { w with coord := s, registrar := ⟨phase, wake, .response r⟩ } := by
    refine .step (a := .handle) ⟨_, rfl⟩ trivial ?_
    simp only [next, hanswered]
  have hanswer : Works node timing
      { w with coord := s, registrar := ⟨phase, wake, .response r⟩ } { w with
        coord := s
        registrar := (⟨phase, wake, .idle⟩ : Registrar).finish w.clock (some r) } :=
    .step (a := .answer) ⟨_, rfl⟩ trivial rfl
  exact (hpost.trans hhandle).trans hanswer

/-- A message that verifies is refused only if it is a heartbeat of an unknown identity. -/
theorem refused {coord : State} {now : ℕ} {m : Message} {rejection : Rejection}
    (verified : Verified crypto m) (hreceive : receive crypto coord now m = .error rejection) :
    (∃ hb, m = .heartbeat hb) ∧ rejection.status = .notFound := by
  obtain ⟨pubkey, hverify⟩ := verified
  cases m with
  | register reg => cases (receive_eq_ok.2 (.register ⟨pubkey, hverify⟩)).symm.trans hreceive
  | heartbeat hb =>
    refine ⟨⟨hb, rfl⟩, ?_⟩
    cases hentry : coord.nodes hb.identityPubkey with
    | some entry =>
      cases (receive_eq_ok.2 (.heartbeat ⟨pubkey, hverify⟩ hentry)).symm.trans hreceive
    | none =>
      have hverify : verifySigned crypto hb.identityPubkey hb.signature
        (canonicalHeartbeatBytes hb) = .ok pubkey := hverify
      simp only [receive, heartbeat, hverify, hentry, orThrow] at hreceive
      obtain rfl := Except.error.inj hreceive
      rfl

/-- A registration is accepted. -/
theorem answered_register (coord : State) (now : ℕ) {reg : NodeRegistration}
    (verified : Verified crypto (.register reg)) :
    ∃ s, answered coord (receive crypto coord now (.register reg)) = (s, .ok ()) :=
  ⟨_, by rw [receive_eq_ok.2 (.register verified), answered]⟩

/-- **A round of the registration loop**, from any state of it and of the coordinator. -/
theorem works_round (hidle : w.registrar.exchange = .idle) (awake : w.registrar.wake ≤ w.clock) :
    ∃ s, Works node timing w { w with
      coord := s
      registrar := ⟨.beating, w.clock + heartbeatInterval, .idle⟩ } := by
  obtain ⟨clock, ⟨phase, wake, exchange⟩, bidder, coord⟩ := w
  obtain rfl : exchange = .idle := hidle
  have registers : ∀ coord, ∃ s, answered coord (receive crypto coord clock
      (.register (signedRegistration node ""))) = (s, .ok ()) := fun coord =>
    answered_register coord clock (verified_message node .registering "").1
  cases phase with
  | registering =>
    obtain ⟨s, hs⟩ := registers coord
    exact ⟨s, works_request .registering rfl awake hs⟩
  | reregistering =>
    obtain ⟨s, hs⟩ := registers coord
    exact ⟨s, works_request .reregistering rfl awake hs⟩
  | beating =>
    cases hreceive : receive crypto coord clock (.heartbeat (signedHeartbeat node "")) with
    | ok s => exact ⟨s, works_request .beating (r := .ok ()) rfl awake
        (congrArg (answered coord) hreceive)⟩
    | error rejection =>
      have hstatus := (refused (verified_message node .beating "").1 hreceive).2
      have hfirst : Works node timing _ _ := works_request .beating
        (w := ⟨clock, ⟨.beating, wake, .idle⟩, bidder, coord⟩) rfl awake
        (congrArg (answered coord) hreceive)
      simp only [Registrar.finish, hstatus, if_true] at hfirst
      obtain ⟨s, hs⟩ := registers coord
      exact ⟨s, hfirst.trans (works_request .reregistering rfl awake hs)⟩

/-- **A round of the bid loop**, from any state of it and of the coordinator. -/
theorem works_bids {todo : List BackendType} {wake : ℕ} (hidle : w.bidder = ⟨todo, wake, .idle⟩)
    (awake : wake ≤ w.clock) : ∃ s, Works node timing w { w with
      coord := s
      bidder := ⟨node.cfg.backends, w.clock + refresh, .idle⟩ } := by
  induction todo generalizing w with
  | nil =>
    have legal : w.bidder.wake ≤ w.clock ∧ w.bidder.exchange = .idle := by
      rw [hidle]
      exact ⟨awake, rfl⟩
    refine ⟨w.coord, .step (a := .postBid "") legal trivial ?_⟩
    rw [next, hidle, Bidder.post]
  | cons backend rest ih =>
    have legal : w.bidder.wake ≤ w.clock ∧ w.bidder.exchange = .idle := by
      rw [hidle]
      exact ⟨awake, rfl⟩
    cases hbid : signedBid node backend validFor (w.clock / second) "" with
    | none =>
      obtain ⟨s, hs⟩ := ih (w := { w with bidder := ⟨rest, wake, .idle⟩ }) rfl awake
      refine ⟨s, .trans (.step (a := .postBid "") legal trivial ?_) hs⟩
      simp only [next, hidle, Bidder.post, hbid]
    | some bid =>
      have hpost : Works node timing w
          { w with bidder := ⟨backend :: rest, wake, .request bid⟩ } := by
        refine .step (a := .postBid "") legal trivial ?_
        simp only [next, hidle, Bidder.post, hbid]
      obtain ⟨s', r, hhandled⟩ : ∃ s' r, answered w.coord
        (Coordinator.postBid crypto w.coord 0 bid) = (s', r) := ⟨_, _, rfl⟩
      have hhandle : Works node timing
          { w with bidder := ⟨backend :: rest, wake, .request bid⟩ }
          { w with coord := s', bidder := ⟨backend :: rest, wake, .response r⟩ } := by
        refine .step (a := .handleBid 0) ⟨⟨_, rfl⟩, Nat.zero_le _⟩ trivial ?_
        simp only [next, hhandled]
      have hanswer : Works node timing
          { w with coord := s', bidder := ⟨backend :: rest, wake, .response r⟩ }
          { w with coord := s', bidder := ⟨rest, wake, .idle⟩ } :=
        .step (a := .answerBid) ⟨_, rfl⟩ trivial rfl
      obtain ⟨s, hs⟩ := ih (w := { w with coord := s', bidder := ⟨rest, wake, .idle⟩ }) rfl awake
      exact ⟨s, ((hpost.trans hhandle).trans hanswer).trans hs⟩

/-! ## A deployment -/

namespace Deployment

/-- A node with a standing offer for one backend. -/
def lone : Presence.Node .symbolic where
  identity := ⟨Coordinator.Deployment.key,
    IdentityCrypto.symbolicSign Coordinator.Deployment.key,
    IdentityCrypto.symbolic_verify_sign List.length_replicate⟩
  cfg := ⟨Coordinator.Deployment.identity, "", "http://127.0.0.1:7777", [.Local], 100000,
    [⟨.Local, "5"⟩]⟩
  identityPubkey_eq := rfl

/-- Rounds are over within a second, and the clocks differ by at most one. -/
def pace : Timing := ⟨second, 1⟩

def start : World := ⟨0, ⟨.registering, 0, .idle⟩, ⟨[.Local], 0, .idle⟩, .start⟩

theorem init : (machine lone pace).Init start := ⟨rfl, rfl⟩

/-- The loops are asleep, the one of the bids since the start. -/
def asleep (clock wake : ℕ) (coord : State) : World :=
  ⟨clock, ⟨.beating, wake, .idle⟩, ⟨[.Local], refresh, .idle⟩, coord⟩

theorem works_start : ∃ s, Works lone pace start (asleep 0 heartbeatInterval s) := by
  obtain ⟨s, hs⟩ := works_round (w := start) rfl le_rfl
  obtain ⟨s', hs'⟩ := works_bids
    (w := ⟨0, ⟨.beating, 0 + heartbeatInterval, .idle⟩, start.bidder, s⟩) rfl le_rfl
  refine ⟨s', ?_⟩
  rw [asleep, ← Nat.zero_add heartbeatInterval, ← Nat.zero_add refresh]
  exact hs.trans hs'

/-- Time passes until the next heartbeat, and the coordinator accepts it. -/
theorem works_beat {clock wake : ℕ} (s : State) (hle : clock ≤ wake) (hbid : wake ≤ refresh) :
    ∃ s', Works lone pace (asleep clock wake s) (asleep wake (wake + heartbeatInterval) s') := by
  obtain ⟨t, rfl⟩ := Nat.exists_eq_add_of_le hle
  have hwait : Works lone pace (asleep clock (clock + t) s) (asleep (clock + t) (clock + t) s) :=
    works_wait (Nat.le_add_right ..) (hbid.trans (Nat.le_add_right ..))
  obtain ⟨s', hs'⟩ := works_round (w := asleep (clock + t) (clock + t) s) rfl le_rfl
  exact ⟨s', hwait.trans hs'⟩

/-- Rounds of the registration loop. -/
theorem works_beats (s : State) (m n : ℕ) (hn : (m + n) * heartbeatInterval ≤ refresh) :
    ∃ s', Works lone pace (asleep (m * heartbeatInterval) ((m + 1) * heartbeatInterval) s)
      (asleep ((m + n) * heartbeatInterval) ((m + n + 1) * heartbeatInterval) s') := by
  induction n with
  | zero => exact ⟨s, .refl⟩
  | succ n ih =>
    have hle : (m + n) * heartbeatInterval ≤ (m + n + 1) * heartbeatInterval :=
      Nat.mul_le_mul_right _ (Nat.le_succ _)
    obtain ⟨s', hs'⟩ := ih (hle.trans hn)
    obtain ⟨s'', hs''⟩ := works_beat s' hle hn
    rw [← Nat.succ_mul] at hs''
    exact ⟨s'', hs'.trans hs''⟩

/-- Two more rounds, and four seconds. -/
theorem works_beating (s : State) (m : ℕ) (hm : m ≤ 2) : ∃ s', Works lone pace
    (asleep (m * heartbeatInterval) ((m + 1) * heartbeatInterval) s)
    (asleep ((m + 2) * heartbeatInterval + 4 * second) ((m + 2 + 1) * heartbeatInterval) s') := by
  have hinterval : heartbeatInterval = 10000000000 := rfl
  have hrefresh : refresh = 60000000000 := rfl
  have hsecond : second = 1000000000 := rfl
  obtain ⟨s', hs'⟩ := works_beats s m 2 (by rw [hinterval]; omega)
  have hregistrar : (m + 2) * heartbeatInterval + 4 * second ≤
      (m + 2 + 1) * heartbeatInterval + second := by
    rw [hinterval]
    omega
  have hbidder : (m + 2) * heartbeatInterval + 4 * second ≤ refresh + second := by
    rw [hinterval]
    omega
  exact ⟨s', hs'.trans (works_wait hregistrar hbidder)⟩

/-- The loops after their first rounds, at a clock of zero. -/
theorem works_first : ∃ s, Works lone pace start
    (asleep (0 * heartbeatInterval) ((0 + 1) * heartbeatInterval) s) := by
  rw [Nat.zero_mul, Nat.zero_add, Nat.one_mul]
  exact works_start

end Deployment

end Flodex.Presence
